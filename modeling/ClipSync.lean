import ClipSync.Lib.Bytes
import ClipSync.Lib.Base64
import ClipSync.Lib.Client
import ClipSync.Lib.Hex
import ClipSync.Lib.Program
import ClipSync.Lib.Json.Text
import ClipSync.Lib.Json.RoundTrip
import ClipSync.Lib.Json.Record
import ClipSync.Lib.HashMap
import ClipSync.Lib.Recency
import ClipSync.Lib.Threads
import ClipSync.Lib.Outline
import ClipSync.Lib.Custody
import ClipSync.Lib.BigEndian
import ClipSync.Lib.FixedWindow
import ClipSync.Lib.Schedule
import ClipSync.Lib.FileSystem
import ClipSync.Lib.Volume
import ClipSync.Core.Protocol
import ClipSync.Core.Serde
import ClipSync.Core.WireFormat
import ClipSync.Core.Crypto
import ClipSync.Core.Binding
import ClipSync.Core.PairingReset
import ClipSync.Core.SessionRun
import ClipSync.Core.SendSize
import ClipSync.Core.EchoRing
import ClipSync.Core.HistoryErased
import ClipSync.Core.PowerLoss
import ClipSync.Core.Handover
import ClipSync.Core.OfferRun
import ClipSync.Core.ResetRun
import ClipSync.Core.StatusOrder
import ClipSync.Core.Preemption
import ClipSync.Core.PairingClient
import ClipSync.Server.Config
import ClipSync.Server.OutboxRun
import ClipSync.Server.ClipSize
import ClipSync.Server.ErrorSize
import ClipSync.Server.MailboxHealth
import ClipSync.Server.MailboxQuota
import ClipSync.Server.RoomJoin
import ClipSync.Server.RegistrySweep
import ClipSync.Server.RoomsRun
import ClipSync.Server.Routing
import ClipSync.Server.PairingRun
import ClipSync.Server.RateLimit
import ClipSync.Server.Authentication
import ClipSync.MacOS.Pasteboard
import ClipSync.Android.SendCustody
import ClipSync.Android.StartSlot
