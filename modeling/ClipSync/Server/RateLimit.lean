import ClipSync.Lib.FixedWindow
import ClipSync.Server.Connection

/-!
# Rate limits

The limits of `ratelimit.rs` on joins and octets and those of `pairing.rs` on attempts,
over any sequence of calls from any addresses. Joins and octets of an address are counted
in one window, attempts in another. The calls of one address are answered as if it were
alone, and in an interval that is shorter than a window it gets at most twice its budget.

Sums of octets saturate, so a budget of `u64::MAX` octets is no limit at all.
-/

namespace ClipSync

open Lib FixedWindow

/-! ## Runs -/

inductive RateRequest where
  | join
  | bytes (count : UInt64)
  | attempt
deriving DecidableEq

structure RateCall where
  now : ℕ
  ip : IpAddr
  request : RateRequest

/-- The counters of the relay. -/
structure RateState where
  windows : Windows
  pairing : PairingState

/-- A call with its answer and the start of the window it was counted in. -/
structure Counted where
  call : RateCall
  started : ℕ
  accepted : Bool

/-- The entry in which an address is counted by `allowAttempt`. -/
def PairingRelay.entry (config : PairingConfig) (state : PairingState) (ip : IpAddr) (now : ℕ) :
    RateEntry :=
  let entry := (state.rates.lookup ip).getD ⟨now, 0⟩
  if now - entry.windowStart ≥ config.rateWindow then ⟨now, 0⟩ else entry

namespace RateState

def empty : RateState := ⟨∅, ∅, ∅⟩

variable (limits : Limits) (config : PairingConfig)

def serve (s : RateState) (call : RateCall) : Counted × RateState :=
  match call.request with
  | .join =>
    let started := (IpRateLimiter.window limits s.windows call.ip call.now).started
    let (accepted, windows) := IpRateLimiter.checkJoin limits s.windows call.ip call.now
    (⟨call, started, accepted⟩, { s with windows })
  | .bytes count =>
    let started := (IpRateLimiter.window limits s.windows call.ip call.now).started
    let (accepted, windows) :=
      IpRateLimiter.addBytes limits s.windows call.ip call.now count.toNat
    (⟨call, started, accepted⟩, { s with windows })
  | .attempt =>
    let started := (PairingRelay.entry config s.pairing call.ip call.now).windowStart
    let (accepted, pairing) := PairingRelay.allowAttempt config s.pairing call.ip call.now
    (⟨call, started, accepted⟩, { s with pairing })

def serveAll (calls : List RateCall) : List Counted × RateState :=
  calls.foldl (fun r call => (r.1 ++ [(r.2.serve limits config call).1],
    (r.2.serve limits config call).2)) ([], empty)

def log (calls : List RateCall) : List Counted := (serveAll limits config calls).1

def final (calls : List RateCall) : RateState := (serveAll limits config calls).2

variable {limits config}

theorem log_snoc (calls : List RateCall) (call : RateCall) :
    log limits config (calls ++ [call]) =
      log limits config calls ++ [((final limits config calls).serve limits config call).1] := by
  rw [log, serveAll, List.foldl_append]
  rfl

theorem final_snoc (calls : List RateCall) (call : RateCall) :
    final limits config (calls ++ [call]) =
      ((final limits config calls).serve limits config call).2 := by
  rw [final, serveAll, List.foldl_append]
  rfl

theorem serve_call (s : RateState) (call : RateCall) :
    (s.serve limits config call).1.call = call := by
  unfold serve
  split <;> rfl

section Serve

variable {s : RateState} {call : RateCall}

theorem serve_join (h : call.request = .join) {w : Window}
    (hw : IpRateLimiter.window limits s.windows call.ip call.now = w) :
    s.serve limits config call =
      (⟨call, w.started, decide (w.joins + 1 ≤ limits.joinAttemptsPerMinute)⟩,
        { s with windows := s.windows.insert call.ip { w with joins := w.joins + 1 } }) := by
  subst hw
  simp only [serve, h]
  rfl

theorem serve_bytes {count : UInt64} (h : call.request = .bytes count) {w : Window}
    (hw : IpRateLimiter.window limits s.windows call.ip call.now = w) :
    s.serve limits config call =
      (⟨call, w.started,
        decide (min (w.bytes.toNat + count.toNat) (2 ^ 64 - 1) ≤ limits.bytesPerMinute.toNat)⟩,
        { s with
          windows := s.windows.insert call.ip
            { w with
              bytes := UInt64.ofNat (min (w.bytes.toNat + count.toNat) (2 ^ 64 - 1)) } }) := by
  subst hw
  simp only [serve, h]
  rfl

theorem serve_attempt (h : call.request = .attempt) {e : RateEntry}
    (he : PairingRelay.entry config s.pairing call.ip call.now = e) :
    s.serve limits config call =
      (⟨call, e.windowStart, decide (e.attempts < config.attemptsPerWindow)⟩,
        { s with
          pairing.rates := s.pairing.rates.insert call.ip
            (if e.attempts < config.attemptsPerWindow then { e with attempts := e.attempts + 1 }
              else e) }) := by
  subst he
  have hallow : PairingRelay.allowAttempt config s.pairing call.ip call.now =
      let e := PairingRelay.entry config s.pairing call.ip call.now
      (decide (e.attempts < config.attemptsPerWindow),
        { s.pairing with
          rates := s.pairing.rates.insert call.ip
            (if e.attempts < config.attemptsPerWindow then { e with attempts := e.attempts + 1 }
              else e) }) := by
    change (if (PairingRelay.entry config s.pairing call.ip call.now).attempts ≥ _
      then _ else _) = _
    by_cases hspent : (PairingRelay.entry config s.pairing call.ip call.now).attempts <
        config.attemptsPerWindow
    · simp only [if_neg (Nat.not_le.2 hspent), if_pos hspent, decide_eq_true hspent]
      rfl
    · simp only [if_pos (Nat.not_lt.1 hspent), if_neg hspent, decide_eq_false hspent]
      rfl
  simp only [serve, h, hallow]

end Serve

theorem map_call_log (calls : List RateCall) : (log limits config calls).map (·.call) = calls := by
  induction calls using List.reverseRecOn with
  | nil => rfl
  | append_singleton calls call ih =>
    rw [log_snoc, List.map_append, ih, List.map_singleton, serve_call]

theorem total_log {p : RateCall → Prop} [DecidablePred p] (weight : RateCall → ℕ)
    (calls : List RateCall) :
    total (fun e => p e.call) (fun e => weight e.call) (log limits config calls) =
      total p weight calls := by
  rw [← total_map (fun e : Counted => e.call), map_call_log]

/-! ## One address -/

def Agrees (ip : IpAddr) (s s' : RateState) : Prop :=
  s.windows.lookup ip = s'.windows.lookup ip ∧
    s.pairing.rates.lookup ip = s'.pairing.rates.lookup ip

theorem agrees_serve_of_ne {s : RateState} {call : RateCall} {ip : IpAddr} (h : call.ip ≠ ip) :
    Agrees ip (s.serve limits config call).2 s := by
  cases hrequest : call.request with
  | join =>
    rw [serve_join hrequest rfl]
    exact ⟨Finmap.lookup_insert_of_ne _ h.symm, rfl⟩
  | bytes count =>
    rw [serve_bytes hrequest rfl]
    exact ⟨Finmap.lookup_insert_of_ne _ h.symm, rfl⟩
  | attempt =>
    rw [serve_attempt hrequest rfl]
    exact ⟨rfl, Finmap.lookup_insert_of_ne _ h.symm⟩

theorem Agrees.serve {s s' : RateState} {call : RateCall} (h : Agrees call.ip s s') :
    (s.serve limits config call).1 = (s'.serve limits config call).1 ∧
      Agrees call.ip (s.serve limits config call).2 (s'.serve limits config call).2 := by
  obtain ⟨hwindows, hrates⟩ := h
  have hwindow : IpRateLimiter.window limits s.windows call.ip call.now =
      IpRateLimiter.window limits s'.windows call.ip call.now := by
    rw [IpRateLimiter.window, IpRateLimiter.window, hwindows]
  have hentry : PairingRelay.entry config s.pairing call.ip call.now =
      PairingRelay.entry config s'.pairing call.ip call.now := by
    rw [PairingRelay.entry, PairingRelay.entry, hrates]
  cases hrequest : call.request with
  | join =>
    rw [serve_join hrequest hwindow, serve_join hrequest rfl]
    refine ⟨rfl, ?_, hrates⟩
    rw [Finmap.lookup_insert, Finmap.lookup_insert]
  | bytes count =>
    rw [serve_bytes hrequest hwindow, serve_bytes hrequest rfl]
    refine ⟨rfl, ?_, hrates⟩
    rw [Finmap.lookup_insert, Finmap.lookup_insert]
  | attempt =>
    rw [serve_attempt hrequest hentry, serve_attempt hrequest rfl]
    refine ⟨rfl, hwindows, ?_⟩
    rw [Finmap.lookup_insert, Finmap.lookup_insert]

theorem filter_log (ip : IpAddr) (calls : List RateCall) :
    (log limits config calls).filter (fun e => e.call.ip = ip) =
      log limits config (calls.filter fun call => call.ip = ip) ∧
    Agrees ip (final limits config calls)
      (final limits config (calls.filter fun call => call.ip = ip)) := by
  induction calls using List.reverseRecOn with
  | nil => exact ⟨rfl, rfl, rfl⟩
  | append_singleton calls call ih =>
    obtain ⟨hlog, hagrees⟩ := ih
    rw [log_snoc, final_snoc, List.filter_append, List.filter_append, hlog]
    by_cases hip : call.ip = ip
    · subst hip
      obtain ⟨hsame, hagrees'⟩ := hagrees.serve
      have hcall : [call].filter (fun c => c.ip = call.ip) = [call] := by simp
      rw [hcall, log_snoc, final_snoc, ← hsame]
      refine ⟨?_, hagrees'⟩
      simp [serve_call]
    · have hcall : [call].filter (fun c => c.ip = ip) = [] := by simp [hip]
      rw [hcall, List.append_nil]
      refine ⟨by simp [serve_call, hip], ?_⟩
      obtain ⟨hwindows, hrates⟩ : Agrees ip ((final limits config calls).serve limits config
        call).2 (final limits config calls) := agrees_serve_of_ne hip
      exact ⟨hwindows.trans hagrees.1, hrates.trans hagrees.2⟩

/-! ## What is counted -/

end RateState

namespace RateCall

def joins (call : RateCall) : ℕ := if call.request = .join then 1 else 0

def octets (call : RateCall) : ℕ :=
  match call.request with
  | .bytes count => count.toNat
  | .join | .attempt => 0

def attempts (call : RateCall) : ℕ := if call.request = .attempt then 1 else 0

end RateCall

namespace RateState

variable (limits : Limits) (config : PairingConfig)

def traffic (ip : IpAddr) (e : Counted) : Bool :=
  decide (e.call.ip = ip ∧ e.call.request ≠ .attempt)

def tries (ip : IpAddr) (e : Counted) : Bool :=
  decide (e.call.ip = ip ∧ e.call.request = .attempt)

def counted (e : Counted) : ℕ := if e.accepted then e.call.attempts else 0

def Moderate (calls : List RateCall) : Prop :=
  ∀ ip a b, b < a + limits.rateWindow →
    total (fun call : RateCall => call.ip = ip ∧ a ≤ call.now ∧ call.now ≤ b) RateCall.joins
      calls < 2 ^ 32

/-- The counters of a window are the totals of its uses, as far as they can be counted. -/
structure Tallies (xs : List Counted) (w : Window) : Prop where
  joins_le : w.joins.toNat ≤ total (·.started = w.started) (·.call.joins) xs
  bytes_le : w.bytes.toNat ≤ total (·.started = w.started) (·.call.octets) xs
  le_joins : 0 < limits.rateWindow →
    total (·.started = w.started) (·.call.joins) xs ≤ w.joins.toNat
  le_bytes : 0 < limits.rateWindow →
    min (total (·.started = w.started) (·.call.octets) xs) (2 ^ 64 - 1) ≤ w.bytes.toNat

/-- The log of an address and its window. -/
abbrev Traffic (xs : List Counted) (entry : Option Window) (now : ℕ) : Prop :=
  Tracked Window.started limits.rateWindow (fun e : Counted => e.call.now) (·.started)
    (Tallies limits) xs entry now

variable {limits config} {xs : List Counted} {e : Counted} {w : Window} {windows : Windows}
  {ip : IpAddr} {now : ℕ}

/-- The window that the next use is counted in. -/
theorem Traffic.window (h : Traffic limits xs (windows.lookup ip) now) :
    Tallies limits xs (IpRateLimiter.window limits windows ip now) ∧
      (IpRateLimiter.window limits windows ip now).started =
        nextStart limits.rateWindow ((windows.lookup ip).map (·.started)) now := by
  refine Tracked.current ⟨now, 0, 0⟩ h rfl fun hzero =>
    ⟨Nat.zero_le _, Nat.zero_le _, fun hwidth => (hzero hwidth _).le, fun hwidth => ?_⟩
  rw [hzero hwidth _]
  exact Nat.zero_le _

theorem Tallies.join (h : Tallies limits xs w) (hstarted : e.started = w.started)
    (hrequest : e.call.request = .join)
    (hwrap : 0 < limits.rateWindow → w.joins.toNat + 1 < 2 ^ 32) :
    Tallies limits (xs ++ [e]) { w with joins := w.joins + 1 } := by
  have hjoins : e.call.joins = 1 := if_pos hrequest
  have hoctets : e.call.octets = 0 := by rw [RateCall.octets, hrequest]
  have hsum : (w.joins + 1).toNat = (w.joins.toNat + 1) % 2 ^ 32 := UInt32.toNat_add _ _
  have hle := h.joins_le
  constructor
  · rw [total_snoc, if_pos hstarted, hjoins]
    dsimp only
    omega
  · rw [total_snoc, if_pos hstarted, hoctets]
    exact h.bytes_le
  · intro hwidth
    have hge := h.le_joins hwidth
    have hfits := hwrap hwidth
    rw [total_snoc, if_pos hstarted, hjoins]
    dsimp only
    omega
  · intro hwidth
    rw [total_snoc, if_pos hstarted, hoctets]
    exact h.le_bytes hwidth

theorem Tallies.bytes (h : Tallies limits xs w) (hstarted : e.started = w.started)
    {count : UInt64} (hrequest : e.call.request = .bytes count) :
    Tallies limits (xs ++ [e])
      { w with bytes := UInt64.ofNat (min (w.bytes.toNat + count.toNat) (2 ^ 64 - 1)) } := by
  have hjoins : e.call.joins = 0 := if_neg (by rw [hrequest]; exact RateRequest.noConfusion)
  have hoctets : e.call.octets = count.toNat := by rw [RateCall.octets, hrequest]
  have hsum : (UInt64.ofNat (min (w.bytes.toNat + count.toNat) (2 ^ 64 - 1))).toNat =
      min (w.bytes.toNat + count.toNat) (2 ^ 64 - 1) := by
    rw [UInt64.toNat_ofNat', Nat.mod_eq_of_lt]
    omega
  have hle := h.bytes_le
  constructor
  · rw [total_snoc, if_pos hstarted, hjoins]
    exact h.joins_le
  · rw [total_snoc, if_pos hstarted, hoctets]
    dsimp only
    rw [hsum]
    omega
  · intro hwidth
    rw [total_snoc, if_pos hstarted, hjoins]
    exact h.le_joins hwidth
  · intro hwidth
    have hge := h.le_bytes hwidth
    rw [total_snoc, if_pos hstarted, hoctets]
    dsimp only
    rw [hsum]
    omega

/-- A use is counted in the window. -/
theorem Traffic.use (h : Traffic limits xs (windows.lookup ip) now) (hnow : e.call.now = now)
    (hstarted : e.started = (IpRateLimiter.window limits windows ip now).started)
    (hw : w.started = e.started) (htallies : Tallies limits (xs ++ [e]) w) :
    Traffic limits (xs ++ [e]) (some w) now :=
  Tracked.snoc h hnow (hstarted.trans (Traffic.window h).2) hw htallies

theorem Moderate.of_append {calls later : List RateCall} (h : Moderate limits (calls ++ later)) :
    Moderate limits calls := by
  intro ip a b hab
  have htotal := h ip a b hab
  rw [total_append] at htotal
  omega

theorem Moderate.joins_lt {calls : List RateCall} {call : RateCall}
    (hmoderate : Moderate limits (calls ++ [call])) (hrequest : call.request = .join)
    (h : Traffic limits ((log limits config calls).filter (traffic call.ip))
      ((final limits config calls).windows.lookup call.ip) call.now)
    (hwidth : 0 < limits.rateWindow) :
    (IpRateLimiter.window limits (final limits config calls).windows call.ip
      call.now).joins.toNat + 1 < 2 ^ 32 := by
  obtain ⟨htallies, hstarted⟩ := Traffic.window h
  generalize IpRateLimiter.window limits (final limits config calls).windows call.ip
    call.now = w at htallies hstarted ⊢
  have hinside : call.now < w.started + limits.rateWindow := by
    rw [hstarted]
    exact lt_nextStart_add hwidth
  have hbefore : w.started ≤ call.now := by
    rw [hstarted]
    exact nextStart_le h.timeline.last_le
  have htotal := hmoderate call.ip w.started call.now hinside
  rw [total_snoc, if_pos ⟨rfl, hbefore, le_refl _⟩, RateCall.joins, if_pos hrequest] at htotal
  have hle : total (·.started = w.started) (·.call.joins)
      ((log limits config calls).filter (traffic call.ip)) ≤
      total (fun c : RateCall => c.ip = call.ip ∧ w.started ≤ c.now ∧ c.now ≤ call.now)
        RateCall.joins calls := by
    rw [← total_log]
    refine le_trans (total_mono fun e he hstart => ⟨?_, le_refl _⟩) (total_filter_le _ _)
    have hip := of_decide_eq_true (List.mem_filter.1 he).2
    exact ⟨hip.1, hstart ▸ h.timeline.started_le e he, h.timeline.time_le e he⟩
  have hjoins := htallies.joins_le
  omega

/-- The log of the calls that a test picks out, and the counter they share. -/
theorem tracked_run {ε : Type} {start : ε → ℕ} {width : ℕ} {K : List Counted → ε → Prop}
    {P : List RateCall → Prop} (hP : ∀ {calls later}, P (calls ++ later) → P calls)
    {test : Counted → Bool} (last : RateState → Option ε) (hempty : last empty = none)
    (hskip : ∀ {s call}, test (s.serve limits config call).1 = false →
      last (s.serve limits config call).2 = last s)
    (huse : ∀ {calls call}, P (calls ++ [call]) →
      test ((final limits config calls).serve limits config call).1 = true →
      Tracked start width (fun e : Counted => e.call.now) (·.started) K
        ((log limits config calls).filter test) (last (final limits config calls)) call.now →
      Tracked start width (fun e : Counted => e.call.now) (·.started) K
        ((log limits config calls).filter test ++
          [((final limits config calls).serve limits config call).1])
        (last ((final limits config calls).serve limits config call).2) call.now)
    {calls : List RateCall} (hsorted : calls.Pairwise (·.now ≤ ·.now)) (hcalls : P calls) {now : ℕ}
    (hnow : ∀ call ∈ calls, call.now ≤ now) :
    Tracked start width (fun e : Counted => e.call.now) (·.started) K
      ((log limits config calls).filter test) (last (final limits config calls)) now := by
  induction calls using List.reverseRecOn generalizing now with
  | nil =>
    refine ⟨?_, fun e he => ?_⟩
    · rw [show final limits config [] = empty from rfl, hempty]
      exact .nil
    · cases hempty.symm.trans he
  | append_singleton calls call ih =>
    rw [List.pairwise_append] at hsorted
    have hlast : call.now ≤ now := hnow call (by simp)
    have hinit := ih hsorted.1 (hP hcalls) fun c hc => hsorted.2.2 c hc call List.mem_cons_self
    rw [log_snoc, final_snoc, List.filter_append]
    cases htest : test ((final limits config calls).serve limits config call).1 with
    | true =>
      rw [List.filter_cons_of_pos htest]
      exact (huse hcalls htest hinit).mono hlast
    | false =>
      rw [List.filter_cons_of_neg (by simp [htest]), hskip htest]
      exact (List.append_nil (List.filter test _)).symm ▸ hinit.mono hlast

/-- The log of an address is that of its window, all along a run. -/
theorem traffic_run {calls : List RateCall} (hsorted : calls.Pairwise (·.now ≤ ·.now))
    (hmoderate : Moderate limits calls) (ip : IpAddr) {now : ℕ}
    (hnow : ∀ call ∈ calls, call.now ≤ now) :
    Traffic limits ((log limits config calls).filter (traffic ip))
      ((final limits config calls).windows.lookup ip) now := by
  refine tracked_run Moderate.of_append (fun s => s.windows.lookup ip) rfl ?_ ?_ hsorted
    hmoderate hnow
  · intro s call htest
    by_cases hip : call.ip = ip
    · have hrequest : call.request = .attempt := by
        simpa [traffic, serve_call, hip] using htest
      rw [serve_attempt hrequest rfl]
    · exact (agrees_serve_of_ne hip).1
  · intro calls call hmoderate htest hcurrent
    simp only [traffic, serve_call, decide_eq_true_eq] at htest
    obtain ⟨rfl, hkind⟩ := htest
    have htallies := (Traffic.window hcurrent).1
    cases hrequest : call.request with
    | attempt => exact absurd hrequest hkind
    | join =>
      rw [serve_join hrequest rfl, Finmap.lookup_insert]
      exact Traffic.use hcurrent rfl rfl rfl (htallies.join rfl hrequest fun hwidth =>
        hmoderate.joins_lt hrequest hcurrent hwidth)
    | bytes count =>
      rw [serve_bytes hrequest rfl, Finmap.lookup_insert]
      exact Traffic.use hcurrent rfl rfl rfl (htallies.bytes rfl hrequest)

/-! ## Answers -/

section Answers

variable {s : RateState} {call : RateCall}

/-- A join is refused only if the budget of its window is spent, and accepted only if not. -/
theorem joins_answer (h : Traffic limits xs (s.windows.lookup call.ip) call.now)
    (hrequest : call.request = .join) :
    let e := (s.serve limits config call).1
    let spent := total (·.started = e.started) (·.call.joins) xs
    (e.accepted = false → limits.joinAttemptsPerMinute.toNat ≤ spent) ∧
      (0 < limits.rateWindow →
        (IpRateLimiter.window limits s.windows call.ip call.now).joins.toNat + 1 < 2 ^ 32 →
        e.accepted = true → spent + 1 ≤ limits.joinAttemptsPerMinute.toNat) := by
  have htallies := (Traffic.window h).1
  rw [serve_join hrequest rfl]
  generalize IpRateLimiter.window limits s.windows call.ip call.now = w at htallies ⊢
  have hsum : (w.joins + 1).toNat = (w.joins.toNat + 1) % 2 ^ 32 := UInt32.toNat_add _ _
  have hle := htallies.joins_le
  refine ⟨fun hrefused => ?_, fun hwidth hwrap haccepted => ?_⟩
  · have hcount := UInt32.lt_iff_toNat_lt.1 (UInt32.not_le.1 (of_decide_eq_false hrefused))
    dsimp only
    omega
  · have hcount := UInt32.le_iff_toNat_le.1 (of_decide_eq_true haccepted)
    have hge := htallies.le_joins hwidth
    dsimp only
    omega

theorem bytes_answer (h : Traffic limits xs (s.windows.lookup call.ip) call.now)
    {count : UInt64} (hrequest : call.request = .bytes count) :
    let e := (s.serve limits config call).1
    let spent := total (·.started = e.started) (·.call.octets) xs
    (e.accepted = false → limits.bytesPerMinute.toNat < spent + count.toNat) ∧
      (0 < limits.rateWindow → limits.bytesPerMinute.toNat < 2 ^ 64 - 1 → e.accepted = true →
        spent + count.toNat ≤ limits.bytesPerMinute.toNat) := by
  have htallies := (Traffic.window h).1
  have hle := htallies.bytes_le
  rw [serve_bytes hrequest rfl]
  refine ⟨fun hrefused => ?_, fun hwidth hmax haccepted => ?_⟩
  · have hcount := of_decide_eq_false hrefused
    dsimp only
    omega
  · have hcount := of_decide_eq_true haccepted
    have hge := htallies.le_bytes hwidth
    dsimp only
    omega

end Answers

/-! ## Attempts -/

/-- The counter of an entry is the number of the attempts accepted in its window. -/
structure Tried (config : PairingConfig) (xs : List Counted) (entry : RateEntry) : Prop where
  attempts_le : entry.attempts ≤ total (·.started = entry.windowStart) counted xs
  le_attempts : 0 < config.rateWindow →
    total (·.started = entry.windowStart) counted xs ≤ entry.attempts

abbrev Attempts (config : PairingConfig) (xs : List Counted) (entry : Option RateEntry)
    (now : ℕ) : Prop :=
  Tracked RateEntry.windowStart config.rateWindow (fun e : Counted => e.call.now) (·.started)
    (Tried config) xs entry now

variable {state : PairingState}

theorem Attempts.entry (h : Attempts config xs (state.rates.lookup ip) now) :
    Tried config xs (PairingRelay.entry config state ip now) ∧
      (PairingRelay.entry config state ip now).windowStart =
        nextStart config.rateWindow ((state.rates.lookup ip).map (·.windowStart)) now := by
  exact Tracked.current ⟨now, 0⟩ h rfl fun hzero =>
    ⟨Nat.zero_le _, fun hwidth => (hzero hwidth _).le⟩

section Attempts

variable {s : RateState} {call : RateCall}

/-- An attempt is counted if it is accepted. -/
theorem Attempts.use (h : Attempts config xs (s.pairing.rates.lookup call.ip) call.now)
    (hrequest : call.request = .attempt) :
    Attempts config (xs ++ [(s.serve limits config call).1])
      ((s.serve limits config call).2.pairing.rates.lookup call.ip) call.now := by
  obtain ⟨htried, hstarted⟩ := Attempts.entry h
  rw [serve_attempt hrequest rfl, Finmap.lookup_insert]
  generalize PairingRelay.entry config s.pairing call.ip call.now = entry at htried hstarted ⊢
  have hone : call.attempts = 1 := if_pos hrequest
  refine Tracked.snoc h rfl hstarted (by split <;> rfl) ?_
  by_cases hfree : entry.attempts < config.attemptsPerWindow
  · rw [if_pos hfree, decide_eq_true hfree]
    constructor
    · rw [total_snoc, if_pos rfl, counted, if_pos rfl, hone]
      exact Nat.add_le_add_right htried.attempts_le 1
    · intro hwidth
      rw [total_snoc, if_pos rfl, counted, if_pos rfl, hone]
      exact Nat.add_le_add_right (htried.le_attempts hwidth) 1
  · rw [if_neg hfree, decide_eq_false hfree]
    constructor
    · rw [total_snoc]
      exact htried.attempts_le.trans (Nat.le_add_right _ _)
    · intro hwidth
      rw [total_snoc, if_pos rfl, counted, if_neg Bool.false_ne_true]
      exact htried.le_attempts hwidth

theorem attempts_answer (h : Attempts config xs (s.pairing.rates.lookup call.ip) call.now)
    (hrequest : call.request = .attempt) :
    let e := (s.serve limits config call).1
    let spent := total (·.started = e.started) counted xs
    (e.accepted = false → config.attemptsPerWindow ≤ spent) ∧
      (0 < config.rateWindow → e.accepted = true → spent + 1 ≤ config.attemptsPerWindow) := by
  have htried := (Attempts.entry h).1
  rw [serve_attempt hrequest rfl]
  refine ⟨fun hrefused => ?_, fun hwidth haccepted => ?_⟩
  · exact (Nat.not_lt.1 (of_decide_eq_false hrefused)).trans htried.attempts_le
  · exact Nat.lt_of_le_of_lt (htried.le_attempts hwidth) (of_decide_eq_true haccepted)

end Attempts

theorem attempts_run {calls : List RateCall} (hsorted : calls.Pairwise (·.now ≤ ·.now))
    (ip : IpAddr) {now : ℕ} (hnow : ∀ call ∈ calls, call.now ≤ now) :
    Attempts config ((log limits config calls).filter (tries ip))
      ((final limits config calls).pairing.rates.lookup ip) now := by
  refine tracked_run (P := fun _ => True) (fun _ => trivial)
    (fun s => s.pairing.rates.lookup ip) rfl ?_ ?_ hsorted trivial hnow
  · intro s call htest
    by_cases hip : call.ip = ip
    · cases hrequest : call.request with
      | attempt => simp [tries, serve_call, hip, hrequest] at htest
      | join => rw [serve_join hrequest rfl]
      | bytes count => rw [serve_bytes hrequest rfl]
    · exact (agrees_serve_of_ne hip).2
  · intro calls call _ htest hcurrent
    simp only [tries, serve_call, decide_eq_true_eq] at htest
    obtain ⟨rfl, hrequest⟩ := htest
    exact Attempts.use hcurrent hrequest

/-! ## Budgets -/

variable {calls : List RateCall}

def Exhausted (limits : Limits) (config : PairingConfig) (before : List Counted) (e : Counted) :
    Prop :=
  match e.call.request with
  | .join => limits.joinAttemptsPerMinute.toNat ≤
      total (fun x => x.call.ip = e.call.ip ∧ x.started = e.started) (·.call.joins) before
  | .bytes count => limits.bytesPerMinute.toNat <
      total (fun x => x.call.ip = e.call.ip ∧ x.started = e.started) (·.call.octets) before +
        count.toNat
  | .attempt => config.attemptsPerWindow ≤
      total (fun x => x.call.ip = e.call.ip ∧ x.started = e.started) counted before

variable {test : Counted → Bool}

theorem splits_filter_log {P : List Counted → Counted → Prop}
    (h : ∀ before call after, calls = before ++ call :: after →
      test ((final limits config before).serve limits config call).1 = true →
      P ((log limits config before).filter test)
        ((final limits config before).serve limits config call).1) :
    Splits P ((log limits config calls).filter test) := by
  induction calls using List.reverseRecOn with
  | nil => exact .nil
  | append_singleton calls call ih =>
    have hinit := ih fun before c after heq =>
      h before c (after ++ [call]) (by rw [heq]; simp)
    rw [log_snoc, List.filter_append]
    cases htest : test ((final limits config calls).serve limits config call).1 with
    | true =>
      rw [List.filter_cons_of_pos htest, List.filter_nil]
      exact hinit.snoc (h calls call [] rfl htest)
    | false =>
      rw [List.filter_cons_of_neg (by simp [htest]), List.filter_nil, List.append_nil]
      exact hinit

section Sorted

variable (config) (hsorted : calls.Pairwise (·.now ≤ ·.now)) (hmoderate : Moderate limits calls)

include hsorted hmoderate

/-- What is known when a call is made. -/
theorem state_at {before after : List RateCall} {call : RateCall}
    (heq : calls = before ++ call :: after) :
    Moderate limits (before ++ [call]) ∧
      Traffic limits ((log limits config before).filter (traffic call.ip))
        ((final limits config before).windows.lookup call.ip) call.now ∧
      Attempts config ((log limits config before).filter (tries call.ip))
        ((final limits config before).pairing.rates.lookup call.ip) call.now := by
  have hsplit : calls = (before ++ [call]) ++ after := by rw [heq]; simp
  have hmoderate' : Moderate limits (before ++ [call]) := (hsplit ▸ hmoderate).of_append
  rw [heq, List.pairwise_append] at hsorted
  have hnow : ∀ c ∈ before, c.now ≤ call.now :=
    fun c hc => hsorted.2.2 c hc call List.mem_cons_self
  exact ⟨hmoderate', traffic_run hsorted.1 hmoderate'.of_append call.ip hnow,
    attempts_run hsorted.1 call.ip hnow⟩

theorem refused_exhausted :
    Splits (fun before e => e.accepted = false → Exhausted limits config before e)
      (log limits config calls) := by
  have hall : ∀ xs : List Counted, xs.filter (fun _ => true) = xs := List.filter_true
  rw [← hall (log limits config calls)]
  refine splits_filter_log fun before call after heq _ hrefused => ?_
  obtain ⟨-, htraffic, hattempts⟩ := state_at config hsorted hmoderate heq
  rw [hall]
  have hown : ∀ {test : Counted → Bool} {started : ℕ} {weight : Counted → ℕ},
      (∀ e, test e = true → e.call.ip = call.ip) →
      total (·.started = started) weight ((log limits config before).filter test) ≤
        total (fun x => x.call.ip = call.ip ∧ x.started = started) weight
          (log limits config before) := by
    intro test started weight hip
    refine le_trans (total_mono fun x hx hstarted => ⟨?_, le_refl _⟩) (total_filter_le _ _)
    exact ⟨hip x (List.mem_filter.1 hx).2, hstarted⟩
  have htraffics : ∀ e, traffic call.ip e = true → e.call.ip = call.ip :=
    fun e he => (of_decide_eq_true he).1
  cases hrequest : call.request with
  | join =>
    simp only [Exhausted, serve_call, hrequest]
    exact ((joins_answer htraffic hrequest).1 hrefused).trans (hown htraffics)
  | bytes count =>
    simp only [Exhausted, serve_call, hrequest]
    exact ((bytes_answer htraffic hrequest).1 hrefused).trans_le
      (Nat.add_le_add_right (hown htraffics) _)
  | attempt =>
    simp only [Exhausted, serve_call, hrequest]
    exact ((attempts_answer hattempts hrequest).1 hrefused).trans
      (hown fun e he => (of_decide_eq_true he).1)

theorem joins_metered (hwidth : 0 < limits.rateWindow) (ip : IpAddr) :
    Metered (fun e : Counted => e.started) (·.call.joins)
      (fun e => e.accepted && decide (e.call.request = .join))
      limits.joinAttemptsPerMinute.toNat ((log limits config calls).filter (traffic ip)) := by
  refine splits_filter_log fun before call after heq htest haccepted => ?_
  obtain ⟨hmoderate', htraffic, -⟩ := state_at config hsorted hmoderate heq
  simp only [traffic, serve_call, decide_eq_true_eq] at htest
  obtain ⟨rfl, -⟩ := htest
  simp only [serve_call, Bool.and_eq_true, decide_eq_true_eq] at haccepted
  have hone : call.joins = 1 := if_pos haccepted.2
  dsimp only
  rw [serve_call, hone]
  exact (joins_answer htraffic haccepted.2).2 hwidth
    (hmoderate'.joins_lt haccepted.2 htraffic hwidth) haccepted.1

theorem bytes_metered (hwidth : 0 < limits.rateWindow)
    (hmax : limits.bytesPerMinute.toNat < 2 ^ 64 - 1) (ip : IpAddr) :
    Metered (fun e : Counted => e.started) (·.call.octets)
      (fun e => e.accepted && decide (e.call.request ≠ .join))
      limits.bytesPerMinute.toNat ((log limits config calls).filter (traffic ip)) := by
  refine splits_filter_log fun before call after heq htest haccepted => ?_
  obtain ⟨-, htraffic, -⟩ := state_at config hsorted hmoderate heq
  simp only [traffic, serve_call, decide_eq_true_eq] at htest
  obtain ⟨rfl, hkind⟩ := htest
  simp only [serve_call, Bool.and_eq_true, decide_eq_true_eq] at haccepted
  cases hrequest : call.request with
  | join => exact absurd hrequest haccepted.2
  | attempt => exact absurd hrequest hkind
  | bytes count =>
    have hcount : call.octets = count.toNat := by rw [RateCall.octets, hrequest]
    dsimp only
    rw [serve_call, hcount]
    exact (bytes_answer htraffic hrequest).2 hwidth hmax haccepted.1

theorem attempts_metered (hwidth : 0 < config.rateWindow) (ip : IpAddr) :
    Metered (fun e : Counted => e.started) counted (·.accepted) config.attemptsPerWindow
      ((log limits config calls).filter (tries ip)) := by
  refine splits_filter_log fun before call after heq htest haccepted => ?_
  obtain ⟨-, -, hattempts⟩ := state_at config hsorted hmoderate heq
  simp only [tries, serve_call, decide_eq_true_eq] at htest
  obtain ⟨rfl, hrequest⟩ := htest
  have hone : counted ((final limits config before).serve limits config call).1 = 1 := by
    rw [counted, if_pos haccepted, serve_call, RateCall.attempts, if_pos hrequest]
  rw [hone]
  exact (attempts_answer hattempts hrequest).2 hwidth haccepted

end Sorted

/-- What an address is granted in an interval: the joins, the octets or the attempts of the
calls that were accepted. -/
def granted (weight : RateCall → ℕ) (ip : IpAddr) (a b : ℕ) (log : List Counted) : ℕ :=
  total (fun e => e.call.ip = ip ∧ a ≤ e.call.now ∧ e.call.now ≤ b)
    (fun e => if e.accepted then weight e.call else 0) log

theorem granted_le {weight : RateCall → ℕ} {weight' : Counted → ℕ} {ip : IpAddr} {a b : ℕ}
    {xs : List Counted} (hweight : ∀ e : Counted, e.accepted = true → weight e.call ≤ weight' e)
    (htest : ∀ e : Counted, e.call.ip = ip → test e = false → weight e.call = 0) :
    granted weight ip a b xs ≤
      total (fun e => a ≤ e.call.now ∧ e.call.now ≤ b) weight' (xs.filter test) := by
  have hfilter : granted weight ip a b (xs.filter test) = granted weight ip a b xs := by
    refine total_filter fun e _ hinside hfails => ?_
    rw [htest e hinside.1 hfails, ite_self]
  rw [← hfilter]
  refine total_mono fun e _ hinside => ⟨hinside.2, ?_⟩
  split
  · exact hweight e ‹_›
  · exact Nat.zero_le _

variable (limits config) in
/-- In an interval shorter than a window an address is granted at most twice its budget, a
call is refused only if the budget of its own window is spent, and the answers are those
that the address would get if it were alone. -/
theorem budgets_kept (hsorted : calls.Pairwise (·.now ≤ ·.now))
    (hmoderate : Moderate limits calls) (ip : IpAddr) :
    (∀ a b, a ≤ b → b < a + limits.rateWindow →
      granted RateCall.joins ip a b (log limits config calls) ≤
          2 * limits.joinAttemptsPerMinute.toNat ∧
        (limits.bytesPerMinute.toNat < 2 ^ 64 - 1 →
          granted RateCall.octets ip a b (log limits config calls) ≤
            2 * limits.bytesPerMinute.toNat)) ∧
    (∀ a b, a ≤ b → b < a + config.rateWindow →
      granted RateCall.attempts ip a b (log limits config calls) ≤
        2 * config.attemptsPerWindow) ∧
    (∀ before e after, log limits config calls = before ++ e :: after → e.accepted = false →
      Exhausted limits config before e) ∧
    (log limits config calls).filter (fun e => e.call.ip = ip) =
      log limits config (calls.filter fun call => call.ip = ip) := by
  have hlast : ∀ call ∈ calls, call.now ≤ (calls.map (·.now)).sum :=
    fun call hcall => List.le_sum_of_mem (List.mem_map_of_mem hcall)
  have htraffic : Traffic limits ((log limits config calls).filter (traffic ip)) _ _ :=
    traffic_run hsorted hmoderate ip hlast
  have hattempts : Attempts config ((log limits config calls).filter (tries ip)) _ _ :=
    attempts_run hsorted ip hlast
  refine ⟨fun a b hle hab => ⟨?_, fun hmax => ?_⟩, fun a b hle hab => ?_,
    refused_exhausted config hsorted hmoderate, (filter_log ip calls).1⟩
  · have hmetered := joins_metered config hsorted hmoderate (by omega) ip
    refine (granted_le ?_ ?_).trans (hmetered.interval_le htraffic.timeline.pairwise hab)
    · intro e haccepted
      by_cases hjoin : e.call.request = .join
      · simp [haccepted, hjoin]
      · simp [RateCall.joins, hjoin]
    · intro e hip hother
      simp only [traffic, hip, true_and, decide_eq_false_iff_not, not_not] at hother
      simp [RateCall.joins, hother]
  · have hmetered := bytes_metered config hsorted hmoderate (by omega) hmax ip
    refine (granted_le ?_ ?_).trans (hmetered.interval_le htraffic.timeline.pairwise hab)
    · intro e haccepted
      by_cases hjoin : e.call.request = .join
      · simp [RateCall.octets, hjoin]
      · simp [haccepted, hjoin]
    · intro e hip hother
      simp only [traffic, hip, true_and, decide_eq_false_iff_not, not_not] at hother
      simp [RateCall.octets, hother]
  · have hmetered := attempts_metered config hsorted hmoderate (by omega) ip
    refine (granted_le ?_ ?_).trans (hmetered.interval_le hattempts.timeline.pairwise hab)
    · intro e haccepted
      simp [counted, haccepted]
    · intro e hip hother
      simp only [tries, hip, true_and, decide_eq_false_iff_not] at hother
      simp [RateCall.attempts, hother]

/-! ## Samples -/

def sampleJoins : List RateCall := List.replicate 6 ⟨0, .unspecified, .join⟩

theorem moderate_of_length {calls : List RateCall} (h : calls.length < 2 ^ 32) :
    Moderate limits calls := by
  intro ip a b _
  have hone : ∀ call : RateCall, call.joins ≤ 1 := by
    intro call
    rw [RateCall.joins]
    split <;> simp
  refine lt_of_le_of_lt ?_ h
  rw [total]
  have hsum : (calls.map fun _ => 1).sum = calls.length := by simp
  rw [← hsum]
  refine List.sum_le_sum fun call _ => ?_
  split
  · exact hone call
  · exact Nat.zero_le _

/-- Of six joins at once five are granted, and for the last one the budget is spent. -/
theorem budgets_kept_sample :
    granted RateCall.joins .unspecified 0 0 (log {} {} sampleJoins) ≤ 2 * 5 ∧
      ∀ before e after, log {} {} sampleJoins = before ++ e :: after → e.accepted = false →
        Exhausted {} {} before e := by
  have hkept := budgets_kept {} {} (show sampleJoins.Pairwise (·.now ≤ ·.now) by decide)
    (moderate_of_length (by decide)) .unspecified
  exact ⟨(hkept.1 0 0 (le_refl _) (by decide)).1, hkept.2.2.1⟩

def unlimited : Limits := { bytesPerMinute := 18446744073709551615 }

def sampleOctets : List RateCall := List.replicate 3 ⟨0, .unspecified, .bytes 18446744073709551615⟩

/-- Three times the budget is granted at once. -/
theorem octets_unlimited :
    sampleOctets.Pairwise (·.now ≤ ·.now) ∧ Moderate unlimited sampleOctets ∧
      0 < 0 + unlimited.rateWindow ∧
      2 * unlimited.bytesPerMinute.toNat <
        granted RateCall.octets .unspecified 0 0 (log unlimited {} sampleOctets) := by
  refine ⟨by decide, moderate_of_length (by decide), by decide, ?_⟩
  decide +kernel

end RateState

end ClipSync
