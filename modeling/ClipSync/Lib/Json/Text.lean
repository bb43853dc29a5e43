import ClipSync.Lib.Hex
import Mathlib.Data.Nat.Digits.Defs
import Mathlib.Data.Nat.Digits.Lemmas

/-!
# JSON values as text

`Value` is the abstract syntax of JSON. A number without fraction and exponent
is an integer; any other number is kept as the text it was written with.
`print` writes a value in one of two layouts, with nothing between the tokens or
one member a line with a two-space indent; strings are escaped as little as the
grammar allows. `parse` reads any well-formed text back, skipping white space
and resolving every escape, and refuses the rest. A plain text is quoted as it
stands, so that its literal takes two octets more than the text.
-/

namespace Lib.Json

/-- A JSON value. -/
inductive Value where
  | null
  | bool (b : Bool)
  | int (n : ℤ)
  | real (text : String)
  | str (s : String)
  | arr (items : List Value)
  | obj (members : List (String × Value))

/-- How the tokens of a value are laid out. -/
inductive Layout where
  | compact
  | pretty

/-! ## Printing -/

/-- The decimal digits of a number. -/
def decimal (n : ℕ) : List Char :=
  if n = 0 then ['0'] else ((Nat.digits 10 n).map Nat.digitChar).reverse

def printInt : ℤ → List Char
  | .ofNat n => decimal n
  | .negSucc n => '-' :: decimal (n + 1)

/-- A character inside a string literal. Only the quotation mark, the reverse
solidus and the control characters are escaped. -/
def escape (c : Char) : List Char :=
  if c = '"' then ['\\', '"']
  else if c = '\\' then ['\\', '\\']
  else if c = '\x08' then ['\\', 'b']
  else if c = '\t' then ['\\', 't']
  else if c = '\n' then ['\\', 'n']
  else if c = '\x0c' then ['\\', 'f']
  else if c = '\r' then ['\\', 'r']
  else if c.toNat < 32 then
    ['\\', 'u', '0', '0', Nat.digitChar (c.toNat / 16), Nat.digitChar (c.toNat % 16)]
  else [c]

/-- A string literal. -/
def quote (s : String) : List Char := '"' :: (s.toList.flatMap escape ++ ['"'])

/-- What separates two members at nesting depth `depth`. -/
def newline : Layout → ℕ → List Char
  | .compact, _ => []
  | .pretty, depth => '\n' :: List.replicate (2 * depth) ' '

def colon : Layout → List Char
  | .compact => [':']
  | .pretty => [':', ' ']

mutual

def print (layout : Layout) (depth : ℕ) : Value → List Char
  | .null => ['n', 'u', 'l', 'l']
  | .bool true => ['t', 'r', 'u', 'e']
  | .bool false => ['f', 'a', 'l', 's', 'e']
  | .int n => printInt n
  | .real text => text.toList
  | .str s => quote s
  | .arr [] => ['[', ']']
  | .arr (v :: vs) =>
    '[' :: (newline layout (depth + 1) ++ print layout (depth + 1) v ++
      printItems layout (depth + 1) vs ++ newline layout depth ++ [']'])
  | .obj [] => ['{', '}']
  | .obj ((key, v) :: ms) =>
    '{' :: (newline layout (depth + 1) ++ quote key ++ colon layout ++
      print layout (depth + 1) v ++ printMembers layout (depth + 1) ms ++
        newline layout depth ++ ['}'])
termination_by structural v => v

def printItems (layout : Layout) (depth : ℕ) : List Value → List Char
  | [] => []
  | v :: vs =>
    ',' :: (newline layout depth ++ print layout depth v ++ printItems layout depth vs)
termination_by structural vs => vs

def printMembers (layout : Layout) (depth : ℕ) : List (String × Value) → List Char
  | [] => []
  | (key, v) :: ms =>
    ',' :: (newline layout depth ++ quote key ++ colon layout ++ print layout depth v ++
      printMembers layout depth ms)
termination_by structural ms => ms

end

/-! ## Parsing -/

def isSpace (c : Char) : Bool := c = ' ' || c = '\n' || c = '\t' || c = '\r'

def skipSpace (cs : List Char) : List Char := cs.dropWhile isSpace

def digitValue (c : Char) : ℕ := c.toNat - 48

def natOfDigits (ds : List Char) : ℕ := ds.foldl (fun n d => 10 * n + digitValue d) 0

/-- Four hexadecimal digits, as in a `\u` escape. -/
def hexFour : List Char → Option (ℕ × List Char)
  | a :: b :: c :: d :: rest => do
    let w ← Hex.value a
    let x ← Hex.value b
    let y ← Hex.value c
    let z ← Hex.value d
    some (((w * 16 + x) * 16 + y) * 16 + z, rest)
  | _ => none

/-- What follows a `\u`: a code point outside the surrogates, or a high
surrogate and the escape of the low one that goes with it. -/
def readUnicode (cs : List Char) : Option (Char × List Char) := do
  let (n, rest) ← hexFour cs
  if 0xD800 ≤ n ∧ n < 0xDC00 then
    match rest with
    | '\\' :: 'u' :: rest => do
      let (m, rest) ← hexFour rest
      if 0xDC00 ≤ m ∧ m < 0xE000 then
        some (Char.ofNat (0x10000 + (n - 0xD800) * 0x400 + (m - 0xDC00)), rest)
      else none
    | _ => none
  else if 0xDC00 ≤ n ∧ n < 0xE000 then none
  else some (Char.ofNat n, rest)

/-- One character of a string literal, with its escape resolved. -/
def readChar : List Char → Option (Char × List Char)
  | '\\' :: e :: rest =>
    if e = '"' then some ('"', rest)
    else if e = '\\' then some ('\\', rest)
    else if e = '/' then some ('/', rest)
    else if e = 'b' then some ('\x08', rest)
    else if e = 't' then some ('\t', rest)
    else if e = 'n' then some ('\n', rest)
    else if e = 'f' then some ('\x0c', rest)
    else if e = 'r' then some ('\r', rest)
    else if e = 'u' then readUnicode rest
    else none
  | c :: rest => if c = '\\' ∨ c.toNat < 32 then none else some (c, rest)
  | [] => none

/-- The rest of a string literal after its opening quotation mark. -/
def parseString : ℕ → List Char → Option (List Char × List Char)
  | 0, _ => none
  | fuel + 1, cs =>
    match cs with
    | '"' :: rest => some ([], rest)
    | cs => do
      let (c, rest) ← readChar cs
      let (s, rest) ← parseString fuel rest
      some (c :: s, rest)

/-- A fraction part, if there is one. -/
def takeFraction : List Char → Option (List Char × List Char)
  | '.' :: rest =>
    if rest.takeWhile Char.isDigit = [] then none
    else some ('.' :: rest.takeWhile Char.isDigit, rest.dropWhile Char.isDigit)
  | cs => some ([], cs)

def takeSign : List Char → List Char × List Char
  | '+' :: rest => (['+'], rest)
  | '-' :: rest => (['-'], rest)
  | cs => ([], cs)

/-- An exponent part, if there is one. -/
def takeExponent : List Char → Option (List Char × List Char)
  | e :: rest =>
    if e = 'e' ∨ e = 'E' then
      let signed := takeSign rest
      if signed.2.takeWhile Char.isDigit = [] then none
      else some (e :: (signed.1 ++ signed.2.takeWhile Char.isDigit),
        signed.2.dropWhile Char.isDigit)
    else some ([], e :: rest)
  | [] => some ([], [])

/-- An unsigned number. The integer part has no leading zero; `-0` is not an
integer. -/
def parseUnsigned (negative : Bool) (cs : List Char) : Option (Value × List Char) := do
  let ds := cs.takeWhile Char.isDigit
  if ds = [] ∨ (ds.head? = some '0' ∧ ds ≠ ['0']) then none
  else
    let (fraction, rest) ← takeFraction (cs.dropWhile Char.isDigit)
    let (exponent, rest) ← takeExponent rest
    if fraction = [] ∧ exponent = [] ∧ ¬(negative ∧ ds = ['0']) then
      if negative then some (.int (-(natOfDigits ds : ℤ)), rest)
      else some (.int (natOfDigits ds), rest)
    else
      let sign := if negative then ['-'] else []
      some (.real (String.ofList (sign ++ ds ++ fraction ++ exponent)), rest)

def parseNumber : List Char → Option (Value × List Char)
  | '-' :: rest => parseUnsigned true rest
  | cs => parseUnsigned false cs

/-- The key of an object member with its colon. -/
def parseKey (cs : List Char) : Option (String × List Char) :=
  match skipSpace cs with
  | '"' :: rest => do
    let (key, rest) ← parseString (rest.length + 1) rest
    match skipSpace rest with
    | ':' :: rest => some (String.ofList key, rest)
    | _ => none
  | _ => none

mutual

def parseValue : ℕ → List Char → Option (Value × List Char)
  | 0, _ => none
  | fuel + 1, cs =>
    match skipSpace cs with
    | 'n' :: 'u' :: 'l' :: 'l' :: rest => some (.null, rest)
    | 't' :: 'r' :: 'u' :: 'e' :: rest => some (.bool true, rest)
    | 'f' :: 'a' :: 'l' :: 's' :: 'e' :: rest => some (.bool false, rest)
    | '"' :: rest => do
      let (s, rest) ← parseString (rest.length + 1) rest
      some (.str (String.ofList s), rest)
    | '[' :: rest =>
      match skipSpace rest with
      | ']' :: rest => some (.arr [], rest)
      | rest => do
        let (v, rest) ← parseValue fuel rest
        let (vs, rest) ← parseItems fuel rest
        some (.arr (v :: vs), rest)
    | '{' :: rest =>
      match skipSpace rest with
      | '}' :: rest => some (.obj [], rest)
      | rest => do
        let (key, rest) ← parseKey rest
        let (v, rest) ← parseValue fuel rest
        let (ms, rest) ← parseMembers fuel rest
        some (.obj ((key, v) :: ms), rest)
    | cs => parseNumber cs

/-- The rest of an array after one of its items. -/
def parseItems : ℕ → List Char → Option (List Value × List Char)
  | 0, _ => none
  | fuel + 1, cs =>
    match skipSpace cs with
    | ']' :: rest => some ([], rest)
    | ',' :: rest => do
      let (v, rest) ← parseValue fuel rest
      let (vs, rest) ← parseItems fuel rest
      some (v :: vs, rest)
    | _ => none

/-- The rest of an object after one of its members. -/
def parseMembers : ℕ → List Char → Option (List (String × Value) × List Char)
  | 0, _ => none
  | fuel + 1, cs =>
    match skipSpace cs with
    | '}' :: rest => some ([], rest)
    | ',' :: rest => do
      let (key, rest) ← parseKey rest
      let (v, rest) ← parseValue fuel rest
      let (ms, rest) ← parseMembers fuel rest
      some ((key, v) :: ms, rest)
    | _ => none

end

/-- A whole text is one value with white space around it. -/
def parse (cs : List Char) : Option Value :=
  match parseValue (cs.length + 1) cs with
  | some (v, rest) => if skipSpace rest = [] then some v else none
  | none => none

/-- The octets of a value. -/
def toBytes (layout : Layout) (v : Value) : Bytes :=
  utf8Bytes (String.ofList (print layout 0 v))

/-- The value with the given octets. -/
def fromBytes (b : Bytes) : Option Value := (fromUtf8 b).bind fun s => parse s.toList

/-! ## Size -/

theorem escape_plain {c : Char} (h : Plain c) : escape c = [c] := by
  have hcontrol : ∀ d : Char, d.toNat < 32 → c ≠ d := by
    rintro d hd rfl
    exact absurd h.1 (by omega)
  rw [escape, if_neg h.2.2.1, if_neg h.2.2.2, if_neg (hcontrol _ (by decide)),
    if_neg (hcontrol _ (by decide)), if_neg (hcontrol _ (by decide)),
    if_neg (hcontrol _ (by decide)), if_neg (hcontrol _ (by decide)),
    if_neg (Nat.not_lt.2 h.1)]

theorem flatMap_escape {cs : List Char} (h : ∀ c ∈ cs, Plain c) : cs.flatMap escape = cs := by
  induction cs with
  | nil => rfl
  | cons c cs ih =>
    rw [List.flatMap_cons, escape_plain (h c List.mem_cons_self),
      ih fun d hd => h d (List.mem_cons_of_mem c hd)]
    rfl

theorem utf8Length_quote {s : String} (h : ∀ c ∈ s.toList, Plain c) :
    utf8Length (quote s) = s.toList.length + 2 := by
  have hbody : utf8Length s.toList = s.toList.length :=
    utf8Length_of_ascii fun c hc => (h c hc).ascii
  have hmark : Char.utf8Size '"' = 1 := by decide
  rw [quote, utf8Length_cons, utf8Length_append, flatMap_escape h, hbody, utf8Length_cons,
    hmark, utf8Length_nil]
  omega

theorem ascii_of_mem_decimal (n : ℕ) : ∀ c ∈ decimal n, c.toNat < 128 := by
  intro c hc
  rw [decimal] at hc
  split at hc
  · rw [List.mem_singleton.1 hc]
    decide
  · rw [List.mem_reverse, List.mem_map] at hc
    obtain ⟨d, hd, rfl⟩ := hc
    have hdigits : ∀ d < 10, (Nat.digitChar d).toNat < 128 := by decide
    exact hdigits d (Nat.digits_lt_base (by decide) hd)

theorem length_decimal_le {n k : ℕ} (hk : 0 < k) (h : n < 10 ^ k) : (decimal n).length ≤ k := by
  rw [decimal]
  split
  · exact hk
  · rw [List.length_reverse, List.length_map, Nat.digits_length_le_iff (by decide)]
    exact h

theorem utf8Length_printInt (n : ℤ) : utf8Length (printInt n) = (printInt n).length := by
  refine utf8Length_of_ascii ?_
  cases n with
  | ofNat n => exact ascii_of_mem_decimal n
  | negSucc n =>
    intro c hc
    rcases List.mem_cons.1 hc with rfl | hc
    · decide
    · exact ascii_of_mem_decimal (n + 1) c hc

theorem length_printInt_le {n : ℤ} {k : ℕ} (hk : 0 < k) (h : n.natAbs < 10 ^ k) :
    (printInt n).length ≤ k + 1 := by
  cases n with
  | ofNat n =>
    have hdigits : (decimal n).length ≤ k := length_decimal_le hk h
    exact Nat.le_succ_of_le hdigits
  | negSucc n =>
    have hdigits : (decimal (n + 1)).length ≤ k := length_decimal_le hk h
    exact Nat.succ_le_succ hdigits

/-- The octets a layout puts before a member at nesting depth `depth`. -/
def newlineSize : Layout → ℕ → ℕ
  | .compact, _ => 0
  | .pretty, depth => 1 + 2 * depth

def colonSize : Layout → ℕ
  | .compact => 1
  | .pretty => 2

theorem utf8Length_newline (layout : Layout) (depth : ℕ) :
    utf8Length (newline layout depth) = newlineSize layout depth := by
  have hspaces : utf8Length (List.replicate (2 * depth) ' ') = 2 * depth := by
    rw [utf8Length_of_ascii (fun c hc => by rw [List.eq_of_mem_replicate hc]; decide),
      List.length_replicate]
  have hbreak : Char.utf8Size '\n' = 1 := by decide
  cases layout
  · rfl
  · rw [newline, utf8Length_cons, hspaces, hbreak, newlineSize]

theorem utf8Length_colon (layout : Layout) : utf8Length (colon layout) = colonSize layout := by
  cases layout <;> decide

theorem utf8Length_printMembers_cons (layout : Layout) (depth : ℕ) (key : String) (v : Value)
    (ms : List (String × Value)) :
    utf8Length (printMembers layout depth ((key, v) :: ms)) =
      1 + newlineSize layout depth + utf8Length (quote key) + colonSize layout +
        utf8Length (print layout depth v) + utf8Length (printMembers layout depth ms) := by
  have hcomma : Char.utf8Size ',' = 1 := by decide
  simp only [printMembers, utf8Length_cons, utf8Length_append, utf8Length_newline,
    utf8Length_colon, hcomma]
  omega

theorem utf8Length_print_obj_cons (layout : Layout) (depth : ℕ) (key : String) (v : Value)
    (ms : List (String × Value)) :
    utf8Length (print layout depth (.obj ((key, v) :: ms))) =
      2 + newlineSize layout (depth + 1) + utf8Length (quote key) + colonSize layout +
        utf8Length (print layout (depth + 1) v) +
          utf8Length (printMembers layout (depth + 1) ms) + newlineSize layout depth := by
  have hopen : Char.utf8Size '{' = 1 := by decide
  have hclose : Char.utf8Size '}' = 1 := by decide
  simp only [print, utf8Length_cons, utf8Length_append, utf8Length_newline, utf8Length_colon,
    utf8Length_nil, hopen, hclose]
  omega

end Lib.Json
