import ClipSync.Lib.Json.Text

/-!
# Reading back what was printed

`parse` inverts `print` in both layouts, for every value whose numbers are
integers. The layouts differ only in white space, which the parser skips, so
there is one argument for both: a printed value followed by a text that cannot
continue a number is read back exactly, with that text left over.
-/

namespace Lib.Json

/-! ## White space -/

variable {c : Char} {cs : List Char} {d fuel : ℕ}

theorem skipSpace_cons (h : isSpace c = false) (cs : List Char) :
    skipSpace (c :: cs) = c :: cs := by
  simp [skipSpace, h]

theorem skipSpace_append {ws : List Char} (h : ∀ c ∈ ws, isSpace c = true)
    (cs : List Char) : skipSpace (ws ++ cs) = skipSpace cs := by
  induction ws with
  | nil => rfl
  | cons c ws ih =>
    have hc := h c List.mem_cons_self
    have hws := ih fun d hd => h d (List.mem_cons_of_mem c hd)
    rw [List.cons_append, skipSpace, List.dropWhile_cons_of_pos hc]
    exact hws

theorem skipSpace_newline (layout : Layout) (depth : ℕ) (cs : List Char) :
    skipSpace (newline layout depth ++ cs) = skipSpace cs := by
  cases layout with
  | compact => rfl
  | pretty =>
    apply skipSpace_append
    intro c hc
    rcases List.mem_cons.1 hc with rfl | hc
    · rfl
    · rw [List.eq_of_mem_replicate hc]
      rfl

theorem skipSpace_colon (layout : Layout) (cs : List Char) :
    ∃ rest, skipSpace (colon layout ++ cs) = ':' :: rest ∧ skipSpace rest = skipSpace cs := by
  cases layout with
  | compact => exact ⟨cs, rfl, rfl⟩
  | pretty => exact ⟨' ' :: cs, rfl, rfl⟩

/-! ## Numbers -/

theorem digitValue_digitChar (h : d < 10) : digitValue (Nat.digitChar d) = d := by
  revert d
  decide

theorem isDigit_digitChar (h : d < 10) : (Nat.digitChar d).isDigit = true := by
  revert d
  decide

theorem decimal_ne_nil (n : ℕ) : decimal n ≠ [] := by
  unfold decimal
  split_ifs with h
  · simp
  · simpa [Nat.digits_eq_nil_iff_eq_zero] using h

theorem isDigit_of_mem_decimal (n : ℕ) : ∀ c ∈ decimal n, c.isDigit = true := by
  intro c hc
  unfold decimal at hc
  split_ifs at hc with h
  · rw [List.mem_singleton.1 hc]
    rfl
  · obtain ⟨d, hd, rfl⟩ := List.mem_map.1 (List.mem_reverse.1 hc)
    exact isDigit_digitChar (Nat.digits_lt_base (by omega) hd)

theorem natOfDigits_reverse_map {ds : List ℕ} (h : ∀ d ∈ ds, d < 10) :
    natOfDigits (ds.map Nat.digitChar).reverse = Nat.ofDigits 10 ds := by
  induction ds with
  | nil => rfl
  | cons d ds ih =>
    have hd := h d List.mem_cons_self
    have ih := ih fun e he => h e (List.mem_cons_of_mem d he)
    unfold natOfDigits at ih ⊢
    rw [List.map_cons, List.reverse_cons, List.foldl_append, ih, List.foldl_cons,
      List.foldl_nil, digitValue_digitChar hd, Nat.ofDigits_cons]
    exact Nat.add_comm _ _

theorem natOfDigits_decimal (n : ℕ) : natOfDigits (decimal n) = n := by
  unfold decimal
  split_ifs with h
  · subst h
    rfl
  · rw [natOfDigits_reverse_map fun d hd => Nat.digits_lt_base (by omega) hd,
      Nat.ofDigits_digits]

variable {ds : List Char} {n : ℕ}

theorem decimal_head_zero (h : (decimal n).head? = some '0') : decimal n = ['0'] := by
  unfold decimal at h ⊢
  split_ifs at h ⊢ with h0
  · rfl
  · exfalso
    rw [List.head?_reverse, List.getLast?_map] at h
    obtain ⟨d, hd, hzero⟩ := Option.map_eq_some_iff.1 h
    have hlast : d = (Nat.digits 10 n).getLast (Nat.digits_ne_nil_iff_ne_zero.2 h0) := by
      rw [List.getLast?_eq_some_getLast (Nat.digits_ne_nil_iff_ne_zero.2 h0)] at hd
      exact (Option.some.inj hd).symm
    have hpos : d ≠ 0 := hlast ▸ Nat.getLast_digit_ne_zero 10 h0
    have hlt : d < 10 := by
      rw [hlast]
      exact Nat.digits_lt_base (by omega) (List.getLast_mem _)
    have hval := digitValue_digitChar hlt
    rw [hzero] at hval
    exact hpos hval.symm

/-- A text that does not continue a number written before it. -/
def Follow (cs : List Char) : Prop :=
  ∀ c ∈ cs.head?, c.isDigit = false ∧ c ≠ '.' ∧ c ≠ 'e' ∧ c ≠ 'E'

theorem follow_cons (h : c.isDigit = false ∧ c ≠ '.' ∧ c ≠ 'e' ∧ c ≠ 'E') (cs : List Char) :
    Follow (c :: cs) := by
  intro d hd
  obtain rfl := Option.some.inj hd
  exact h

theorem takeWhile_isDigit_append (h : ∀ c ∈ ds, c.isDigit = true) (hcs : Follow cs) :
    (ds ++ cs).takeWhile Char.isDigit = ds := by
  rw [List.takeWhile_append_of_pos h]
  cases cs with
  | nil => simp
  | cons c cs => simp [(hcs c rfl).1]

theorem dropWhile_isDigit_append (h : ∀ c ∈ ds, c.isDigit = true) (hcs : Follow cs) :
    (ds ++ cs).dropWhile Char.isDigit = cs := by
  rw [List.dropWhile_append_of_pos h]
  cases cs with
  | nil => rfl
  | cons c cs => simp [(hcs c rfl).1]

theorem takeFraction_follow (h : Follow cs) : takeFraction cs = some ([], cs) := by
  cases cs with
  | nil => rfl
  | cons c cs =>
    have hdot := (h c rfl).2.1
    unfold takeFraction
    split
    · next heq => exact absurd (List.cons.inj heq).1 hdot
    · rfl

theorem takeExponent_follow (h : Follow cs) : takeExponent cs = some ([], cs) := by
  cases cs with
  | nil => rfl
  | cons c cs =>
    have hexp := (h c rfl).2.2
    have hnot : ¬(c = 'e' ∨ c = 'E') := by
      rintro (he | he)
      · exact hexp.1 he
      · exact hexp.2 he
    simp [takeExponent, hnot]

theorem parseUnsigned_decimal (negative : Bool) (hn : negative = true → n ≠ 0) (h : Follow cs) :
    parseUnsigned negative (decimal n ++ cs) =
      some (.int (if negative then -(n : ℤ) else n), cs) := by
  have htake := takeWhile_isDigit_append (isDigit_of_mem_decimal n) h
  have hdrop := dropWhile_isDigit_append (isDigit_of_mem_decimal n) h
  have hlead : ¬(decimal n = [] ∨ ((decimal n).head? = some '0' ∧ decimal n ≠ ['0'])) := by
    rintro (hnil | ⟨hhead, hne⟩)
    · exact decimal_ne_nil n hnil
    · exact hne (decimal_head_zero hhead)
  have hzero : ¬(negative = true ∧ decimal n = ['0']) := by
    rintro ⟨hneg, hdec⟩
    apply hn hneg
    rw [← natOfDigits_decimal n, hdec]
    rfl
  simp only [parseUnsigned, htake, hdrop, hlead, if_false, takeFraction_follow h,
    takeExponent_follow h, Option.bind_eq_bind, Option.bind_some, natOfDigits_decimal]
  cases negative with
  | false => simp
  | true =>
    have hdec : decimal n ≠ ['0'] := fun hd => hzero ⟨rfl, hd⟩
    simp [hdec]

theorem decimal_head_isDigit (n : ℕ) (cs : List Char) :
    ∃ c ds, decimal n ++ cs = c :: ds ∧ c.isDigit = true := by
  cases hdec : decimal n with
  | nil => exact absurd hdec (decimal_ne_nil n)
  | cons c ds =>
    refine ⟨c, ds ++ cs, rfl, isDigit_of_mem_decimal n c ?_⟩
    rw [hdec]
    exact List.mem_cons_self

theorem parseNumber_of_digit (h : c.isDigit = true) (cs : List Char) :
    parseNumber (c :: cs) = parseUnsigned false (c :: cs) := by
  unfold parseNumber
  split
  · next heq =>
      rw [(List.cons.inj heq).1] at h
      exact absurd h (by decide)
  · rfl

theorem parseNumber_printInt (n : ℤ) (h : Follow cs) :
    parseNumber (printInt n ++ cs) = some (.int n, cs) := by
  cases n with
  | ofNat n =>
    obtain ⟨c, ds, heq, hc⟩ := decimal_head_isDigit n cs
    have hparse := parseUnsigned_decimal false (n := n) (by simp) h
    rw [printInt, heq, parseNumber_of_digit hc, ← heq, hparse]
    rfl
  | negSucc n =>
    have hparse := parseUnsigned_decimal true (n := n + 1) (by simp) h
    rw [printInt, List.cons_append, parseNumber, hparse]
    rfl

/-! ## Strings -/

theorem hexValue_digitChar (h : d < 16) : Hex.value (Nat.digitChar d) = some d := by
  revert d
  decide

theorem readUnicode_control (h : c.toNat < 32) (cs : List Char) :
    readUnicode ('0' :: '0' :: Nat.digitChar (c.toNat / 16) ::
      Nat.digitChar (c.toNat % 16) :: cs) = some (c, cs) := by
  have h1 := hexValue_digitChar (show c.toNat / 16 < 16 by omega)
  have h2 := hexValue_digitChar (show c.toNat % 16 < 16 by omega)
  have h0 : Hex.value '0' = some 0 := by decide
  have hn : ((0 * 16 + 0) * 16 + c.toNat / 16) * 16 + c.toNat % 16 = c.toNat := by omega
  have hhigh : ¬(0xD800 ≤ c.toNat ∧ c.toNat < 0xDC00) := by omega
  have hlow : ¬(0xDC00 ≤ c.toNat ∧ c.toNat < 0xE000) := by omega
  simp only [readUnicode, hexFour, h0, h1, h2, hn, Option.bind_eq_bind, Option.bind_some,
    hhigh, hlow, if_false, Char.ofNat_toNat]

/-- An escaped character is read back, and never looks like the end of the
string literal. -/
theorem readChar_escape (c : Char) (cs : List Char) :
    readChar (escape c ++ cs) = some (c, cs) ∧
      (escape c ++ cs).head? ≠ some '"' ∧ 0 < (escape c).length := by
  unfold escape
  split_ifs with h1 h2 h3 h4 h5 h6 h7 h8
  iterate 7
    · subst c
      exact ⟨rfl, by simp, by simp⟩
  · refine ⟨?_, by simp, by simp⟩
    simpa [readChar] using readUnicode_control h8 cs
  · refine ⟨?_, by simpa using h1, by simp⟩
    unfold readChar
    split
    · next heq => exact absurd (List.cons.inj heq).1 h2
    · next c' rest hne heq =>
        obtain ⟨rfl, rfl⟩ := List.cons.inj heq
        simp [h2, h8]
    · next heq => cases heq

theorem parseString_succ (h : cs.head? ≠ some '"') :
    parseString (fuel + 1) cs = (do
      let (c, rest) ← readChar cs
      let (s, rest) ← parseString fuel rest
      some (c :: s, rest)) := by
  rw [parseString]
  rintro rest rfl
  exact h rfl

theorem parseString_escape (s : List Char) (cs : List Char) (h : (s.flatMap escape).length < fuel) :
    parseString fuel (s.flatMap escape ++ '"' :: cs) = some (s, cs) := by
  induction s generalizing fuel with
  | nil =>
    cases fuel with
    | zero => cases h
    | succ fuel => rfl
  | cons c s ih =>
    obtain ⟨hread, hhead, hpos⟩ := readChar_escape c (s.flatMap escape ++ '"' :: cs)
    rw [List.flatMap_cons, List.length_append] at h
    cases fuel with
    | zero => cases h
    | succ fuel =>
      rw [List.flatMap_cons, List.append_assoc, parseString_succ hhead, hread]
      simp only [Option.bind_eq_bind, Option.bind_some]
      rw [ih (by omega)]
      rfl

theorem parseString_quote (s : String) (cs : List Char)
    (h : (s.toList.flatMap escape ++ '"' :: cs).length < fuel) :
    parseString fuel (s.toList.flatMap escape ++ '"' :: cs) = some (s.toList, cs) := by
  apply parseString_escape
  rw [List.length_append] at h
  omega

theorem parseKey_quote (layout : Layout) (key : String) (cs : List Char) :
    ∃ rest, parseKey (quote key ++ (colon layout ++ cs)) = some (key, rest) ∧
      skipSpace rest = skipSpace cs := by
  obtain ⟨rest, hcolon, hskip⟩ := skipSpace_colon layout cs
  refine ⟨rest, ?_, hskip⟩
  have hquote : quote key ++ (colon layout ++ cs) =
      '"' :: (key.toList.flatMap escape ++ '"' :: (colon layout ++ cs)) := by
    simp [quote]
  rw [parseKey, hquote, skipSpace_cons (by rfl)]
  simp only [parseString_quote key _ (Nat.lt_succ_self _), Option.bind_eq_bind,
    Option.bind_some, hcolon, String.ofList_toList]

theorem parseKey_newline (layout : Layout) (depth : ℕ) (cs : List Char) :
    parseKey (newline layout depth ++ cs) = parseKey cs := by
  rw [parseKey, parseKey, skipSpace_newline]

/-! ## Values -/

mutual

/-- Every number in the value is an integer. -/
@[simp]
def Integral : Value → Prop
  | .real _ => False
  | .arr vs => IntegralItems vs
  | .obj ms => IntegralMembers ms
  | _ => True
termination_by structural v => v

@[simp]
def IntegralItems : List Value → Prop
  | [] => True
  | v :: vs => Integral v ∧ IntegralItems vs
termination_by structural vs => vs

@[simp]
def IntegralMembers : List (String × Value) → Prop
  | [] => True
  | (_, v) :: ms => Integral v ∧ IntegralMembers ms
termination_by structural ms => ms

end

/-- The first character of a printed value: not white space, and neither closing
bracket. -/
theorem print_head (layout : Layout) (depth : ℕ) {v : Value} (h : Integral v) (cs : List Char) :
    ∃ c rest, print layout depth v ++ cs = c :: rest ∧ isSpace c = false ∧
      c ≠ ']' ∧ c ≠ '}' := by
  have hdigit : ∀ c : Char, c.isDigit = true → isSpace c = false ∧ c ≠ ']' ∧ c ≠ '}' := by
    intro c hc
    have hrange : 48 ≤ c.toNat ∧ c.toNat ≤ 57 := by
      simpa [Char.isDigit, Char.le_def, UInt32.le_iff_toNat_le] using hc
    have hne : ∀ d : Char, d.toNat < 48 ∨ 57 < d.toNat → c ≠ d := by
      rintro d hd rfl
      omega
    refine ⟨?_, hne _ (by decide), hne _ (by decide)⟩
    simp [isSpace, hne ' ' (by decide), hne '\n' (by decide), hne '\t' (by decide),
      hne '\r' (by decide)]
  match v, h with
  | .int (.ofNat n), _ =>
    obtain ⟨c, ds, heq, hc⟩ := decimal_head_isDigit n cs
    exact ⟨c, ds, heq, hdigit c hc⟩
  | .null, _ | .bool true, _ | .bool false, _ | .int (.negSucc _), _ | .str _, _ | .arr [], _
  | .arr (_ :: _), _ | .obj [], _ | .obj ((_, _) :: _), _ =>
    exact ⟨_, _, rfl, by decide, by decide, by decide⟩

theorem follow_newline (layout : Layout) (depth : ℕ) {c : Char}
    (h : c.isDigit = false ∧ c ≠ '.' ∧ c ≠ 'e' ∧ c ≠ 'E') (cs : List Char) :
    Follow (newline layout depth ++ c :: cs) := by
  cases layout with
  | compact => exact follow_cons h cs
  | pretty => exact follow_cons (by decide) _

theorem follow_printItems (layout : Layout) (depth depth' : ℕ) (vs : List Value) (cs : List Char) :
    Follow (printItems layout depth vs ++ (newline layout depth' ++ ']' :: cs)) := by
  cases vs with
  | nil => exact follow_newline layout depth' (by decide) cs
  | cons v vs => exact follow_cons (by decide) _

theorem follow_printMembers (layout : Layout) (depth depth' : ℕ)
    (ms : List (String × Value)) (cs : List Char) :
    Follow (printMembers layout depth ms ++ (newline layout depth' ++ '}' :: cs)) := by
  cases ms with
  | nil => exact follow_newline layout depth' (by decide) cs
  | cons m ms => exact follow_cons (by decide) _

variable {cs rest : List Char} {fuel : ℕ}

theorem parseValue_skipSpace {ds : List Char} (h : skipSpace cs = skipSpace ds) (fuel : ℕ) :
    parseValue fuel cs = parseValue fuel ds := by
  cases fuel with
  | zero => rfl
  | succ fuel => rw [parseValue, parseValue, h]

theorem parseValue_number {c : Char} (hcs : skipSpace cs = c :: rest)
    (h : c.isDigit = true ∨ c = '-') : parseValue (fuel + 1) cs = parseNumber (c :: rest) := by
  have hne : ∀ d : Char, d.isDigit = false → d ≠ '-' → c ≠ d := by
    rintro d hd hminus rfl
    rcases h with h | h
    · rw [hd] at h
      cases h
    · exact hminus h
  rw [parseValue, hcs]
  split
  case h_7 => rfl
  all_goals
    next heq => exact absurd (List.cons.inj heq).1 (hne _ (by decide) (by decide))

theorem parseValue_printInt (n : ℤ) (h : Follow cs) :
    parseValue (fuel + 1) (printInt n ++ cs) = some (.int n, cs) := by
  obtain ⟨c, rest, heq, hc⟩ : ∃ c rest, printInt n ++ cs = c :: rest ∧
      (c.isDigit = true ∨ c = '-') := by
    cases n with
    | ofNat n =>
      obtain ⟨c, ds, heq, hc⟩ := decimal_head_isDigit n cs
      exact ⟨c, ds, heq, .inl hc⟩
    | negSucc n => exact ⟨'-', _, rfl, .inr rfl⟩
  have hspace : isSpace c = false := by
    obtain ⟨c', rest', heq', hs, -⟩ := print_head .compact 0 (v := .int n) trivial cs
    rw [print, heq] at heq'
    rw [(List.cons.inj heq').1]
    exact hs
  rw [heq, parseValue_number (skipSpace_cons hspace rest) hc, ← heq,
    parseNumber_printInt n h]

theorem parseValue_array {fuel : ℕ} {cs rest : List Char} (h : skipSpace cs = rest)
    (hhead : rest.head? ≠ some ']') :
    parseValue (fuel + 1) ('[' :: cs) = (do
      let (v, rest) ← parseValue fuel rest
      let (vs, rest) ← parseItems fuel rest
      some (.arr (v :: vs), rest)) := by
  rw [parseValue, skipSpace_cons (by rfl)]
  simp only [h]
  cases rest with
  | nil => rfl
  | cons c rest =>
    split
    · next heq =>
        exact absurd (congrArg some (List.cons.inj heq).1) hhead
    · rfl

theorem parseValue_object {fuel : ℕ} {cs rest : List Char} (h : skipSpace cs = rest)
    (hhead : rest.head? ≠ some '}') :
    parseValue (fuel + 1) ('{' :: cs) = (do
      let (key, rest) ← parseKey rest
      let (v, rest) ← parseValue fuel rest
      let (ms, rest) ← parseMembers fuel rest
      some (.obj ((key, v) :: ms), rest)) := by
  rw [parseValue, skipSpace_cons (by rfl)]
  simp only [h]
  cases rest with
  | nil => rfl
  | cons c rest =>
    split
    · next heq =>
        exact absurd (congrArg some (List.cons.inj heq).1) hhead
    · rfl

mutual

/-- A printed value is read back, and what follows it is left over. -/
theorem parseValue_print (layout : Layout) : ∀ (depth : ℕ) (v : Value) (fuel : ℕ)
    (cs : List Char), Integral v → Follow cs → (print layout depth v).length < fuel →
      parseValue fuel (print layout depth v ++ cs) = some (v, cs)
  | _, _, 0, _, _, _, h => by cases h
  | _, .null, _ + 1, _, _, _, _ | _, .bool true, _ + 1, _, _, _, _
  | _, .bool false, _ + 1, _, _, _, _ | _, .arr [], _ + 1, _, _, _, _
  | _, .obj [], _ + 1, _, _, _, _ => rfl
  | _, .int n, fuel + 1, cs, _, hcs, _ => by
    rw [print]
    exact parseValue_printInt n hcs
  | _, .str s, fuel + 1, cs, _, _, _ => by
    have hquote : quote s ++ cs = '"' :: (s.toList.flatMap escape ++ '"' :: cs) := by
      simp [quote]
    rw [print, hquote, parseValue, skipSpace_cons (by rfl)]
    simp only [parseString_quote s cs (Nat.lt_succ_self _), Option.bind_eq_bind,
      Option.bind_some, String.ofList_toList]
  | depth, .arr (v :: vs), fuel + 1, cs, hv, _, h => by
    simp only [Integral, IntegralItems] at hv
    simp only [print, List.length_cons, List.length_append, List.length_nil] at h
    set tail := printItems layout (depth + 1) vs ++ (newline layout depth ++ ']' :: cs)
      with htail
    have hitem := parseValue_print layout (depth + 1) v fuel tail hv.1
      (follow_printItems layout (depth + 1) depth vs cs) (by omega)
    have hitems := parseItems_print layout (depth + 1) depth vs fuel cs hv.2 (by omega)
    rw [← htail] at hitems
    obtain ⟨c, rest, heq, hspace, hbracket, -⟩ :=
      print_head layout (depth + 1) hv.1 tail
    have hskip : skipSpace (newline layout (depth + 1) ++
        (print layout (depth + 1) v ++ tail)) = print layout (depth + 1) v ++ tail := by
      rw [skipSpace_newline, heq, skipSpace_cons hspace]
    have hprint : print layout depth (.arr (v :: vs)) ++ cs =
        '[' :: (newline layout (depth + 1) ++ (print layout (depth + 1) v ++ tail)) := by
      simp [print, htail]
    rw [hprint, parseValue_array hskip (by rw [heq]; simpa using hbracket), hitem]
    simp only [Option.bind_eq_bind, Option.bind_some, hitems]
  | depth, .obj ((key, v) :: ms), fuel + 1, cs, hv, _, h => by
    simp only [Integral, IntegralMembers] at hv
    simp only [print, List.length_cons, List.length_append, List.length_nil] at h
    set tail := printMembers layout (depth + 1) ms ++ (newline layout depth ++ '}' :: cs)
      with htail
    have hvalue := parseValue_print layout (depth + 1) v fuel tail hv.1
      (follow_printMembers layout (depth + 1) depth ms cs) (by omega)
    have hmembers := parseMembers_print layout (depth + 1) depth ms fuel cs hv.2 (by omega)
    rw [← htail] at hmembers
    obtain ⟨rest, hkey, hrest⟩ :=
      parseKey_quote layout key (print layout (depth + 1) v ++ tail)
    have hskip : skipSpace (newline layout (depth + 1) ++
        (quote key ++ (colon layout ++ (print layout (depth + 1) v ++ tail)))) =
          quote key ++ (colon layout ++ (print layout (depth + 1) v ++ tail)) := by
      rw [skipSpace_newline, quote, List.cons_append, skipSpace_cons (by rfl)]
    have hprint : print layout depth (.obj ((key, v) :: ms)) ++ cs =
        '{' :: (newline layout (depth + 1) ++
          (quote key ++ (colon layout ++ (print layout (depth + 1) v ++ tail)))) := by
      simp [print, htail]
    rw [hprint, parseValue_object hskip (by simp [quote]), hkey]
    simp only [Option.bind_eq_bind, Option.bind_some]
    rw [parseValue_skipSpace hrest fuel, hvalue]
    simp only [Option.bind_some, hmembers]

theorem parseItems_print (layout : Layout) : ∀ (depth depth' : ℕ) (vs : List Value)
    (fuel : ℕ) (cs : List Char), IntegralItems vs →
      (printItems layout depth vs).length < fuel →
      parseItems fuel (printItems layout depth vs ++ (newline layout depth' ++ ']' :: cs)) =
        some (vs, cs)
  | _, _, _, 0, _, _, h => by cases h
  | _, depth', [], fuel + 1, cs, _, _ => by
    rw [printItems, List.nil_append, parseItems, skipSpace_newline,
      skipSpace_cons (by rfl)]
    rfl
  | depth, depth', v :: vs, fuel + 1, cs, hv, h => by
    simp only [IntegralItems] at hv
    simp only [printItems, List.length_cons, List.length_append] at h
    set tail := printItems layout depth vs ++ (newline layout depth' ++ ']' :: cs)
      with htail
    have hitem := parseValue_print layout depth v fuel tail hv.1
      (follow_printItems layout depth depth' vs cs) (by omega)
    have hitems := parseItems_print layout depth depth' vs fuel cs hv.2 (by omega)
    rw [← htail] at hitems
    have hprint : printItems layout depth (v :: vs) ++ (newline layout depth' ++ ']' :: cs) =
        ',' :: (newline layout depth ++ (print layout depth v ++ tail)) := by
      simp [printItems, htail]
    rw [hprint, parseItems, skipSpace_cons (by rfl)]
    simp only [parseValue_skipSpace (skipSpace_newline layout depth _) fuel, hitem,
      Option.bind_eq_bind, Option.bind_some, hitems]

theorem parseMembers_print (layout : Layout) : ∀ (depth depth' : ℕ)
    (ms : List (String × Value)) (fuel : ℕ) (cs : List Char), IntegralMembers ms →
      (printMembers layout depth ms).length < fuel →
      parseMembers fuel
          (printMembers layout depth ms ++ (newline layout depth' ++ '}' :: cs)) =
        some (ms, cs)
  | _, _, _, 0, _, _, h => by cases h
  | _, depth', [], fuel + 1, cs, _, _ => by
    rw [printMembers, List.nil_append, parseMembers, skipSpace_newline,
      skipSpace_cons (by rfl)]
    rfl
  | depth, depth', (key, v) :: ms, fuel + 1, cs, hv, h => by
    simp only [IntegralMembers] at hv
    simp only [printMembers, List.length_cons, List.length_append] at h
    set tail := printMembers layout depth ms ++ (newline layout depth' ++ '}' :: cs)
      with htail
    have hvalue := parseValue_print layout depth v fuel tail hv.1
      (follow_printMembers layout depth depth' ms cs) (by omega)
    have hmembers := parseMembers_print layout depth depth' ms fuel cs hv.2 (by omega)
    rw [← htail] at hmembers
    obtain ⟨rest, hkey, hrest⟩ := parseKey_quote layout key (print layout depth v ++ tail)
    have hprint : printMembers layout depth ((key, v) :: ms) ++
        (newline layout depth' ++ '}' :: cs) =
          ',' :: (newline layout depth ++
            (quote key ++ (colon layout ++ (print layout depth v ++ tail)))) := by
      simp [printMembers, htail]
    rw [hprint, parseMembers, skipSpace_cons (by rfl)]
    simp only [parseKey_newline, hkey, Option.bind_eq_bind, Option.bind_some,
      parseValue_skipSpace hrest fuel, hvalue, hmembers]

end

/-- Reading a printed text gives the value back, in either layout and with any
white space after it. -/
theorem parse_print (layout : Layout) {v : Value} (h : Integral v) {ws : List Char}
    (hws : ∀ c ∈ ws, isSpace c = true) : parse (print layout 0 v ++ ws) = some v := by
  have hfollow : Follow ws := by
    intro c hc
    have hspace := hws c (List.mem_of_mem_head? hc)
    simp only [isSpace, Bool.or_eq_true, decide_eq_true_eq] at hspace
    rcases hspace with ((rfl | rfl) | rfl) | rfl <;> decide
  have hskip : skipSpace ws = [] := by
    simpa [skipSpace] using skipSpace_append hws []
  rw [parse, parseValue_print layout 0 v _ ws h hfollow (by simp)]
  simp [hskip]

/-! ## Lines -/

theorem newline_notMem_quote (s : String) : '\n' ∉ quote s := by
  have hescape : ∀ c, '\n' ∉ escape c := by
    intro c hmem
    unfold escape at hmem
    split_ifs at hmem with h₁ h₂ h₃ h₄ h₅ h₆ h₇ h₈
    all_goals try (simp at hmem; done)
    exact h₅ (List.mem_singleton.1 hmem).symm
  simpa [quote] using fun c _ => hescape c

theorem newline_notMem_printInt (n : ℤ) : '\n' ∉ printInt n := by
  have hdecimal : ∀ m, '\n' ∉ decimal m := fun m hmem => by
    simpa using isDigit_of_mem_decimal m _ hmem
  cases n with
  | ofNat n => exact hdecimal n
  | negSucc n => simpa [printInt] using hdecimal (n + 1)

mutual

/-- A compact text is one line. -/
theorem newline_notMem_print : ∀ (depth : ℕ) (v : Value), Integral v →
    '\n' ∉ print .compact depth v
  | _, .null, _ | _, .bool true, _ | _, .bool false, _ | _, .arr [], _ | _, .obj [], _ => by
    simp [print]
  | _, .int n, _ => by simpa [print] using newline_notMem_printInt n
  | _, .str s, _ => by simpa [print] using newline_notMem_quote s
  | depth, .arr (v :: vs), h => by
    simpa [print, newline] using
      ⟨newline_notMem_print (depth + 1) v h.1, newline_notMem_printItems (depth + 1) vs h.2⟩
  | depth, .obj ((key, v) :: ms), h => by
    simpa [print, newline, colon] using
      ⟨newline_notMem_quote key, newline_notMem_print (depth + 1) v h.1,
        newline_notMem_printMembers (depth + 1) ms h.2⟩

theorem newline_notMem_printItems : ∀ (depth : ℕ) (vs : List Value), IntegralItems vs →
    '\n' ∉ printItems .compact depth vs
  | _, [], _ => by simp [printItems]
  | depth, v :: vs, h => by
    simpa [printItems, newline] using
      ⟨newline_notMem_print depth v h.1, newline_notMem_printItems depth vs h.2⟩

theorem newline_notMem_printMembers : ∀ (depth : ℕ) (ms : List (String × Value)),
    IntegralMembers ms → '\n' ∉ printMembers .compact depth ms
  | _, [], _ => by simp [printMembers]
  | depth, (key, v) :: ms, h => by
    simpa [printMembers, newline, colon] using
      ⟨newline_notMem_quote key, newline_notMem_print depth v h.1,
        newline_notMem_printMembers depth ms h.2⟩

end

theorem newline_notMem_toBytes {v : Value} (h : Integral v) :
    (10 : UInt8) ∉ toBytes .compact v := by
  intro hmem
  rw [toBytes, utf8Bytes_ofList] at hmem
  obtain ⟨c, hc, hb⟩ := List.mem_flatMap.1 hmem
  have hcode : c.toNat = 10 := ascii_of_mem_utf8EncodeChar hb (by decide)
  have hnewline : c = '\n' := Char.ext (UInt32.toNat_inj.1 hcode)
  exact newline_notMem_print 0 v h (hnewline ▸ hc)

end Lib.Json
