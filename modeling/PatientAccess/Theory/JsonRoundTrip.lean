/-
# Theory.JsonRoundTrip -- JSON text is read back as what was written

What is written for a point of a string is read back as its units
(`parseUnits_quotePoint`), so a string is, whatever it holds; a numeral is read up to
its end, since no character that may follow it belongs to one (`parseNumeral_append`).
Values, items and members are then read back together, by induction on the fuel
(`allReadBack`), and `parse_stringify` is the whole.
-/
import PatientAccess.Theory.Json

namespace PatientAccess.Theory

set_option autoImplicit false

namespace Json

open Utf16

/-! ## Strings -/

theorem hexDigit_digitChar : ∀ n < 16, hexDigit n.digitChar = some n := by decide

theorem parseUnits_escape (u : UInt16) (s : List Char) :
    parseUnits (escape u ++ s) = prepend [u] (parseUnits s) := by
  have below := u.toNat_lt
  have whole : ((u.toNat / 0x1000 * 16 + u.toNat / 0x100 % 0x10) * 16 + u.toNat / 0x10 % 0x10) * 16 +
      u.toNat % 0x10 = u.toNat := by
    omega
  have digits : hexUnit (u.toNat / 0x1000).digitChar (u.toNat / 0x100 % 0x10).digitChar
      (u.toNat / 0x10 % 0x10).digitChar (u.toNat % 0x10).digitChar = some u := by
    unfold hexUnit
    rw [hexDigit_digitChar _ (by omega), hexDigit_digitChar _ (by omega),
      hexDigit_digitChar _ (by omega), hexDigit_digitChar _ (by omega)]
    simp only [whole, UInt16.ofNat_toNat]
  simp only [escape, List.cons_append, List.nil_append, parseUnits, digits]

/-- A point is read back as its units. -/
theorem parseUnits_quotePoint (p : Point) (s : List Char) :
    parseUnits (quotePoint p ++ s) = prepend p.units (parseUnits s) := by
  cases p with
  | lone u => exact parseUnits_escape u s
  | scalar c =>
      by_cases quoted : c = '"'
      · subst quoted; rfl
      by_cases slash : c = '\\'
      · subst slash; rfl
      by_cases backspace : c = Char.ofNat 8
      · subst backspace; rfl
      by_cases feed : c = Char.ofNat 12
      · subst feed; rfl
      by_cases newline : c = '\n'
      · subst newline; rfl
      by_cases ret : c = '\r'
      · subst ret; rfl
      by_cases tab : c = '\t'
      · subst tab; rfl
      rw [quotePoint, if_neg quoted, if_neg slash, if_neg backspace, if_neg feed, if_neg newline,
        if_neg ret, if_neg tab]
      by_cases control : c.toNat < 0x20
      · have one : ofChar c = [UInt16.ofNat c.toNat] := by
          rw [ofChar, if_pos (by omega)]
        rw [if_pos control, parseUnits_escape, Point.units, one]
      · rw [if_neg control, List.singleton_append, parseUnits, if_neg quoted, if_neg control,
          Point.units]
        · exact fun here _ => slash here
        · exact fun _ _ _ _ _ here _ => slash here
        · exact fun _ _ here _ => slash here

theorem parseUnits_flatMap (ps : List Point) (s : List Char) :
    parseUnits (ps.flatMap quotePoint ++ '"' :: s) = some (ps.flatMap Point.units, s) := by
  induction ps with
  | nil => rfl
  | cons p ps ih =>
      rw [List.flatMap_cons, List.append_assoc, parseUnits_quotePoint, ih]
      rfl

/-- A quoted string is read back, whatever is in it. -/
theorem parseUnits_quote (us : Utf16) (s : List Char) :
    parseUnits ((points us).flatMap quotePoint ++ '"' :: s) = some (us, s) := by
  rw [parseUnits_flatMap, flatMap_points]

/-! ## Numerals -/

theorem isDigits_chars {t : List Char} (digits : isDigits t = true) :
    ∀ c ∈ t, isNumeralChar c = true := by
  intro c h
  simp only [isDigits, Bool.and_eq_true, List.all_eq_true] at digits
  simp [isNumeralChar, digits.2 c h]

theorem isExponent_chars {t : List Char} (exponent : isExponent t = true) :
    ∀ c ∈ t, isNumeralChar c = true := by
  have letter : ∀ {e : Char}, (e == 'e' || e == 'E') = true → isNumeralChar e = true := by
    intro e same
    rw [Bool.or_eq_true, beq_iff_eq, beq_iff_eq] at same
    rcases same with rfl | rfl <;> rfl
  fun_cases isExponent t with
  | case1 => simp
  | case2 e t =>
      simp only [isExponent, Bool.and_eq_true] at exponent
      simp only [List.forall_mem_cons]
      exact ⟨letter exponent.1, rfl, isDigits_chars exponent.2⟩
  | case3 e t =>
      simp only [isExponent, Bool.and_eq_true] at exponent
      simp only [List.forall_mem_cons]
      exact ⟨letter exponent.1, rfl, isDigits_chars exponent.2⟩
  | case4 e t notPlus notMinus =>
      rw [isExponent, Bool.and_eq_true] at exponent
      · simp only [List.forall_mem_cons]
        exact ⟨letter exponent.1, isDigits_chars exponent.2⟩
      · exact notPlus
      · exact notMinus

theorem isFraction_chars {t : List Char} (fraction : isFraction t = true) :
    ∀ c ∈ t, isNumeralChar c = true := by
  fun_cases isFraction t with
  | case1 t =>
      rw [isFraction, Bool.and_eq_true] at fraction
      rw [List.forall_mem_cons, ← List.takeWhile_append_dropWhile (p := Char.isDigit) (l := t),
        List.forall_mem_append]
      exact ⟨rfl, isDigits_chars fraction.1, isExponent_chars fraction.2⟩
  | case2 t other =>
      rw [isFraction] at fraction
      · exact isExponent_chars fraction
      · exact other

theorem isUnsigned_chars {t : List Char} (valid : isUnsigned t = true) :
    ∀ c ∈ t, isNumeralChar c = true := by
  simp only [isUnsigned, Bool.and_eq_true] at valid
  rw [← List.takeWhile_append_dropWhile (p := Char.isDigit) (l := t), List.forall_mem_append]
  exact ⟨isDigits_chars valid.1.1, isFraction_chars valid.2⟩

theorem isUnsigned_ne_nil {t : List Char} (valid : isUnsigned t = true) : t ≠ [] := by
  rintro rfl
  simp [isUnsigned, isDigits] at valid

theorem isNumeral_chars {t : List Char} (valid : isNumeral t = true) :
    t ≠ [] ∧ ∀ c ∈ t, isNumeralChar c = true := by
  fun_cases isNumeral t with
  | case1 t =>
      rw [isNumeral] at valid
      refine ⟨List.cons_ne_nil _ _, ?_⟩
      rw [List.forall_mem_cons]
      exact ⟨rfl, isUnsigned_chars valid⟩
  | case2 t unsigned =>
      rw [isNumeral] at valid
      · exact ⟨isUnsigned_ne_nil valid, isUnsigned_chars valid⟩
      · exact unsigned

/-! ## Values -/

/-- A numeral does not go on into `rest`. -/
def Ends (rest : List Char) : Prop := ∀ c ∈ rest.head?, isNumeralChar c = false

theorem ends_cons {c : Char} (notNumeral : isNumeralChar c = false) (rest : List Char) :
    Ends (c :: rest) := by
  intro d same
  cases same
  exact notNumeral

/-- A character that starts the text of a value. -/
def isLead (c : Char) : Bool := isNumeralChar c || c ∈ ['n', 't', 'f', '"', '[', '{']

theorem isLead_spec {c : Char} (lead : isLead c = true) : isBlank c = false ∧ c ≠ ']' := by
  have blanks : [' ', '\t', '\n', '\r', ']'].any isLead = false := by decide
  have other : c ∉ [' ', '\t', '\n', '\r', ']'] := by
    intro h
    exact absurd lead (List.any_eq_false.mp blanks c h)
  simp only [List.mem_cons, List.not_mem_nil, or_false, not_or] at other
  obtain ⟨space, tab, line, ret, bracket⟩ := other
  exact ⟨by simp [isBlank, space, tab, line, ret], bracket⟩

theorem stringify_lead (v : Json) : ∃ c t, stringify v = c :: t ∧ isLead c = true := by
  cases v with
  | null => exact ⟨_, _, rfl, rfl⟩
  | bool b => cases b <;> exact ⟨_, _, rfl, rfl⟩
  | num n =>
      obtain ⟨nonempty, chars⟩ := isNumeral_chars n.valid
      obtain ⟨c, t, same⟩ := List.exists_cons_of_ne_nil nonempty
      have first : c ∈ n.text := same ▸ List.mem_cons_self
      exact ⟨c, t, same, by simp [isLead, chars c first]⟩
  | str s => exact ⟨_, _, rfl, rfl⟩
  | arr items => exact ⟨_, _, rfl, rfl⟩
  | obj fields => exact ⟨_, _, rfl, rfl⟩

theorem skipBlank_of_lead {c : Char} (lead : isLead c = true) (s : List Char) :
    skipBlank (c :: s) = c :: s := by
  rw [skipBlank, List.dropWhile_cons_of_neg]
  simp [(isLead_spec lead).1]

theorem parseNumeral_append (n : Numeral) {rest : List Char} (ends : Ends rest) :
    parseNumeral (n.text ++ rest) = some (.num n, rest) := by
  have chars := (isNumeral_chars n.valid).2
  have restTake : rest.takeWhile isNumeralChar = [] := by
    cases rest with
    | nil => rfl
    | cons c rest => simp [ends c rfl]
  have restDrop : rest.dropWhile isNumeralChar = rest := by
    cases rest with
    | nil => rfl
    | cons c rest => simp [ends c rfl]
  have read : (n.text ++ rest).takeWhile isNumeralChar = n.text := by
    rw [List.takeWhile_append_of_pos chars, restTake, List.append_nil]
  have left : (n.text ++ rest).dropWhile isNumeralChar = rest := by
    rw [List.dropWhile_append_of_pos chars, restDrop]
  simp only [parseNumeral, read, left, n.valid, dif_pos]

/-- A numeral is read as one: no other value starts as it does. -/
theorem parseValue_num (n : Numeral) (fuel : Nat) {rest : List Char} (ends : Ends rest) :
    parseValue (fuel + 1) (n.text ++ rest) = some (.num n, rest) := by
  obtain ⟨nonempty, chars⟩ := isNumeral_chars n.valid
  obtain ⟨c, t, same⟩ := List.exists_cons_of_ne_nil nonempty
  have numeral : isNumeralChar c = true := chars c (same ▸ List.mem_cons_self)
  have lead : isLead c = true := by simp [isLead, numeral]
  have other : ∀ d, isNumeralChar d = false → c ≠ d := by
    rintro d not rfl
    rw [numeral] at not
    contradiction
  have whole := parseNumeral_append n ends
  rw [same, List.cons_append] at whole
  rw [parseValue, same, List.cons_append, skipBlank_of_lead lead]
  simp only [other _ (by decide : isNumeralChar '"' = false),
    other _ (by decide : isNumeralChar '[' = false),
    other _ (by decide : isNumeralChar '{' = false),
    other _ (by decide : isNumeralChar 'n' = false),
    other _ (by decide : isNumeralChar 't' = false),
    other _ (by decide : isNumeralChar 'f' = false), if_false, whole]

theorem stringifyItems_lead (v : Json) (vs : List Json) :
    ∃ c t, stringifyItems (v :: vs) = c :: t ∧ isLead c = true := by
  obtain ⟨c, t, same, lead⟩ := stringify_lead v
  cases vs with
  | nil => exact ⟨c, t, by rw [stringifyItems, same], lead⟩
  | cons w vs => exact ⟨c, t ++ ',' :: stringifyItems (w :: vs), by rw [stringifyItems, same]; rfl, lead⟩

theorem skipBlank_quote (k : Utf16) (s : List Char) :
    skipBlank (quote k ++ s) = '"' :: ((points k).flatMap quotePoint ++ '"' :: s) := by
  simp [quote, skipBlank, isBlank]

theorem stringifyFields_lead (f : Utf16 × Json) (fs : List (Utf16 × Json)) :
    ∃ t, stringifyFields (f :: fs) = '"' :: t := by
  obtain ⟨k, v⟩ := f
  cases fs <;> exact ⟨_, rfl⟩

/-- With this fuel, the text of a value is read back as the value, and no further. -/
def ValuesReadBack (fuel : Nat) : Prop :=
  ∀ v rest, (stringify v).length < fuel → Ends rest →
    parseValue fuel (stringify v ++ rest) = some (v, rest)

def ItemsReadBack (fuel : Nat) : Prop :=
  ∀ v vs rest, (stringifyItems (v :: vs)).length + 1 < fuel →
    parseItems fuel (stringifyItems (v :: vs) ++ ']' :: rest) = some (v :: vs, rest)

def FieldsReadBack (fuel : Nat) : Prop :=
  ∀ f fs rest, (stringifyFields (f :: fs)).length + 1 < fuel →
    parseFields fuel (stringifyFields (f :: fs) ++ '}' :: rest) = some (f :: fs, rest)

theorem itemsReadBack_succ {fuel : Nat} (values : ValuesReadBack fuel)
    (items : ItemsReadBack fuel) : ItemsReadBack (fuel + 1) := by
  intro v vs rest enough
  cases vs with
  | nil =>
      rw [stringifyItems] at enough ⊢
      rw [parseItems, values v _ (by omega) (ends_cons rfl rest)]
      rfl
  | cons w vs =>
      rw [stringifyItems, List.length_append, List.length_cons] at enough
      rw [stringifyItems, List.append_assoc, List.cons_append, parseItems,
        values v _ (by omega) (ends_cons rfl _)]
      have more := items w vs rest (by omega)
      simp only [skipBlank, isBlank, List.dropWhile_cons]
      simp [more]

theorem fieldsReadBack_succ {fuel : Nat} (values : ValuesReadBack fuel)
    (fields : FieldsReadBack fuel) : FieldsReadBack (fuel + 1) := by
  intro f fs rest enough
  obtain ⟨k, v⟩ := f
  cases fs with
  | nil =>
      rw [stringifyFields, List.length_append, List.length_cons] at enough
      have read := values v ('}' :: rest) (by omega) (ends_cons rfl rest)
      rw [stringifyFields, List.append_assoc, List.cons_append, parseFields, skipBlank_quote]
      simp only [parseUnits_quote]
      simp [skipBlank, isBlank, read]
  | cons g fs =>
      rw [stringifyFields, List.length_append, List.length_append, List.length_cons,
        List.length_cons] at enough
      have read := values v (',' :: (stringifyFields (g :: fs) ++ '}' :: rest)) (by omega)
        (ends_cons rfl _)
      have more := fields g fs rest (by omega)
      rw [stringifyFields, List.append_assoc, List.append_assoc, List.cons_append,
        List.cons_append, parseFields, skipBlank_quote]
      simp only [parseUnits_quote]
      simp [skipBlank, isBlank, read, more]

theorem valuesReadBack_succ {fuel : Nat} (items : ItemsReadBack fuel)
    (fields : FieldsReadBack fuel) : ValuesReadBack (fuel + 1) := by
  intro v rest enough ends
  cases v with
  | null => rfl
  | bool b => cases b <;> rfl
  | num n => exact parseValue_num n fuel ends
  | str s =>
      rw [stringify, parseValue, skipBlank_quote]
      simp only [if_pos, parseUnits_quote, Option.map_some]
  | arr vs =>
      cases vs with
      | nil => rfl
      | cons v vs =>
          simp only [stringify, List.length_cons, List.length_append, List.length_nil] at enough
          have read := items v vs rest (by omega)
          obtain ⟨c, t, same, lead⟩ := stringifyItems_lead v vs
          have text : stringify (.arr (v :: vs)) ++ rest = '[' :: c :: (t ++ ']' :: rest) := by
            simp [stringify, same]
          rw [same, List.cons_append] at read
          -- the first item does not start with the bracket that closes the array
          rw [text, parseValue, skipBlank_of_lead (by decide)]
          simp [skipBlank_of_lead lead, (isLead_spec lead).2, read]
  | obj fs =>
      cases fs with
      | nil => rfl
      | cons f fs =>
          simp only [stringify, List.length_cons, List.length_append, List.length_nil] at enough
          have read := fields f fs rest (by omega)
          obtain ⟨t, same⟩ := stringifyFields_lead f fs
          have text : stringify (.obj (f :: fs)) ++ rest = '{' :: '"' :: (t ++ '}' :: rest) := by
            simp [stringify, same]
          rw [same, List.cons_append] at read
          rw [text, parseValue, skipBlank_of_lead (by decide)]
          simp [skipBlank_of_lead (show isLead '"' = true by decide), read]

theorem allReadBack (fuel : Nat) :
    ValuesReadBack fuel ∧ ItemsReadBack fuel ∧ FieldsReadBack fuel := by
  induction fuel with
  | zero =>
      refine ⟨?_, ?_, ?_⟩ <;> intro _ _ _ enough <;> omega
  | succ fuel ih =>
      obtain ⟨values, items, fields⟩ := ih
      exact ⟨valuesReadBack_succ items fields, itemsReadBack_succ values items,
        fieldsReadBack_succ values fields⟩

/-- **Reading what was written** gives the value again. -/
theorem parse_stringify (v : Json) : parse (stringify v) = some v := by
  have enough : (stringify v).length < (stringify v).length + 1 := Nat.lt_succ_self _
  have ends : Ends [] := by
    intro c same
    cases same
  have read := (allReadBack ((stringify v).length + 1)).1 v [] enough ends
  rw [List.append_nil] at read
  simp [parse, read]

-- a bracket in a string is part of it, and one too many at the end is an error
example : parse (stringify (.arr [.str [0x5D]])) = some (.arr [.str [0x5D]]) := rfl
example : parse ['[', '{', '}', ']', '}', ']'] = none := rfl

/-! ## Texts of no value -/

/-- The characters that start a value are printing ASCII characters. -/
theorem toNat_of_isLead {c : Char} (lead : isLead c = true) :
    0x20 < c.toNat ∧ c.toNat < 0x80 := by
  have signs : ['-', '+', '.', 'e', 'E'].all (fun d => 0x20 < d.toNat ∧ d.toNat < 0x80) = true := by
    decide
  have words : ['n', 't', 'f', '"', '[', '{'].all (fun d => 0x20 < d.toNat ∧ d.toNat < 0x80) = true := by
    decide
  rw [isLead, isNumeralChar, Bool.or_eq_true, Bool.or_eq_true, decide_eq_true_eq,
    decide_eq_true_eq] at lead
  rcases lead with (digit | sign) | word
  · rw [Char.isDigit, Bool.and_eq_true, decide_eq_true_eq, decide_eq_true_eq] at digit
    have low : 48 ≤ c.toNat := digit.1
    have high : c.toNat ≤ 57 := digit.2
    omega
  · exact of_decide_eq_true (List.all_eq_true.mp signs c sign)
  · exact of_decide_eq_true (List.all_eq_true.mp words c word)

/-- A text without a character that could start a value has no value. -/
theorem parse_eq_none {s : List Char} (noLead : ∀ c ∈ s, isLead c = false) : parse s = none := by
  have read : parseValue (s.length + 1) s = none := by
    rw [parseValue]
    cases rest : skipBlank s with
    | nil => rfl
    | cons c t =>
        have member : c ∈ s := by
          have suffix : skipBlank s <:+ s := List.dropWhile_suffix _
          exact suffix.subset (rest ▸ List.mem_cons_self)
        have notLead := noLead c member
        have numeral : isNumeralChar c = false := by
          rw [isLead, Bool.or_eq_false_iff] at notLead
          exact notLead.1
        have other : ∀ d, isLead d = true → c ≠ d := by
          rintro d lead rfl
          rw [lead] at notLead
          contradiction
        have noNumeral : parseNumeral (c :: t) = none := by
          simp [parseNumeral, numeral, isNumeral, isUnsigned, isDigits]
        simp only [other '"' rfl, other '[' rfl, other '{' rfl, other 'n' rfl, other 't' rfl,
          other 'f' rfl, if_false, noNumeral]
  simp only [parse, read]

end Json

end PatientAccess.Theory
