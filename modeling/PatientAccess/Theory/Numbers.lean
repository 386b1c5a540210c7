/-
# Theory.Numbers -- reading numbers off text, as Python's `int` and `float` do

The text of a number is a sign, digits with single underscores between them, and for a
float a point, an exponent, or one of the names of infinity and of not-a-number.  What a
float literal denotes is exact (`Literal`); rounding it is a matter of the float format.

The rules are for the texts programs print: digits (`readInt_digits`), digits filled up
with zeros (`readNat_pad`), and a number of hundredths with its point
(`readFloat_hundredths`).
-/
import PatientAccess.Theory.Text
import Mathlib.Algebra.Order.Field.Rat
import Mathlib.Tactic.NormNum
import Mathlib.Tactic.Ring

namespace PatientAccess.Theory.Numbers

open PatientAccess.Theory.Text

set_option autoImplicit false

/-! ## Digits -/

/-- The zeros of the decimal digits of Unicode; the nine others follow each of them. -/
def zeros : List Nat :=
  [0x30, 0x660, 0x6F0, 0x7C0, 0x966, 0x9E6, 0xA66, 0xAE6, 0xB66, 0xBE6, 0xC66, 0xCE6, 0xD66, 0xDE6,
    0xE50, 0xED0, 0xF20, 0x1040, 0x1090, 0x17E0, 0x1810, 0x1946, 0x19D0, 0x1A80, 0x1A90, 0x1B50,
    0x1BB0, 0x1C40, 0x1C50, 0xA620, 0xA8D0, 0xA900, 0xA9D0, 0xA9F0, 0xAA50, 0xABF0, 0xFF10, 0x104A0,
    0x10D30, 0x11066, 0x110F0, 0x11136, 0x111D0, 0x112F0, 0x11450, 0x114D0, 0x11650, 0x116C0,
    0x11730, 0x118E0, 0x11950, 0x11C50, 0x11D50, 0x11DA0, 0x16A60, 0x16AC0, 0x16B50, 0x1D7CE,
    0x1D7D8, 0x1D7E2, 0x1D7EC, 0x1D7F6, 0x1E140, 0x1E2F0, 0x1E950, 0x1FBF0]

/-- A decimal digit of any script as the ASCII one, and a letter as its ASCII small one. -/
def normalize (c : Char) : Char :=
  match zeros.find? fun z => decide (z ≤ c.toNat ∧ c.toNat < z + 10) with
  | some z => (c.toNat - z).digitChar
  | none => c.toLower

/-- Digits with single underscores between them. -/
def isDigitPart : List Char → Bool
  | [] => false
  | [c] => c.isDigit
  | c :: '_' :: s => c.isDigit && isDigitPart s
  | c :: s => c.isDigit && isDigitPart s

def bare (s : List Char) : List Char := s.filter (· ≠ '_')

def readNat (s : List Char) : Option Nat :=
  if isDigitPart s then some (Nat.ofDigitChars 10 (bare s) 0) else none

/-- A sign or none, and what is read after it. -/
def readSigned {α : Type*} (read : List Char → Option α) : List Char → Option (Bool × α)
  | '-' :: s => (read s).map fun a => (true, a)
  | '+' :: s => (read s).map fun a => (false, a)
  | s => (read s).map fun a => (false, a)

def signed : Bool × Nat → Int
  | (true, n) => -n
  | (false, n) => n

/-- A sign or none, and digits. -/
def readSignedNat (s : List Char) : Option Int := (readSigned readNat s).map signed

def readInt (s : List Char) : Option Int := readSignedNat (s.map normalize)

/-! ## Float literals -/

/-- What a float literal denotes.  The sign stands apart, for there is a `-0.0`. -/
inductive Literal where
  | nan
  | infinity (negative : Bool)
  | finite (negative : Bool) (magnitude : ℚ)
  deriving DecidableEq

/-- Digits with a point before, between or after them, or with none. -/
def readMantissa (s : List Char) : Option ℚ :=
  match splitFirst '.' s with
  | none => (readNat s).map fun n => (n : ℚ)
  | some (whole, fraction) =>
      if fraction = [] then (readNat whole).map fun n => (n : ℚ)
      else (readNat fraction).bind fun b =>
        (if whole = [] then some 0 else readNat whole).map fun a =>
          (a : ℚ) + (b : ℚ) / 10 ^ (bare fraction).length

def readMagnitude (s : List Char) : Option ℚ :=
  match splitFirst 'e' s with
  | none => readMantissa s
  | some (mantissa, exponent) =>
      (readMantissa mantissa).bind fun m => (readSignedNat exponent).map fun e => m * 10 ^ e

/-- The part of a literal after its sign. -/
def readUnsigned (s : List Char) : Option (Bool → Literal) :=
  if s = "inf".toList ∨ s = "infinity".toList then some .infinity
  else if s = "nan".toList then some fun _ => .nan
  else (readMagnitude s).map fun q negative => .finite negative q

def readFloat (s : List Char) : Option Literal :=
  (readSigned readUnsigned (s.map normalize)).map fun (negative, literal) => literal negative

/-! ## Texts of digits -/

/-- A text of ASCII digits, at least one. -/
structure Digits (s : List Char) : Prop where
  nonempty : s ≠ []
  all : ∀ c ∈ s, c.isDigit = true

theorem normalize_digit {c : Char} (digit : c.isDigit = true) : normalize c = c := by
  have range : 48 ≤ c.toNat ∧ c.toNat ≤ 57 := Char.isDigit_iff_toNat.mp digit
  obtain ⟨low, high⟩ := range
  have first : (zeros.find? fun z => decide (z ≤ c.toNat ∧ c.toNat < z + 10)) = some 0x30 :=
    List.find?_cons_of_pos (decide_eq_true ⟨low, by omega⟩)
  rw [normalize, first]
  apply Char.toNat_inj.mp
  show (c.toNat - 48).digitChar.toNat = c.toNat
  rw [Nat.toNat_digitChar_of_lt_ten (by omega)]
  omega

theorem Digits.normalize {s : List Char} (digits : Digits s) : s.map Numbers.normalize = s := by
  rw [List.map_congr_left fun c member => normalize_digit (digits.all c member), List.map_id'']
  exact fun c => rfl

theorem Digits.ne {s : List Char} (digits : Digits s) {c : Char} (other : c.isDigit = false) :
    c ∉ s := by
  intro member
  rw [digits.all c member] at other
  cases other

theorem Digits.isDigitPart {s : List Char} (digits : Digits s) : isDigitPart s = true := by
  obtain ⟨nonempty, all⟩ := digits
  induction s with
  | nil => exact absurd rfl nonempty
  | cons c s ih =>
      rw [List.forall_mem_cons] at all
      cases s with
      | nil => exact all.1
      | cons d s =>
          have notLow : d ≠ '_' := by
            rintro rfl
            exact absurd (all.2 '_' List.mem_cons_self) (by decide)
          rw [Numbers.isDigitPart]
          · rw [all.1, ih (List.cons_ne_nil _ _) all.2]
            rfl
          · simp
          · simp [notLow]

theorem Digits.bare {s : List Char} (digits : Digits s) : bare s = s := by
  rw [Numbers.bare, List.filter_eq_self]
  intro c member
  have other : c ≠ '_' := fun same => digits.ne (by decide) (same ▸ member)
  exact decide_eq_true other

theorem Digits.readNat {s : List Char} (digits : Digits s) :
    readNat s = some (Nat.ofDigitChars 10 s 0) := by
  rw [Numbers.readNat, if_pos digits.isDigitPart, digits.bare]

theorem digits_toDigits (n : Nat) : Digits (Nat.toDigits 10 n) :=
  ⟨Nat.toDigits_ne_nil, fun _ member => Nat.isDigit_of_mem_toDigits (by decide) (by decide) member⟩

theorem Digits.pad {s : List Char} (digits : Digits s) (width : Nat) :
    Digits (s.leftpad width '0') := by
  refine ⟨?_, fun c member => ?_⟩
  · simp [List.leftpad, digits.nonempty]
  · rcases List.mem_append.mp member with zero | old
    · rw [List.eq_of_mem_replicate zero]
      decide
    · exact digits.all c old

/-- Zeros in front change nothing. -/
theorem readNat_pad (width n : Nat) :
    readNat ((Nat.toDigits 10 n).leftpad width '0') = some n := by
  rw [((digits_toDigits n).pad width).readNat, List.leftpad, Nat.ofDigitChars_append,
    Nat.ofDigitChars_replicate_zero, Nat.mul_zero, Nat.ofDigitChars_ten_toDigits]

theorem readNat_digits (n : Nat) : readNat (Nat.toDigits 10 n) = some n := by
  rw [(digits_toDigits n).readNat, Nat.ofDigitChars_ten_toDigits]

/-- A text that starts with a digit has no sign. -/
theorem readSigned_of_head {α : Type*} (read : List Char → Option α) {s : List Char}
    (lead : ∀ c, s.head? = some c → c ≠ '-' ∧ c ≠ '+') :
    readSigned read s = (read s).map fun a => (false, a) := by
  cases s with
  | nil => rfl
  | cons c s =>
      obtain ⟨notMinus, notPlus⟩ := lead c rfl
      rw [readSigned]
      · exact fun t same => notMinus (List.cons.inj same).1
      · exact fun t same => notPlus (List.cons.inj same).1

theorem Digits.head {s : List Char} (digits : Digits s) (c : Char) (first : s.head? = some c) :
    c ≠ '-' ∧ c ≠ '+' := by
  have member : c ∈ s := List.mem_of_head? first
  constructor
  · rintro rfl
    exact digits.ne (by decide) member
  · rintro rfl
    exact digits.ne (by decide) member

theorem readInt_digits (n : Nat) : readInt (Nat.toDigits 10 n) = some (n : Int) := by
  have digits := digits_toDigits n
  rw [readInt, digits.normalize, readSignedNat, readSigned_of_head readNat digits.head,
    readNat_digits]
  rfl

/-! ## Floats -/

/-- Digits and points. -/
def Plain (s : List Char) : Prop := ∀ c ∈ s, c.isDigit = true ∨ c = '.'

theorem Digits.plain {s : List Char} (digits : Digits s) : Plain s :=
  fun c member => .inl (digits.all c member)

theorem Plain.normalize {s : List Char} (plain : Plain s) : s.map Numbers.normalize = s := by
  rw [List.map_congr_left (g := id) fun c member => ?_, List.map_id]
  rcases plain c member with digit | rfl
  · exact normalize_digit digit
  · decide

/-- A text without letters is no name and has no exponent. -/
theorem Plain.readUnsigned {s : List Char} (plain : Plain s) :
    readUnsigned s = (readMantissa s).map fun q negative => .finite negative q := by
  have noLetter : ∀ c ∈ ['n', 'e'], c ∉ s := by
    intro c letter member
    have other : c.isDigit = false ∧ c ≠ '.' := by
      rcases List.mem_cons.mp letter with rfl | rest
      · decide
      · rw [List.mem_singleton.mp rest]
        decide
    rcases plain c member with digit | point
    · rw [other.1] at digit
      cases digit
    · exact other.2 point
  have notName : ∀ name : List Char, 'n' ∈ name → s ≠ name := by
    rintro name member rfl
    exact noLetter 'n' (by simp) member
  have noExponent : splitFirst 'e' s = none := if_neg (noLetter 'e' (by simp))
  rw [Numbers.readUnsigned, if_neg, if_neg (notName _ (by decide)), readMagnitude, noExponent]
  rintro (inf | infinity)
  · exact notName _ (by decide) inf
  · exact notName _ (by decide) infinity

/-- The same after a sign. -/
theorem Plain.readFloat {s : List Char} (plain : Plain s)
    (lead : ∀ c, s.head? = some c → c ≠ '-' ∧ c ≠ '+') (negative : Bool) :
    readFloat ((if negative then ['-'] else []) ++ s) =
      (readMantissa s).map fun q => .finite negative q := by
  cases negative with
  | true =>
      have minus : Numbers.normalize '-' = '-' := by decide
      have text : ((if true then ['-'] else []) ++ s).map Numbers.normalize = '-' :: s := by
        rw [if_pos rfl, List.singleton_append, List.map_cons, plain.normalize, minus]
      rw [Numbers.readFloat, text, readSigned, plain.readUnsigned]
      cases readMantissa s <;> rfl
  | false =>
      have text : ((if false then ['-'] else []) ++ s).map Numbers.normalize = s := plain.normalize
      rw [Numbers.readFloat, text, readSigned_of_head _ lead, plain.readUnsigned]
      cases readMantissa s <;> rfl

/-- A whole number is its value. -/
theorem readFloat_digits (n : Nat) (negative : Bool) :
    readFloat ((if negative then ['-'] else []) ++ Nat.toDigits 10 n) =
      some (.finite negative n) := by
  have digits := digits_toDigits n
  have whole : splitFirst '.' (Nat.toDigits 10 n) = none := if_neg (digits.ne (by decide))
  rw [digits.plain.readFloat digits.head, readMantissa, whole, readNat_digits]
  rfl

/-- A number of hundredths, with its point. -/
theorem readFloat_hundredths (n : Nat) (negative : Bool) :
    readFloat ((if negative then ['-'] else []) ++
        (Nat.toDigits 10 (n / 100) ++ '.' :: (Nat.toDigits 10 (n % 100)).leftpad 2 '0')) =
      some (.finite negative (n / 100)) := by
  have whole := digits_toDigits (n / 100)
  have fraction := (digits_toDigits (n % 100)).pad 2
  have plain : Plain (Nat.toDigits 10 (n / 100) ++
      '.' :: (Nat.toDigits 10 (n % 100)).leftpad 2 '0') := by
    intro c member
    rcases List.mem_append.mp member with inWhole | inRest
    · exact .inl (whole.all c inWhole)
    · rcases List.mem_cons.mp inRest with point | inFraction
      · exact .inr point
      · exact .inl (fraction.all c inFraction)
  have lead : ∀ c, (Nat.toDigits 10 (n / 100) ++
      '.' :: (Nat.toDigits 10 (n % 100)).leftpad 2 '0').head? = some c → c ≠ '-' ∧ c ≠ '+' := by
    intro c first
    rw [List.head?_append_of_ne_nil _ whole.nonempty] at first
    exact whole.head c first
  have two : (bare ((Nat.toDigits 10 (n % 100)).leftpad 2 '0')).length = 2 := by
    have small : (Nat.toDigits 10 (n % 100)).length ≤ 2 :=
      (Nat.length_toDigits_le_iff (by omega) (by omega)).mpr (Nat.mod_lt _ (by omega))
    rw [fraction.bare, List.length_leftpad]
    omega
  rw [plain.readFloat lead, readMantissa, splitFirst_append_cons (whole.ne (by decide))]
  simp only [fraction.nonempty, whole.nonempty, if_false, readNat_digits, readNat_pad,
    Option.bind_some, two]
  show some (Literal.finite negative (((n / 100 : Nat) : ℚ) + ((n % 100 : Nat) : ℚ) / 10 ^ 2)) = _
  have split : (n : ℚ) = 100 * ((n / 100 : Nat) : ℚ) + ((n % 100 : Nat) : ℚ) := by
    exact_mod_cast (Nat.div_add_mod n 100).symm
  rw [split]
  congr 2
  ring

end PatientAccess.Theory.Numbers
