/-
# Theory.Utf16 -- JavaScript strings as UTF-16 units

A JavaScript string is a sequence of UTF-16 units, which need not be paired.  Its
points are the characters it holds and the surrogates without a partner; it comes
back from them (`flatMap_points`).
-/
import Mathlib.Data.List.Basic

namespace PatientAccess.Theory

set_option autoImplicit false

/-- A JavaScript string. -/
abbrev Utf16 := List UInt16

namespace Utf16

def isHigh (u : UInt16) : Bool := decide (0xD800 ≤ u.toNat ∧ u.toNat < 0xDC00)

def isLow (u : UInt16) : Bool := decide (0xDC00 ≤ u.toNat ∧ u.toNat < 0xE000)

/-- The units of one character. -/
def ofChar (c : Char) : Utf16 :=
  if c.toNat < 0x10000 then [UInt16.ofNat c.toNat]
  else [UInt16.ofNat (0xD800 + (c.toNat - 0x10000) / 0x400),
    UInt16.ofNat (0xDC00 + (c.toNat - 0x10000) % 0x400)]

def ofText (s : List Char) : Utf16 := s.flatMap ofChar

/-- The character a high and a low surrogate stand for. -/
def pair (u v : UInt16) : Char :=
  Char.ofNat (0x10000 + (u.toNat - 0xD800) * 0x400 + (v.toNat - 0xDC00))

/-- What a string is made of: characters, and surrogates without a partner. -/
inductive Point where
  | scalar (c : Char)
  | lone (u : UInt16)
  deriving DecidableEq

def Point.units : Point → Utf16
  | .scalar c => ofChar c
  | .lone u => [u]

/-- The point of a unit that is in no pair. -/
def point (u : UInt16) : Point :=
  if isHigh u || isLow u then .lone u else .scalar (Char.ofNat u.toNat)

def points : Utf16 → List Point
  | [] => []
  | [u] => [point u]
  | u :: v :: s =>
      if isHigh u && isLow v then .scalar (pair u v) :: points s
      else point u :: points (v :: s)

/-- The text a string has in UTF-8, where a lone surrogate cannot be written. -/
def toText (s : Utf16) : List Char :=
  (points s).map fun p => match p with
    | .scalar c => c
    | .lone _ => Char.ofNat 0xFFFD

theorem toNat_ofNat {n : Nat} (valid : n.isValidChar) : (Char.ofNat n).toNat = n := by
  rw [Char.ofNat, dif_pos valid]
  rfl

theorem units_point (u : UInt16) : (point u).units = [u] := by
  unfold point
  split
  · rfl
  · next single =>
    have below := u.toNat_lt
    simp only [isHigh, isLow, Bool.or_eq_true, decide_eq_true_eq] at single
    have valid : u.toNat.isValidChar := by
      unfold Nat.isValidChar
      omega
    simp [Point.units, ofChar, toNat_ofNat valid, below]

theorem ofChar_pair {u v : UInt16} (high : isHigh u = true) (low : isLow v = true) :
    ofChar (pair u v) = [u, v] := by
  simp only [isHigh, isLow, decide_eq_true_eq] at high low
  have valid : (0x10000 + (u.toNat - 0xD800) * 0x400 + (v.toNat - 0xDC00)).isValidChar := by
    unfold Nat.isValidChar
    omega
  have first : 0xD800 + ((u.toNat - 0xD800) * 0x400 + (v.toNat - 0xDC00)) / 0x400 = u.toNat := by
    omega
  have second :
      0xDC00 + ((u.toNat - 0xD800) * 0x400 + (v.toNat - 0xDC00)) % 0x400 = v.toNat := by
    omega
  rw [ofChar, pair, toNat_ofNat valid, if_neg (by omega), Nat.add_assoc, Nat.add_sub_cancel_left,
    first, second, UInt16.ofNat_toNat, UInt16.ofNat_toNat]

/-- A string is its points. -/
theorem flatMap_points (s : Utf16) : (points s).flatMap Point.units = s := by
  fun_induction points s with
  | case1 => rfl
  | case2 u => simp [units_point]
  | case3 u v s paired ih =>
      rw [Bool.and_eq_true] at paired
      rw [List.flatMap_cons, ih, Point.units, ofChar_pair paired.1 paired.2]
      rfl
  | case4 u v s single ih =>
      rw [List.flatMap_cons, ih, units_point]
      rfl

theorem points_cons {u : UInt16} (single : isHigh u = false) (s : Utf16) :
    points (u :: s) = point u :: points s := by
  cases s with
  | nil => rfl
  | cons v s => rw [points, single, Bool.false_and, if_neg Bool.false_ne_true]

/-- A character is one point, whatever follows it. -/
theorem points_ofChar (c : Char) (s : Utf16) : points (ofChar c ++ s) = .scalar c :: points s := by
  have valid : c.toNat < 0xD800 ∨ 0xDFFF < c.toNat ∧ c.toNat < 0x110000 := c.valid
  by_cases small : c.toNat < 0x10000
  · have unit : (UInt16.ofNat c.toNat).toNat = c.toNat := UInt16.toNat_ofNat_of_lt' small
    have notHigh : isHigh (UInt16.ofNat c.toNat) = false := by
      simp only [isHigh, unit, decide_eq_false_iff_not]
      omega
    have notLow : isLow (UInt16.ofNat c.toNat) = false := by
      simp only [isLow, unit, decide_eq_false_iff_not]
      omega
    rw [ofChar, if_pos small, List.singleton_append, points_cons notHigh, point, notHigh, notLow,
      Bool.or_false, if_neg Bool.false_ne_true, unit, Char.ofNat_toNat]
  · have high : (UInt16.ofNat (0xD800 + (c.toNat - 0x10000) / 0x400)).toNat =
        0xD800 + (c.toNat - 0x10000) / 0x400 := UInt16.toNat_ofNat_of_lt' (by
      show _ < 65536
      omega)
    have low : (UInt16.ofNat (0xDC00 + (c.toNat - 0x10000) % 0x400)).toNat =
        0xDC00 + (c.toNat - 0x10000) % 0x400 := UInt16.toNat_ofNat_of_lt' (by
      show _ < 65536
      omega)
    have paired : (isHigh (UInt16.ofNat (0xD800 + (c.toNat - 0x10000) / 0x400)) &&
        isLow (UInt16.ofNat (0xDC00 + (c.toNat - 0x10000) % 0x400))) = true := by
      simp only [isHigh, isLow, high, low, Bool.and_eq_true, decide_eq_true_eq]
      omega
    have back : 0x10000 + (0xD800 + (c.toNat - 0x10000) / 0x400 - 0xD800) * 0x400 +
        (0xDC00 + (c.toNat - 0x10000) % 0x400 - 0xDC00) = c.toNat := by
      omega
    rw [ofChar, if_neg small, List.cons_append, List.singleton_append, points, if_pos paired, pair,
      high, low, back, Char.ofNat_toNat]

/-- A text as a string is made of its characters. -/
theorem points_ofText (t : List Char) : points (ofText t) = t.map .scalar := by
  induction t with
  | nil => rfl
  | cons c t ih => rw [List.map_cons, ← ih, ofText, List.flatMap_cons, points_ofChar, ← ofText]

/-- A text is written as it was. -/
theorem toText_ofText (t : List Char) : toText (ofText t) = t := by
  rw [toText, points_ofText, List.map_map]
  exact List.map_id t

end Utf16

end PatientAccess.Theory
