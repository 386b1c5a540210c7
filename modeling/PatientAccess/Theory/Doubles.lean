/-
# Theory.Doubles -- binary64 numbers, up to the sign of zero

A finite double is an integer of 53 bits times a power of two (`Fits`).  A rational is
rounded to the nearest of them, to the even one of two that are equally near, and to an
infinity from `bound` on.

All that is used of rounding is that it does not pass a number that fits: what is at most
such a number is rounded to at most that number (`rounded_le`, `le_rounded`).
-/
import PatientAccess.Theory.Numbers
import Mathlib.Data.Int.Log
import Mathlib.Data.Prod.Lex
import Mathlib.Data.Rat.Floor
import Mathlib.Tactic.Linarith
import Mathlib.Tactic.NormNum
import Mathlib.Tactic.Positivity
import Mathlib.Tactic.Ring

namespace PatientAccess.Theory.Doubles

set_option autoImplicit false

/-! ## Numbers that fit -/

def Fits (q : ℚ) : Prop :=
  ∃ m e : ℤ, |m| < 2 ^ 53 ∧ -1074 ≤ e ∧ e ≤ 971 ∧ q = m * 2 ^ e

/-- The integer nearest to `x`, the even one of two. -/
def nearest (x : ℚ) : ℤ :=
  if x - ⌊x⌋ < 1 / 2 ∨ (x - ⌊x⌋ = 1 / 2 ∧ ⌊x⌋ % 2 = 0) then ⌊x⌋ else ⌊x⌋ + 1

/-- The exponent of the last place of a double near `q`. -/
def exponent (q : ℚ) : ℤ := max (Int.log 2 |q| - 52) (-1074)

def rounded (q : ℚ) : ℚ := nearest (q / 2 ^ exponent q) * 2 ^ exponent q

/-! ## The nearest integer -/

theorem nearest_le {x : ℚ} {n : ℤ} (le : x ≤ n) : nearest x ≤ n := by
  have low : ⌊x⌋ ≤ n := Int.floor_le_iff.mpr (le.trans_lt (by linarith))
  unfold nearest
  split
  · exact low
  · next up =>
    rcases low.lt_or_eq with below | same
    · omega
    · -- the floor is `n`, so nothing of `x` is above it
      have floor_le := Int.floor_le x
      rw [same] at floor_le up
      have zero : x - n < 1 / 2 := by linarith
      exact absurd (.inl zero) up

theorem le_nearest {x : ℚ} {n : ℤ} (le : (n : ℚ) ≤ x) : n ≤ nearest x := by
  have low : n ≤ ⌊x⌋ := Int.le_floor.mpr le
  unfold nearest
  split
  · exact low
  · omega

/-- Less than a half below `n + 1` is not yet enough. -/
theorem nearest_le_of_lt_half {x : ℚ} {n : ℤ} (lt : x < n + 1 / 2) : nearest x ≤ n := by
  rcases le_or_gt x n with le | above
  · exact nearest_le le
  · have same : ⌊x⌋ = n := Int.floor_eq_iff.mpr ⟨above.le, by linarith⟩
    have near : x - n < 1 / 2 := by linarith
    rw [nearest, same, if_pos (.inl near)]

theorem le_nearest_of_half_lt {x : ℚ} {n : ℤ} (lt : n - 1 / 2 < x) : n ≤ nearest x := by
  rcases le_or_gt (n : ℚ) x with le | below
  · exact le_nearest le
  · have same : ⌊x⌋ = n - 1 := Int.floor_eq_iff.mpr ⟨by push_cast; linarith, by push_cast; linarith⟩
    have far : ¬ (x - ⌊x⌋ < 1 / 2 ∨ (x - ⌊x⌋ = 1 / 2 ∧ ⌊x⌋ % 2 = 0)) := by
      rw [same]
      push_cast
      rintro (less | ⟨half, -⟩)
      · linarith
      · linarith
    rw [nearest, if_neg far, same]
    omega

/-! ## Scales -/

theorem two_zpow_pos (e : ℤ) : (0 : ℚ) < 2 ^ e := zpow_pos (by norm_num) e

theorem two_zpow_add (a b : ℤ) : (2 : ℚ) ^ (a + b) = 2 ^ a * 2 ^ b := zpow_add₀ (by norm_num) a b

theorem two_zpow_le {a b : ℤ} (le : a ≤ b) : (2 : ℚ) ^ a ≤ 2 ^ b :=
  zpow_le_zpow_right₀ (by norm_num) le

theorem lt_exponent (q : ℚ) : |q| < 2 ^ (exponent q + 53) := by
  have below : |q| < (2 : ℕ) ^ (Int.log 2 |q| + 1) := Int.lt_zpow_succ_log_self (by omega) |q|
  refine below.trans_le ?_
  rw [Nat.cast_ofNat]
  apply two_zpow_le
  unfold exponent
  omega

/-- Above the least exponent a number has all its 53 bits. -/
theorem le_of_exponent {q : ℚ} (nonzero : q ≠ 0) (above : -1074 < exponent q) :
    2 ^ (exponent q + 52) ≤ |q| := by
  have isLog : exponent q + 52 = Int.log 2 |q| := by
    unfold exponent at above ⊢
    omega
  have low : ((2 : ℕ) : ℚ) ^ Int.log 2 |q| ≤ |q| :=
    Int.zpow_log_le_self (by omega) (abs_pos.mpr nonzero)
  rw [isLog]
  exact_mod_cast low

theorem rounded_zero : rounded 0 = 0 := by
  have zero : nearest ((0 : ℚ) / 2 ^ exponent 0) = 0 := by
    rw [zero_div]
    exact le_antisymm (nearest_le (by simp)) (le_nearest (by simp))
  rw [rounded, zero, Int.cast_zero, zero_mul]

/-! ## Rounding passes no number that fits -/

/-- At a scale no finer than that of `q` a number is a whole one in the scale of `q`. -/
theorem whole_of_scale {q : ℚ} (m : ℤ) {k : ℤ} (scale : exponent q ≤ k) :
    ∃ n : ℤ, (m : ℚ) * 2 ^ k = n * 2 ^ exponent q := by
  obtain ⟨d, rfl⟩ : ∃ d : ℕ, k = exponent q + d := ⟨(k - exponent q).toNat, by omega⟩
  refine ⟨m * 2 ^ d, ?_⟩
  rw [two_zpow_add, zpow_natCast]
  push_cast
  ring

theorem rounded_le_of_scale {q : ℚ} {m k : ℤ} (scale : exponent q ≤ k) (le : q ≤ m * 2 ^ k) :
    rounded q ≤ m * 2 ^ k := by
  have positive := two_zpow_pos (exponent q)
  obtain ⟨n, whole⟩ := whole_of_scale m scale
  rw [whole] at le ⊢
  have near : nearest (q / 2 ^ exponent q) ≤ n := nearest_le ((div_le_iff₀ positive).mpr le)
  exact mul_le_mul_of_nonneg_right (by exact_mod_cast near) positive.le

theorem le_rounded_of_scale {q : ℚ} {m k : ℤ} (scale : exponent q ≤ k) (le : m * 2 ^ k ≤ q) :
    m * 2 ^ k ≤ rounded q := by
  have positive := two_zpow_pos (exponent q)
  obtain ⟨n, whole⟩ := whole_of_scale m scale
  rw [whole] at le ⊢
  have near : n ≤ nearest (q / 2 ^ exponent q) := le_nearest ((le_div_iff₀ positive).mpr le)
  exact mul_le_mul_of_nonneg_right (by exact_mod_cast near) positive.le

/-- A number of a finer scale than `q` is nearer to zero than `q`. -/
theorem lt_of_finer {q : ℚ} {m k : ℤ} (bits : |m| < 2 ^ 53) (finer : k < exponent q) :
    |(m : ℚ) * 2 ^ k| < 2 ^ (exponent q + 52) := by
  have positive := two_zpow_pos k
  have size : |(m : ℚ)| < 2 ^ 53 := by exact_mod_cast bits
  calc |(m : ℚ) * 2 ^ k| = |(m : ℚ)| * 2 ^ k := by rw [abs_mul, abs_of_pos positive]
    _ < 2 ^ 53 * 2 ^ k := mul_lt_mul_of_pos_right size positive
    _ = 2 ^ (53 + k) := by rw [two_zpow_add]; norm_num
    _ ≤ 2 ^ (exponent q + 52) := two_zpow_le (by omega)

theorem rounded_le {q f : ℚ} (fits : Fits f) (le : q ≤ f) : rounded q ≤ f := by
  obtain ⟨m, k, bits, least, -, rfl⟩ := fits
  rcases eq_or_ne q 0 with rfl | nonzero
  · rw [rounded_zero]
    exact le
  rcases le_or_gt (exponent q) k with scale | finer
  · exact rounded_le_of_scale scale le
  · -- `q` is far below zero, and so is the power of two above it
    have inside := lt_of_finer bits finer
    have outside := le_of_exponent nonzero (by omega)
    rw [abs_lt] at inside
    have negative : q ≤ ((-1 : ℤ) : ℚ) * 2 ^ (exponent q + 52) := by
      push_cast
      rcases le_abs.mp outside with above | below
      · linarith
      · linarith
    have low := rounded_le_of_scale (by omega) negative
    push_cast at low
    linarith

theorem le_rounded {q f : ℚ} (fits : Fits f) (le : f ≤ q) : f ≤ rounded q := by
  obtain ⟨m, k, bits, least, -, rfl⟩ := fits
  rcases eq_or_ne q 0 with rfl | nonzero
  · rw [rounded_zero]
    exact le
  rcases le_or_gt (exponent q) k with scale | finer
  · exact le_rounded_of_scale scale le
  · have inside := lt_of_finer bits finer
    have outside := le_of_exponent nonzero (by omega)
    rw [abs_lt] at inside
    have positive : ((1 : ℤ) : ℚ) * 2 ^ (exponent q + 52) ≤ q := by
      push_cast
      rcases le_abs.mp outside with above | below
      · linarith
      · linarith
    have high := le_rounded_of_scale (by omega) positive
    push_cast at high
    linarith

/-! ## What is rounded fits -/

/-- From here on a number is nearer to the power of two above than to any number that fits. -/
@[irreducible] def bound : ℚ := (2 ^ 53 - 1 / 2) * 2 ^ (971 : ℤ)

theorem bound_eq : bound = (2 ^ 53 - 1 / 2) * 2 ^ (971 : ℤ) := by unfold bound; rfl

theorem bound_lt : bound < 2 ^ (1024 : ℤ) := by
  have top : (2 : ℚ) ^ (1024 : ℤ) = 2 ^ 53 * 2 ^ (971 : ℤ) := by
    rw [show (1024 : ℤ) = 53 + 971 by omega, two_zpow_add]
    rfl
  rw [bound_eq, top]
  exact mul_lt_mul_of_pos_right (by linarith) (two_zpow_pos 971)

theorem pow_lt_bound : (2 : ℚ) ^ 64 < bound := by
  have low : (2 : ℚ) ^ (64 : ℤ) ≤ 2 ^ (971 : ℤ) := two_zpow_le (by omega)
  have positive := two_zpow_pos 971
  rw [bound_eq]
  calc (2 : ℚ) ^ 64 = 2 ^ (64 : ℤ) := rfl
    _ ≤ 2 ^ (971 : ℤ) := low
    _ < (2 ^ 53 - 1 / 2) * 2 ^ (971 : ℤ) := lt_mul_of_one_lt_left positive (by norm_num)

theorem exponent_le {q : ℚ} (small : |q| < bound) : exponent q ≤ 971 := by
  rcases eq_or_ne q 0 with rfl | nonzero
  · simp [exponent]
  · have low : ((2 : ℕ) : ℚ) ^ Int.log 2 |q| ≤ |q| :=
      Int.zpow_log_le_self (by omega) (abs_pos.mpr nonzero)
    have lt : (2 : ℚ) ^ Int.log 2 |q| < 2 ^ (1024 : ℤ) := by
      refine lt_of_le_of_lt ?_ (small.trans bound_lt)
      exact_mod_cast low
    have log := (zpow_lt_zpow_iff_right₀ (by norm_num)).mp lt
    unfold exponent
    omega

theorem abs_nearest_le {x : ℚ} {n : ℤ} (le : |x| ≤ n) : |nearest x| ≤ n := by
  rw [abs_le] at le ⊢
  exact ⟨le_nearest (by push_cast; linarith), nearest_le le.2⟩

theorem abs_nearest_le_of_lt_half {x : ℚ} {n : ℤ} (lt : |x| < n + 1 / 2) : |nearest x| ≤ n := by
  rw [abs_lt] at lt
  rw [abs_le]
  exact ⟨le_nearest_of_half_lt (by push_cast; linarith), nearest_le_of_lt_half lt.2⟩

theorem fits_rounded {q : ℚ} (small : |q| < bound) : Fits (rounded q) := by
  have positive := two_zpow_pos (exponent q)
  have least : -1074 ≤ exponent q := le_max_right _ _
  have greatest := exponent_le small
  have scaled : |q / 2 ^ exponent q| = |q| / 2 ^ exponent q := by rw [abs_div, abs_of_pos positive]
  have size : |nearest (q / 2 ^ exponent q)| ≤ 2 ^ 53 := by
    apply abs_nearest_le
    rw [scaled, div_le_iff₀ positive]
    push_cast
    have below := (lt_exponent q).le
    rw [two_zpow_add, mul_comm] at below
    exact_mod_cast below
  rcases size.lt_or_eq with bits | full
  · exact ⟨_, _, bits, least, greatest, rfl⟩
  · -- one place more: the number is a power of two, and not of the greatest scale
    have lower : exponent q ≠ 971 := by
      intro same
      have half : |q / 2 ^ exponent q| < ((2 ^ 53 - 1 : ℤ) : ℚ) + 1 / 2 := by
        have top : |q| < (2 ^ 53 - 1 / 2) * 2 ^ exponent q := by
          rw [same, ← bound_eq]
          exact small
        rw [scaled, div_lt_iff₀ positive]
        push_cast
        linarith
      have fewer := abs_nearest_le_of_lt_half half
      rw [full] at fewer
      omega
    have power : ∃ s : ℤ, |s| = 1 ∧ nearest (q / 2 ^ exponent q) = s * 2 ^ 53 := by
      rcases eq_or_eq_neg_of_abs_eq full with up | down
      · exact ⟨1, rfl, by omega⟩
      · exact ⟨-1, rfl, by omega⟩
    obtain ⟨s, unit, isPower⟩ := power
    refine ⟨s * 2 ^ 52, exponent q + 1, ?_, by omega, by omega, ?_⟩
    · rw [abs_mul, unit]
      norm_num
    · rw [rounded, isPower, two_zpow_add]
      push_cast
      ring

theorem Fits.lt_bound {q : ℚ} (fits : Fits q) : |q| < bound := by
  obtain ⟨m, e, bits, -, greatest, rfl⟩ := fits
  have size : |(m : ℚ)| ≤ 2 ^ 53 - 1 := by
    have whole : |m| ≤ 2 ^ 53 - 1 := by omega
    exact_mod_cast whole
  rw [abs_mul, abs_of_pos (two_zpow_pos e), bound_eq]
  calc |(m : ℚ)| * 2 ^ e ≤ (2 ^ 53 - 1) * 2 ^ (971 : ℤ) :=
        mul_le_mul size (two_zpow_le greatest) (two_zpow_pos e).le (by norm_num)
    _ < (2 ^ 53 - 1 / 2) * 2 ^ (971 : ℤ) :=
        mul_lt_mul_of_pos_right (by norm_num) (two_zpow_pos 971)

theorem fits_intCast {n : ℤ} (small : |n| < 2 ^ 53) : Fits n :=
  ⟨n, 0, small, by omega, by omega, by rw [zpow_zero, mul_one]⟩

/-! ## Doubles -/

/-- A double, where `0.0` and `-0.0` are one. -/
inductive Double where
  | nan
  | infinity (negative : Bool)
  | finite (q : ℚ) (fits : Fits q)

namespace Double

/-- The double nearest to `q`. -/
def ofRat (q : ℚ) : Double :=
  if small : |q| < bound then .finite (rounded q) (fits_rounded small)
  else .infinity (decide (q < 0))

def ofLiteral : Numbers.Literal → Double
  | .nan => .nan
  | .infinity negative => .infinity negative
  | .finite negative magnitude => ofRat (if negative then -magnitude else magnitude)

def zero : Double := .finite 0 (fits_intCast (n := 0) (by norm_num))

def add : Double → Double → Double
  | .finite a _, .finite b _ => ofRat (a + b)
  | .infinity a, .infinity b => if a = b then .infinity a else .nan
  | .infinity a, .finite _ _ | .finite _ _, .infinity a => .infinity a
  | .nan, _ | _, .nan => .nan

def sub : Double → Double → Double
  | .finite a _, .finite b _ => ofRat (a - b)
  | .infinity a, .infinity b => if a = b then .nan else .infinity a
  | .infinity a, .finite _ _ => .infinity a
  | .finite _ _, .infinity a => .infinity (!a)
  | .nan, _ | _, .nan => .nan

/-- The half of it. -/
def half : Double → Double
  | .finite a _ => ofRat (a / 2)
  | x => x

/-- The integer part; infinity and not-a-number have none. -/
def truncate : Double → Option ℤ
  | .finite q _ => some (q.num.tdiv q.den)
  | _ => none

def isFinite : Double → Bool
  | .finite _ _ => true
  | _ => false

/-- The number; the other values have none, and count as zero. -/
def value : Double → ℚ
  | .finite q _ => q
  | _ => 0

/-- The value itself, if it is a number. -/
def finite? : Double → Option Double
  | .finite q fits => some (.finite q fits)
  | _ => none

/-- Where a value stands among the others.  What is no number compares with nothing, and is
put last. -/
def place : Double → ℕ ×ₗ ℚ
  | .infinity true => toLex (0, 0)
  | .finite q _ => toLex (1, q)
  | .infinity false => toLex (2, 0)
  | .nan => toLex (3, 0)

theorem place_injective : Function.Injective place := by
  intro a b same
  have pair := toLex.injective same
  cases a with
  | nan => cases b with
    | nan => rfl
    | infinity n => cases n <;> cases pair
    | finite q fits => cases pair
  | infinity m => cases b with
    | nan => cases m <;> cases pair
    | infinity n => cases m <;> cases n <;> first | rfl | cases pair
    | finite q fits => cases m <;> cases pair
  | finite q fits => cases b with
    | nan => cases pair
    | infinity n => cases n <;> cases pair
    | finite r fits' => cases pair; rfl

instance : LinearOrder Double := LinearOrder.lift' place place_injective

theorem le_iff {x y : Double} : x ≤ y ↔ place x ≤ place y := Iff.rfl

theorem finite_le_finite {q r : ℚ} (fits : Fits q) (fits' : Fits r) :
    finite q fits ≤ finite r fits' ↔ q ≤ r := by
  simp [le_iff, place, Prod.Lex.toLex_le_toLex]

theorem ofRat_of_lt {q : ℚ} (small : |q| < bound) :
    ofRat q = finite (rounded q) (fits_rounded small) := dif_pos small

/-- Between two numbers that fit a rational is rounded to a number between them. -/
theorem ofRat_between {q lo hi : ℚ} (fitsLo : Fits lo) (fitsHi : Fits hi) (low : lo ≤ q)
    (high : q ≤ hi) : finite lo fitsLo ≤ ofRat q ∧ ofRat q ≤ finite hi fitsHi := by
  have small : |q| < bound := by
    have left := abs_lt.mp fitsLo.lt_bound
    have right := abs_lt.mp fitsHi.lt_bound
    rw [abs_lt]
    exact ⟨left.1.trans_le low, high.trans_lt right.2⟩
  rw [ofRat_of_lt small, finite_le_finite, finite_le_finite]
  exact ⟨le_rounded fitsLo low, rounded_le fitsHi high⟩

/-- What is between two numbers is a number. -/
theorem exists_finite {x : Double} {lo hi : ℚ} {fitsLo : Fits lo} {fitsHi : Fits hi}
    (low : finite lo fitsLo ≤ x) (high : x ≤ finite hi fitsHi) :
    ∃ q fits, x = finite q fits ∧ lo ≤ q ∧ q ≤ hi := by
  cases x with
  | finite q fits =>
      exact ⟨q, fits, rfl, (finite_le_finite _ _).mp low, (finite_le_finite _ _).mp high⟩
  | nan => simp [le_iff, place, Prod.Lex.toLex_le_toLex] at high
  | infinity negative =>
      cases negative with
      | true => simp [le_iff, place, Prod.Lex.toLex_le_toLex] at low
      | false => simp [le_iff, place, Prod.Lex.toLex_le_toLex] at high

end Double

end PatientAccess.Theory.Doubles
