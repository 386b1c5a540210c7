/-
# Theory.Tickets -- numbers handed out by a counter

A counter hands out consecutive numbers to any number of holders, one number to a
holder at a time.  A number handed out is held until it is used or lost; it is never
given back.  `Step` is what one holder can do.  `Accounted` says that the numbers
held, used and lost are exactly those handed out, each once, and `Accounted.step`
that any holder's step keeps it.

When nothing is held, the used numbers have no gap exactly when nothing was lost
(`Accounted.noGap_iff`).  A number above a lost one is stuck for good
(`Accounted.stuck_of_lost`).
-/
import Mathlib.Data.List.Perm.Basic
import Mathlib.Data.List.Range

namespace PatientAccess.Theory.Tickets

set_option autoImplicit false

/-! ## Holders -/

/-- What happens to a number when its holder moves. -/
inductive Move where
  | idle
  | take (n : Nat)
  | use (n : Nat)
  | lose (n : Nat)
  deriving DecidableEq

def Move.used : Move → Option Nat
  | .use n => some n
  | _ => none

def Move.lost : Move → Option Nat
  | .lose n => some n
  | _ => none

/-- A move of one holder: the number it holds and the counter, before and after. -/
inductive Step (next : Nat) : Option Nat → Move → Option Nat → Nat → Prop where
  | idle (own : Option Nat) : Step next own .idle own next
  | take : Step next none (.take next) (some next) (next + 1)
  | use (n : Nat) : Step next (some n) (.use n) none next
  | lose (n : Nat) : Step next (some n) (.lose n) none next

/-! ## Accounts -/

/-- The numbers handed out so far, `first` to `next - 1`, are held, used or lost. -/
structure Accounted (first next : Nat) (held used lost : List Nat) : Prop where
  le : first ≤ next
  perm : (held ++ used ++ lost).Perm (List.range' first (next - first))

/-- The used numbers are those handed out, in some order. -/
structure NoGap (first next : Nat) (used : List Nat) : Prop where
  next_eq : next = first + used.length
  nodup : used.Nodup
  mem_iff : ∀ k, k ∈ used ↔ first ≤ k ∧ k < next

/-- Some number below `k` is not used, so that `k` has to wait for it. -/
def Stuck (first : Nat) (used : List Nat) (k : Nat) : Prop :=
  ∃ j, first ≤ j ∧ j < k ∧ j ∉ used

theorem accounted_start (first : Nat) : Accounted first first [] [] [] where
  le := le_rfl
  perm := by simp

variable {first next : Nat} {held used lost : List Nat}

theorem Accounted.congr (acc : Accounted first next held used lost) {held' : List Nat}
    (same : held'.Perm held) : Accounted first next held' used lost where
  le := acc.le
  perm := ((same.append_right used).append_right lost).trans acc.perm

/-- The counter hands out its next number. -/
theorem Accounted.take (acc : Accounted first next held used lost) :
    Accounted first (next + 1) (next :: held) used lost where
  le := acc.le.trans (Nat.le_succ _)
  perm := by
    have count : next + 1 - first = next - first + 1 := by
      have := acc.le
      omega
    have last : first + 1 * (next - first) = next := by
      have := acc.le
      omega
    rw [count, List.range'_concat, last]
    exact (acc.perm.cons next).trans (List.perm_append_singleton _ _).symm

/-- A held number is used. -/
theorem Accounted.use {n : Nat} (acc : Accounted first next (n :: held) used lost) :
    Accounted first next held (used ++ [n]) lost where
  le := acc.le
  perm := by
    refine List.Perm.trans (List.Perm.append_right lost ?_) acc.perm
    rw [← List.append_assoc]
    exact List.perm_append_singleton n _

/-- A held number is lost. -/
theorem Accounted.lose {n : Nat} (acc : Accounted first next (n :: held) used lost) :
    Accounted first next held used (lost ++ [n]) where
  le := acc.le
  perm := by
    refine List.Perm.trans ?_ acc.perm
    rw [← List.append_assoc]
    exact List.perm_append_singleton n _

/-- Any holder's step keeps the account, whatever the others hold. -/
theorem Accounted.step {own own' : Option Nat} {m : Move} {next' : Nat} {others : List Nat}
    (acc : Accounted first next (own.toList ++ others) used lost)
    (step : Step next own m own' next') :
    Accounted first next' (own'.toList ++ others) (used ++ m.used.toList)
      (lost ++ m.lost.toList) := by
  cases step with
  | idle => simpa [Move.used, Move.lost] using acc
  | take => simpa [Move.used, Move.lost] using acc.take
  | use n => simpa [Move.used, Move.lost] using acc.use
  | lose n => simpa [Move.used, Move.lost] using acc.lose

/-- No number is used twice. -/
theorem Accounted.used_nodup (acc : Accounted first next held used lost) : used.Nodup := by
  have all : (held ++ used ++ lost).Nodup := acc.perm.nodup_iff.mpr List.nodup_range'
  exact (List.nodup_append.mp (List.nodup_append.mp all).1).2.1

/-- **Gaps are losses.** -/
theorem Accounted.noGap_iff (acc : Accounted first next [] used lost) :
    NoGap first next used ↔ lost = [] := by
  have le := acc.le
  have count : used.length + lost.length = next - first := by
    simpa using acc.perm.length_eq
  constructor
  · intro noGap
    have := noGap.next_eq
    exact List.length_eq_zero_iff.mp (by omega)
  · rintro rfl
    rw [List.length_nil, Nat.add_zero] at count
    refine ⟨by omega, acc.used_nodup, fun k => ?_⟩
    have member := acc.perm.mem_iff (a := k)
    rw [List.nil_append, List.append_nil, List.mem_range'_1] at member
    rw [member]
    omega

/-- Without a gap no number handed out, and not the next one, is stuck. -/
theorem NoGap.not_stuck (noGap : NoGap first next used) {k : Nat} (le : k ≤ next) :
    ¬ Stuck first used k := by
  rintro ⟨j, above, below, missing⟩
  exact missing ((noGap.mem_iff j).mpr ⟨above, by omega⟩)

/-- Every number above a lost one is stuck. -/
theorem Accounted.stuck_of_lost (acc : Accounted first next held used lost) {n k : Nat}
    (gone : n ∈ lost) (above : n < k) : Stuck first used k := by
  have all : (held ++ used ++ lost).Nodup := acc.perm.nodup_iff.mpr List.nodup_range'
  have handedOut : n ∈ List.range' first (next - first) :=
    acc.perm.mem_iff.mp (List.mem_append_right _ gone)
  have apart := (List.nodup_append.mp all).2.2
  refine ⟨n, (List.mem_range'_1.mp handedOut).1, above, fun used => ?_⟩
  exact apart n (List.mem_append_right _ used) n gone rfl

end PatientAccess.Theory.Tickets
