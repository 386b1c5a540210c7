/-
# Theory.Promise -- a value that is settled at most once

A `Promise` is pending until it is resolved or rejected, and whatever settles it
afterwards changes nothing.  `or` is that rule: the first settlement counts.

A callback that settles a promise on some of the values it is fed computes a fold
of `or`; `foldl_or` says that the fold is the first settlement among them, and
`first_isResolved` when that is a resolution.
-/
import Mathlib.Data.List.Basic

namespace PatientAccess.Theory

set_option autoImplicit false

inductive Promise (α ε : Type*) where
  | pending
  | resolved (value : α)
  | rejected (reason : ε)
  deriving DecidableEq

namespace Promise

variable {α ε ν : Type*}

/-- Settle `p` as `q` unless it is settled already. -/
def or : Promise α ε → Promise α ε → Promise α ε
  | .pending, q => q
  | p, _ => p

def resolve (p : Promise α ε) (value : α) : Promise α ε := p.or (.resolved value)

def isResolved : Promise α ε → Bool
  | .resolved _ => true
  | _ => false

def map {β : Type*} (f : α → β) : Promise α ε → Promise β ε
  | .pending => .pending
  | .resolved a => .resolved (f a)
  | .rejected e => .rejected e

@[simp] theorem isResolved_map {β : Type*} (f : α → β) (p : Promise α ε) :
    (p.map f).isResolved = p.isResolved := by
  cases p <;> rfl

theorem map_eq_pending_iff {β : Type*} (f : α → β) (p : Promise α ε) :
    p.map f = .pending ↔ p = .pending := by
  cases p <;> simp [map]

@[simp] theorem pending_or (q : Promise α ε) : (pending : Promise α ε).or q = q := rfl

@[simp] theorem or_pending (p : Promise α ε) : p.or .pending = p := by
  cases p <;> rfl

theorem or_assoc (p q r : Promise α ε) : (p.or q).or r = p.or (q.or r) := by
  cases p <;> rfl

/-- The first settlement in a list. -/
def first : List (Promise α ε) → Promise α ε
  | [] => .pending
  | p :: ps => p.or (first ps)

theorem or_eq_pending_iff {p q : Promise α ε} : p.or q = .pending ↔ p = .pending ∧ q = .pending := by
  cases p <;> simp [or]

/-- Nothing is settled where none of the list is. -/
theorem first_eq_pending_iff {ps : List (Promise α ε)} :
    first ps = .pending ↔ ∀ p ∈ ps, p = .pending := by
  induction ps with
  | nil => simp [first]
  | cons p ps ih => rw [first, or_eq_pending_iff, ih, List.forall_mem_cons]

/-- A callback that settles by `outcome` leaves the first settlement. -/
theorem foldl_or (outcome : ν → Promise α ε) (ns : List ν) (p : Promise α ε) :
    ns.foldl (fun q n => q.or (outcome n)) p = p.or (first (ns.map outcome)) := by
  induction ns generalizing p with
  | nil => simp [first]
  | cons n ns ih => rw [List.foldl_cons, ih, List.map_cons, first, or_assoc]

/-- The first settlement is a resolution exactly when some value resolves and none
before it rejects. -/
theorem first_isResolved (outcome : ν → Promise α ε) (ns : List ν) :
    (first (ns.map outcome)).isResolved = true ↔
      ∃ before n after, ns = before ++ n :: after ∧ (outcome n).isResolved = true ∧
        ∀ m ∈ before, ∀ e, outcome m ≠ .rejected e := by
  induction ns with
  | nil => simp [first, isResolved]
  | cons n ns ih =>
      rw [List.map_cons, first]
      cases settled : outcome n with
      | resolved a =>
          refine iff_of_true rfl ⟨[], n, ns, rfl, ?_, by simp⟩
          rw [settled]
          rfl
      | rejected e =>
          refine iff_of_false (by simp [or, isResolved]) ?_
          rintro ⟨before, m, after, split, resolves, quiet⟩
          match before with
          | [] =>
              simp only [List.nil_append, List.cons.injEq] at split
              rw [← split.1, settled] at resolves
              simp [isResolved] at resolves
          | b :: before =>
              simp only [List.cons_append, List.cons.injEq] at split
              exact quiet b (by simp) e (split.1 ▸ settled)
      | pending =>
          rw [pending_or, ih]
          constructor
          · rintro ⟨before, m, after, rfl, resolves, quiet⟩
            refine ⟨n :: before, m, after, rfl, resolves, ?_⟩
            simpa [settled] using quiet
          · rintro ⟨before, m, after, split, resolves, quiet⟩
            match before with
            | [] =>
                simp only [List.nil_append, List.cons.injEq] at split
                rw [← split.1, settled] at resolves
                simp [isResolved] at resolves
            | b :: before =>
                simp only [List.cons_append, List.cons.injEq] at split
                exact ⟨before, m, after, split.2, resolves,
                  fun m' member => quiet m' (List.mem_cons_of_mem _ member)⟩

end Promise

end PatientAccess.Theory
