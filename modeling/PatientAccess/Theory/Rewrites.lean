/-
# Theory.Rewrites -- writers that add to a shared list by rewriting it

A writer reads the whole list and later stores what it read with its own item at the
end.  Nothing keeps another writer from moving in between, so a read in between takes
the same list and one of the two items is lost.

* `Clean`: one writer at most is between its read and its store, so nothing is lost.
* `Lossy`: an item is missing for good.  A read or an append while another writer
  is about to store, a `Conflict`, leads from `Clean` to `Lossy`; every other move
  keeps both.
* `InOrder`: writers that start one after the other leave the items in their order.

`Clean.exact` and `Lossy.short` are what the two say when all writers are done.
-/
import Mathlib.Data.List.Perm.Basic
import Mathlib.Data.List.Count

namespace PatientAccess.Theory.Rewrites

set_option autoImplicit false

variable {ρ : Type*}

/-! ## Writers -/

/-- A writer has asked for the list, has seen it and is about to store it with its own
item at the end, or is done. -/
inductive Phase (ρ : Type*) where
  | reading
  | writing (seen : List ρ)
  | done

structure Job (ρ : Type*) where
  item : ρ
  phase : Phase ρ

namespace Job

/-- What it is about to store, if it has read the list. -/
def next? : Job ρ → Option (List ρ)
  | ⟨r, .writing seen⟩ => some (seen ++ [r])
  | _ => none

def isDone : Job ρ → Bool
  | ⟨_, .done⟩ => true
  | _ => false

/-- It has read the list. -/
def hasRead : Job ρ → Bool
  | ⟨_, .reading⟩ => false
  | _ => true

@[simp] theorem next?_reading (r : ρ) : (⟨r, .reading⟩ : Job ρ).next? = none := rfl
@[simp] theorem next?_writing (r : ρ) (seen : List ρ) :
    (⟨r, .writing seen⟩ : Job ρ).next? = some (seen ++ [r]) := rfl
@[simp] theorem next?_done (r : ρ) : (⟨r, .done⟩ : Job ρ).next? = none := rfl
@[simp] theorem isDone_reading (r : ρ) : (⟨r, .reading⟩ : Job ρ).isDone = false := rfl
@[simp] theorem isDone_writing (r : ρ) (seen : List ρ) :
    (⟨r, .writing seen⟩ : Job ρ).isDone = false := rfl
@[simp] theorem isDone_done (r : ρ) : (⟨r, .done⟩ : Job ρ).isDone = true := rfl
@[simp] theorem hasRead_reading (r : ρ) : (⟨r, .reading⟩ : Job ρ).hasRead = false := rfl
@[simp] theorem hasRead_writing (r : ρ) (seen : List ρ) :
    (⟨r, .writing seen⟩ : Job ρ).hasRead = true := rfl
@[simp] theorem hasRead_done (r : ρ) : (⟨r, .done⟩ : Job ρ).hasRead = true := rfl

end Job

structure State (ρ : Type*) where
  cell : List ρ
  jobs : List (Job ρ)

/-- What one move is: `append` adds an item at once, without a writer. -/
inductive Move (ρ : Type*) where
  | idle
  | append (r : ρ)
  | start (r : ρ)
  | read (r : ρ)
  | write (r : ρ)

inductive Step : State ρ → Move ρ → State ρ → Prop where
  | idle (s : State ρ) : Step s .idle s
  | append (r : ρ) (cell : List ρ) (jobs : List (Job ρ)) :
      Step ⟨cell, jobs⟩ (.append r) ⟨cell ++ [r], jobs ++ [⟨r, .done⟩]⟩
  | start (r : ρ) (cell : List ρ) (jobs : List (Job ρ)) :
      Step ⟨cell, jobs⟩ (.start r) ⟨cell, jobs ++ [⟨r, .reading⟩]⟩
  | read (r : ρ) (cell : List ρ) (before after : List (Job ρ)) :
      Step ⟨cell, before ++ ⟨r, .reading⟩ :: after⟩ (.read r)
        ⟨cell, before ++ ⟨r, .writing cell⟩ :: after⟩
  | write (r : ρ) (cell seen : List ρ) (before after : List (Job ρ)) :
      Step ⟨cell, before ++ ⟨r, .writing seen⟩ :: after⟩ (.write r)
        ⟨seen ++ [r], before ++ ⟨r, .done⟩ :: after⟩

/-- The items of the writers that are done. -/
def stored (jobs : List (Job ρ)) : List ρ := (jobs.filter Job.isDone).map Job.item

/-- The lists about to be stored. -/
def pending (jobs : List (Job ρ)) : List (List ρ) := jobs.filterMap Job.next?

/-- How many writers have read the list. -/
def readers (jobs : List (Job ρ)) : Nat := jobs.countP Job.hasRead

/-- The list is taken for a new one while another new one is about to be stored. -/
def Conflict (s : State ρ) : Move ρ → Prop
  | .append _ | .read _ => pending s.jobs ≠ []
  | _ => False

/-- A writer comes in before the others are done. -/
def Interrupts (s : State ρ) : Move ρ → Prop
  | .append _ | .start _ => ∃ j ∈ s.jobs, j.isDone = false
  | _ => False

def Quiet (s : State ρ) : Prop := ∀ j ∈ s.jobs, j.isDone = true

@[simp] theorem stored_nil : stored ([] : List (Job ρ)) = [] := rfl

@[simp] theorem stored_append (xs ys : List (Job ρ)) :
    stored (xs ++ ys) = stored xs ++ stored ys := by
  simp [stored]

@[simp] theorem stored_cons (j : Job ρ) (js : List (Job ρ)) :
    stored (j :: js) = if j.isDone then j.item :: stored js else stored js := by
  cases done : j.isDone <;> simp [stored, done]

@[simp] theorem pending_nil : pending ([] : List (Job ρ)) = [] := rfl

@[simp] theorem pending_append (xs ys : List (Job ρ)) :
    pending (xs ++ ys) = pending xs ++ pending ys :=
  List.filterMap_append

@[simp] theorem pending_cons (j : Job ρ) (js : List (Job ρ)) :
    pending (j :: js) = j.next?.toList ++ pending js := by
  cases next : j.next? <;> simp [pending, next]

@[simp] theorem readers_nil : readers ([] : List (Job ρ)) = 0 := rfl

@[simp] theorem readers_append (xs ys : List (Job ρ)) :
    readers (xs ++ ys) = readers xs + readers ys :=
  List.countP_append

@[simp] theorem readers_cons (j : Job ρ) (js : List (Job ρ)) :
    readers (j :: js) = readers js + if j.hasRead then 1 else 0 :=
  List.countP_cons

/-- Whoever has read the list is done or about to store. -/
theorem readers_eq (jobs : List (Job ρ)) :
    readers jobs = (stored jobs).length + (pending jobs).length := by
  induction jobs with
  | nil => rfl
  | cons j js ih =>
      obtain ⟨r, phase⟩ := j
      cases phase <;> simp [ih] <;> omega

/-- A writer that reads the list adds one list about to be stored. -/
theorem readers_read (r : ρ) (seen : List ρ) (before after : List (Job ρ)) :
    readers (before ++ ⟨r, .writing seen⟩ :: after) =
      readers (before ++ ⟨r, .reading⟩ :: after) + 1 := by
  simp
  omega

theorem mem_pending_read {r : ρ} {seen n : List ρ} {before after : List (Job ρ)} :
    n ∈ pending (before ++ ⟨r, .writing seen⟩ :: after) ↔
      n = seen ++ [r] ∨ n ∈ pending (before ++ ⟨r, .reading⟩ :: after) := by
  simp
  tauto

theorem mem_pending {jobs : List (Job ρ)} {j : Job ρ} {n : List ρ} (member : j ∈ jobs)
    (next : j.next? = some n) : n ∈ pending jobs :=
  List.mem_filterMap.mpr ⟨j, member, next⟩

/-! ## Without a conflict -/

/-- The list holds what is stored, and a writer about to store only adds its item. -/
structure Clean (s : State ρ) : Prop where
  one : (pending s.jobs).length ≤ 1
  cell : s.cell.Perm (stored s.jobs)
  next : ∀ j ∈ s.jobs, ∀ n, j.next? = some n → n = s.cell ++ [j.item]

theorem clean_start : Clean ⟨[], ([] : List (Job ρ))⟩ :=
  ⟨Nat.zero_le _, List.Perm.refl _, by simp⟩

/-- Without a conflict, one writer at a time is between its read and its store. -/
theorem Step.clean {s t : State ρ} {m : Move ρ} (step : Step s m t) (clean : Clean s)
    (free : ¬ Conflict s m) : Clean t := by
  obtain ⟨one, cell, next⟩ := clean
  cases step with
  | idle => exact ⟨one, cell, next⟩
  | start r c jobs =>
      refine ⟨by simpa using one, by simpa using cell, fun j member n new => ?_⟩
      rcases List.mem_append.mp member with old | own
      · exact next j old n new
      · rw [List.mem_singleton.mp own] at new
        cases new
  | append r c jobs =>
      have none : pending jobs = [] := not_not.mp free
      refine ⟨by simp [none], by simpa using cell.append_right [r], fun j member n new => ?_⟩
      rcases List.mem_append.mp member with old | own
      · exact absurd (mem_pending old new) (by simp [none])
      · rw [List.mem_singleton.mp own] at new
        cases new
  | read r c before after =>
      have none : pending (before ++ ⟨r, .reading⟩ :: after) = [] := not_not.mp free
      simp only [pending_append, pending_cons, List.append_eq_nil_iff] at none
      obtain ⟨front, -, back⟩ := none
      refine ⟨by simp [front, back], by simpa using cell, fun j member n new => ?_⟩
      rcases List.mem_append.mp member with old | rest
      · exact absurd (mem_pending old new) (by simp [front])
      · rcases List.mem_cons.mp rest with rfl | old
        · cases new
          rfl
        · exact absurd (mem_pending old new) (by simp [back])
  | write r c seen before after =>
      have own : seen ++ [r] = c ++ [r] := next ⟨r, .writing seen⟩ (by simp) _ rfl
      have none : pending before = [] ∧ pending after = [] := by
        simp only [pending_append, pending_cons, Job.next?_writing, List.length_append,
          Option.toList_some, List.length_singleton] at one
        constructor <;> apply List.eq_nil_of_length_eq_zero <;> omega
      rw [own]
      refine ⟨by simp [none.1, none.2], ?_, fun j member n new => ?_⟩
      · simp only [stored_append, stored_cons, Job.isDone_writing, Job.isDone_done] at cell ⊢
        exact (List.perm_append_singleton r c).trans ((cell.cons r).trans List.perm_middle.symm)
      · rcases List.mem_append.mp member with old | rest
        · exact absurd (mem_pending old new) (by simp [none.1])
        · rcases List.mem_cons.mp rest with rfl | old
          · cases new
          · exact absurd (mem_pending old new) (by simp [none.2])

/-- When the writers are done, the list holds exactly their items. -/
theorem Clean.exact {s : State ρ} (clean : Clean s) (quiet : Quiet s) :
    s.cell.Perm (s.jobs.map Job.item) := by
  have all : stored s.jobs = s.jobs.map Job.item := by
    rw [stored, List.filter_eq_self.mpr quiet]
  exact all ▸ clean.cell

/-! ## After a conflict -/

/-- No list in the system has as many items as writers have read it. -/
structure Lossy (s : State ρ) : Prop where
  cell : s.cell.length < readers s.jobs
  next : ∀ n ∈ pending s.jobs, n.length < readers s.jobs

/-- A conflict loses an item: neither the list nor any about to be stored has the items
of both writers. -/
theorem Step.conflict {s t : State ρ} {m : Move ρ} (step : Step s m t) (clean : Clean s)
    (conflict : Conflict s m) : Lossy t := by
  obtain ⟨one, cell, next⟩ := clean
  have size := cell.length_eq
  have total := readers_eq s.jobs
  have bound : ∀ n ∈ pending s.jobs, n.length = s.cell.length + 1 := by
    intro n member
    obtain ⟨j, present, new⟩ := List.mem_filterMap.mp member
    rw [next j present n new, List.length_append, List.length_singleton]
  cases step with
  | idle => exact absurd conflict id
  | start r c jobs => exact absurd conflict id
  | write r c seen before after => exact absurd conflict id
  | append r c jobs =>
      have some : 0 < (pending jobs).length := List.length_pos_of_ne_nil conflict
      dsimp only at size total bound
      refine ⟨by simp; omega, fun n member => ?_⟩
      have old : n ∈ pending jobs := by simpa using member
      have := bound n old
      simp
      omega
  | read r c before after =>
      have some : 0 < (pending (before ++ ⟨r, .reading⟩ :: after)).length :=
        List.length_pos_of_ne_nil conflict
      have more := readers_read r c before after
      dsimp only at size total bound
      refine ⟨by rw [more]; dsimp only; omega, fun n member => ?_⟩
      rw [more]
      rcases mem_pending_read.mp member with rfl | old
      · rw [List.length_append, List.length_singleton]
        omega
      · have := bound n old
        omega

/-- An item once lost stays lost. -/
theorem Step.lossy {s t : State ρ} {m : Move ρ} (step : Step s m t) (lossy : Lossy s) :
    Lossy t := by
  obtain ⟨cell, next⟩ := lossy
  cases step with
  | idle => exact ⟨cell, next⟩
  | start r c jobs =>
      refine ⟨by simpa using cell, fun n member => ?_⟩
      have := next n (by simpa using member)
      simpa using this
  | append r c jobs =>
      dsimp only at cell next
      refine ⟨by simp; omega, fun n member => ?_⟩
      have := next n (by simpa using member)
      simp
      omega
  | read r c before after =>
      have more := readers_read r c before after
      dsimp only at cell next
      refine ⟨by rw [more]; dsimp only; omega, fun n member => ?_⟩
      rw [more]
      rcases mem_pending_read.mp member with rfl | old
      · rw [List.length_append, List.length_singleton]
        omega
      · have := next n old
        omega
  | write r c seen before after =>
      have same : readers (before ++ ⟨r, .done⟩ :: after) =
          readers (before ++ ⟨r, .writing seen⟩ :: after) := by
        simp
      refine ⟨?_, fun n member => ?_⟩
      · rw [same]
        exact next (seen ++ [r]) (by simp)
      · rw [same]
        apply next
        simp at member ⊢
        tauto

/-- The list has fewer items than there are writers. -/
theorem Lossy.short {s : State ρ} (lossy : Lossy s) : s.cell.length < s.jobs.length := by
  have few := lossy.cell
  have most : readers s.jobs ≤ s.jobs.length := List.countP_le_length
  omega

/-! ## One writer after the other -/

def finished (rs : List ρ) : List (Job ρ) := rs.map fun r => ⟨r, .done⟩

/-- All writers are done but for the last, and the list holds the items of those that
are, in the order in which they came. -/
def InOrder (s : State ρ) : Prop :=
  ∃ last, s.jobs = finished s.cell ++ last ∧
    (last = [] ∨ ∃ r, last = [⟨r, .reading⟩] ∨ last = [⟨r, .writing s.cell⟩])

theorem inOrder_start : InOrder ⟨[], ([] : List (Job ρ))⟩ := ⟨[], rfl, .inl rfl⟩

theorem finished_isDone {rs : List ρ} {j : Job ρ} (member : j ∈ finished rs) : j.isDone = true := by
  obtain ⟨r, -, rfl⟩ := List.mem_map.mp member
  rfl

/-- Behind writers that are done, one that is not is the last. -/
theorem eq_last {rs : List ρ} {j : Job ρ} {last before after : List (Job ρ)}
    (notDone : j.isDone = false) (short : last.length ≤ 1)
    (same : before ++ j :: after = finished rs ++ last) :
    before = finished rs ∧ last = [j] ∧ after = [] := by
  have notIn : j ∉ finished rs := by
    intro member
    rw [finished_isDone member] at notDone
    contradiction
  cases last with
  | nil =>
      have member : j ∈ before ++ j :: after := by simp
      rw [same, List.append_nil] at member
      exact absurd member notIn
  | cons k rest =>
      have none : rest = [] := by
        rw [List.length_cons] at short
        exact List.eq_nil_of_length_eq_zero (by omega)
      subst none
      rcases List.eq_nil_or_concat' after with rfl | ⟨ys, l, rfl⟩
      · obtain ⟨front, back⟩ := List.append_inj' same rfl
        exact ⟨front, back.symm, rfl⟩
      · rw [← List.cons_append, ← List.append_assoc] at same
        obtain ⟨front, -⟩ := List.append_inj' same rfl
        exact absurd (front ▸ by simp : j ∈ finished rs) notIn

/-- A writer that interrupts no other leaves the items in order. -/
theorem Step.inOrder {s t : State ρ} {m : Move ρ} (step : Step s m t) (order : InOrder s)
    (alone : ¬ Interrupts s m) : InOrder t := by
  obtain ⟨last, jobsEq, lastEq⟩ := order
  have short : last.length ≤ 1 := by
    rcases lastEq with rfl | ⟨r, rfl | rfl⟩ <;> simp
  have noLast : (∀ j ∈ s.jobs, ¬ j.isDone = false) → last = [] := by
    intro done
    rw [jobsEq] at done
    rcases lastEq with rfl | ⟨r, rfl | rfl⟩
    · rfl
    · exact absurd rfl (done ⟨r, .reading⟩ (by simp))
    · exact absurd rfl (done ⟨r, .writing s.cell⟩ (by simp))
  cases step with
  | idle => exact ⟨last, jobsEq, lastEq⟩
  | start r c jobs =>
      have none := noLast fun j member notDone => alone ⟨j, member, notDone⟩
      refine ⟨[⟨r, .reading⟩], ?_, .inr ⟨r, .inl rfl⟩⟩
      rw [none, List.append_nil] at jobsEq
      exact congrArg (· ++ [⟨r, .reading⟩]) jobsEq
  | append r c jobs =>
      have none := noLast fun j member notDone => alone ⟨j, member, notDone⟩
      refine ⟨[], ?_, .inl rfl⟩
      rw [none, List.append_nil] at jobsEq
      dsimp only at jobsEq ⊢
      rw [jobsEq]
      simp [finished]
  | read r c before after =>
      obtain ⟨front, single, back⟩ := eq_last rfl short jobsEq
      exact ⟨[⟨r, .writing c⟩], by rw [front, back], .inr ⟨r, .inr rfl⟩⟩
  | write r c seen before after =>
      obtain ⟨front, single, back⟩ := eq_last rfl short jobsEq
      have own : seen = c := by
        rcases lastEq with none | ⟨r', reading | writing⟩
        · simp [none] at single
        · simp [reading] at single
        · rw [single, List.singleton_inj, Job.mk.injEq, Phase.writing.injEq] at writing
          exact writing.2
      refine ⟨[], ?_, .inl rfl⟩
      rw [front, back, own]
      simp [finished]

theorem InOrder.exact {s : State ρ} (order : InOrder s) (quiet : Quiet s) :
    s.cell = s.jobs.map Job.item := by
  obtain ⟨last, jobsEq, lastEq⟩ := order
  have none : last = [] := by
    rcases lastEq with rfl | ⟨r, rfl | rfl⟩
    · rfl
    · have := quiet ⟨r, .reading⟩ (by simp [jobsEq])
      cases this
    · have := quiet ⟨r, .writing s.cell⟩ (by simp [jobsEq])
      cases this
  rw [jobsEq, none, List.append_nil, finished, List.map_map]
  exact (List.map_id _).symm

end PatientAccess.Theory.Rewrites
