/-
# Theory.Loops -- programs that act, loop, and may stop on the way

A `Run` is what a piece of a program has done: its actions in order, and the value it
went on with, or why it went no further.  What was done before a stop stays done.

`forLoop` is a counting loop with a guard.  Its rules, each used by name:

* `forLoop_eq`: where every turn goes on, the loop does the turns one after the other,
  at its `indices`;
* `forall_forLoop`: what holds of the actions of every turn holds of those of the loop;
* `mem_forLoop`, `forLoop_of_stop`: what the first turn does is done, and if it stops,
  nothing else;
* `forLoop_invariant`: what every turn keeps of the counter, the value and the actions so
  far is kept by the loop, wherever it stops;
* `flatten_blocks`: the blocks a loop cuts a list into make up the list again.

`forOf` is a loop through a list, and `forOf_flatMap` unnests two of them.
-/
import Mathlib.Data.List.Basic
import Mathlib.Data.PNat.Basic

namespace PatientAccess.Theory

set_option autoImplicit false

/-- The actions done, and the value at the end or the reason to stop before it. -/
@[ext] structure Run (κ ε α : Type*) where
  actions : List κ
  ending : Except ε α

namespace Run

variable {κ ε : Type*} {α β : Type}

def pure (a : α) : Run κ ε α := ⟨[], .ok a⟩

/-- Do one thing. -/
def act (k : κ) : Run κ ε Unit := ⟨[k], .ok ()⟩

/-- Go no further. -/
def stop (e : ε) : Run κ ε α := ⟨[], .error e⟩

/-- First `r`; then, unless that stopped, what follows its value. -/
def bind (r : Run κ ε α) (next : α → Run κ ε β) : Run κ ε β :=
  match r.ending with
  | .ok a => ⟨r.actions ++ (next a).actions, (next a).ending⟩
  | .error e => ⟨r.actions, .error e⟩

instance : Monad (Run κ ε) where
  pure := pure
  bind := bind

@[simp] theorem pure_eq (a : α) : (Pure.pure a : Run κ ε α) = ⟨[], .ok a⟩ := rfl

@[simp] theorem ok_bind (ks : List κ) (a : α) (next : α → Run κ ε β) :
    (⟨ks, .ok a⟩ : Run κ ε α) >>= next = ⟨ks ++ (next a).actions, (next a).ending⟩ := rfl

@[simp] theorem error_bind (ks : List κ) (e : ε) (next : α → Run κ ε β) :
    (⟨ks, .error e⟩ : Run κ ε α) >>= next = ⟨ks, .error e⟩ := rfl

@[simp] theorem act_bind (k : κ) (next : Unit → Run κ ε β) :
    act k >>= next = ⟨k :: (next ()).actions, (next ()).ending⟩ := rfl

@[simp] theorem stop_actions (e : ε) : (stop e : Run κ ε α).actions = [] := rfl

theorem bind_assoc {γ : Type} (r : Run κ ε α) (next : α → Run κ ε β) (last : β → Run κ ε γ) :
    r >>= next >>= last = r >>= fun a => next a >>= last := by
  obtain ⟨ks, ending⟩ := r
  cases ending with
  | error e => rfl
  | ok a =>
      rw [ok_bind, ok_bind]
      generalize next a = second
      obtain ⟨ks', ending'⟩ := second
      cases ending' with
      | error e => rfl
      | ok b => simp

/-- What holds of the actions of both parts holds of those of the whole. -/
theorem forall_bind {P : κ → Prop} {r : Run κ ε α} {next : α → Run κ ε β}
    (first : ∀ k ∈ r.actions, P k) (second : ∀ a, ∀ k ∈ (next a).actions, P k) :
    ∀ k ∈ (r >>= next).actions, P k := by
  obtain ⟨ks, ending⟩ := r
  cases ending with
  | error e => exact first
  | ok a =>
      intro k member
      rw [ok_bind] at member
      rcases List.mem_append.mp member with old | new
      · exact first k old
      · exact second a k new

/-- What the first part did stays done. -/
theorem mem_bind_of_mem {r : Run κ ε α} {k : κ} (done : k ∈ r.actions)
    (next : α → Run κ ε β) : k ∈ (r >>= next).actions := by
  obtain ⟨ks, ending⟩ := r
  cases ending with
  | error e => exact done
  | ok a => exact List.mem_append_left _ done

/-- The actions and the value are as `goes` says, or those before a stop as `stops`. -/
def Satisfies (goes : List κ → α → Prop) (stops : List κ → Prop) (r : Run κ ε α) : Prop :=
  match r.ending with
  | .ok a => goes r.actions a
  | .error _ => stops r.actions

theorem Satisfies.imp {goes goes' : List κ → α → Prop} {stops stops' : List κ → Prop}
    {r : Run κ ε α} (satisfies : r.Satisfies goes stops) (go : ∀ ks a, goes ks a → goes' ks a)
    (stop : ∀ ks, stops ks → stops' ks) : r.Satisfies goes' stops' := by
  obtain ⟨ks, ending⟩ := r
  cases ending with
  | ok a => exact go ks a satisfies
  | error e => exact stop ks satisfies

theorem Satisfies.bind {goes : List κ → α → Prop} {goes' : List κ → β → Prop}
    {stops : List κ → Prop} {r : Run κ ε α} {next : α → Run κ ε β}
    (first : r.Satisfies goes stops)
    (second : ∀ ks a, goes ks a →
      (next a).Satisfies (fun ks' b => goes' (ks ++ ks') b) fun ks' => stops (ks ++ ks')) :
    (r >>= next).Satisfies goes' stops := by
  obtain ⟨ks, ending⟩ := r
  cases ending with
  | ok a => exact second ks a first
  | error e => exact first

end Run

section Loops

variable {κ ε : Type*} {α : Type} (stop : Nat) (step : ℕ+) (guard : Nat → Bool)

/-- `for (; i < stop && guard(i); i += step)`, with a value handed from turn to turn. -/
def forLoop (body : Nat → α → Run κ ε α) (i : Nat) (a : α) : Run κ ε α :=
  if i < stop ∧ guard i = true then do
    let a' ← body i a
    forLoop body (i + step) a'
  else pure a
termination_by stop - i
decreasing_by
  have positive := step.pos
  omega

/-- The values of the counter at which a turn is made, if all are. -/
def indices (i : Nat) : List Nat :=
  if i < stop ∧ guard i = true then i :: indices (i + step) else []
termination_by stop - i
decreasing_by
  have positive := step.pos
  omega

variable {stop step guard}

theorem lt_of_mem_indices {i j : Nat} (member : j ∈ indices stop step guard i) : j < stop := by
  induction i using indices.induct stop step guard with
  | case1 i more ih =>
      rw [indices, if_pos more] at member
      rcases List.mem_cons.mp member with rfl | later
      · exact more.1
      · exact ih later
  | case2 i done =>
      rw [indices, if_neg done] at member
      cases member

variable {body : Nat → α → Run κ ε α}

/-- **A loop that is not stopped** does its turns one after the other. -/
theorem forLoop_eq (body : Nat → α → Run κ ε α) (value : Nat → α) (acts : Nat → List κ) (i : Nat)
    (turn : ∀ j ∈ indices stop step guard i, body j (value j) = ⟨acts j, .ok (value (j + step))⟩) :
    forLoop stop step guard body i (value i) =
      ⟨(indices stop step guard i).flatMap acts,
        .ok (value (i + step * (indices stop step guard i).length))⟩ := by
  induction i using indices.induct stop step guard with
  | case1 i more ih =>
      rw [indices, if_pos more] at turn ⊢
      rw [List.forall_mem_cons] at turn
      rw [forLoop, if_pos more, turn.1, Run.ok_bind, ih turn.2, List.flatMap_cons, List.length_cons]
      have last : i + step + step * (indices stop step guard (i + step)).length =
          i + step * ((indices stop step guard (i + step)).length + 1) := by
        rw [Nat.mul_add, Nat.mul_one]
        omega
      rw [last]
  | case2 i done =>
      rw [forLoop, if_neg done, indices, if_neg done]
      rfl

/-- What holds of the actions of every turn holds of those of the loop. -/
theorem forall_forLoop {P : κ → Prop} (turn : ∀ j a, ∀ k ∈ (body j a).actions, P k) (i : Nat)
    (a : α) : ∀ k ∈ (forLoop stop step guard body i a).actions, P k := by
  induction i, a using forLoop.induct stop step guard with
  | case1 i a more ih =>
      rw [forLoop, if_pos more]
      exact Run.forall_bind (turn i a) ih
  | case2 i a done =>
      rw [forLoop, if_neg done]
      exact List.forall_mem_nil _

/-- The actions of the first turn are done. -/
theorem mem_forLoop {i : Nat} (more : i < stop ∧ guard i = true) {a : α} {k : κ}
    (done : k ∈ (body i a).actions) : k ∈ (forLoop stop step guard body i a).actions := by
  rw [forLoop, if_pos more]
  exact Run.mem_bind_of_mem done _

/-- A first turn that stops is all the loop does. -/
theorem forLoop_of_stop {i : Nat} (more : i < stop ∧ guard i = true) {a : α} {ks : List κ} {e : ε}
    (stops : body i a = ⟨ks, .error e⟩) : forLoop stop step guard body i a = ⟨ks, .error e⟩ := by
  rw [forLoop, if_pos more, stops, Run.error_bind]

theorem forLoop_of_done {i : Nat} (done : ¬ (i < stop ∧ guard i = true)) (a : α) :
    forLoop stop step guard body i a = ⟨[], .ok a⟩ := by
  rw [forLoop, if_neg done]
  rfl

/-- **What every turn keeps, the loop keeps.**  `I` relates the counter, the value and the
actions so far. -/
theorem forLoop_invariant (I : Nat → α → List κ → Prop) (stops : List κ → Prop)
    (turn : ∀ j b ks, j < stop ∧ guard j = true → I j b ks →
      (body j b).Satisfies (fun ks' b' => I (j + step) b' (ks ++ ks')) fun ks' => stops (ks ++ ks'))
    {i : Nat} {a : α} (ks : List κ) (first : I i a ks) :
    (forLoop stop step guard body i a).Satisfies
      (fun ks' b => ∃ j, ¬ (j < stop ∧ guard j = true) ∧ I j b (ks ++ ks'))
      fun ks' => stops (ks ++ ks') := by
  induction i, a using forLoop.induct stop step guard generalizing ks with
  | case1 i a more ih =>
      rw [forLoop, if_pos more]
      refine (turn i a ks more first).bind fun ks' b kept => ?_
      simpa only [List.append_assoc] using ih b _ kept
  | case2 i a done =>
      rw [forLoop, if_neg done]
      exact ⟨i, done, by rwa [Run.pure_eq, List.append_nil]⟩

/-! ## Through a list -/

/-- `for (const x of xs)`, with a value handed from turn to turn. -/
def forOf {β : Type*} (body : β → α → Run κ ε α) : List β → α → Run κ ε α
  | [], a => pure a
  | x :: xs, a => do
      let a' ← body x a
      forOf body xs a'

theorem forOf_append {β : Type*} (body : β → α → Run κ ε α) (xs ys : List β) (a : α) :
    forOf body (xs ++ ys) a = (do
      let a' ← forOf body xs a
      forOf body ys a') := by
  induction xs generalizing a with
  | nil => simp [forOf]
  | cons x xs ih =>
      simp only [List.cons_append, forOf, ih, Run.bind_assoc]

/-- Two loops, one in the other, are one. -/
theorem forOf_flatMap {β γ : Type*} (body : β → α → Run κ ε α) (f : γ → List β) (xs : List γ) (a : α) :
    forOf body (xs.flatMap f) a = forOf (fun x a => forOf body (f x) a) xs a := by
  induction xs generalizing a with
  | nil => rfl
  | cons x xs ih =>
      rw [List.flatMap_cons, forOf_append, forOf]
      simp only [ih]

theorem forOf_map {β γ : Type*} (body : β → α → Run κ ε α) (f : γ → β) (xs : List γ) (a : α) :
    forOf body (xs.map f) a = forOf (fun x a => body (f x) a) xs a := by
  induction xs generalizing a with
  | nil => rfl
  | cons x xs ih =>
      rw [List.map_cons, forOf, forOf]
      simp only [ih]

/-- What every turn keeps, the loop keeps.  `I` looks at what is left of the list. -/
theorem forOf_invariant {β : Type*} {body : β → α → Run κ ε α} (I : List β → α → List κ → Prop)
    (stops : List κ → Prop)
    (turn : ∀ x xs b ks, I (x :: xs) b ks →
      (body x b).Satisfies (fun ks' b' => I xs b' (ks ++ ks')) fun ks' => stops (ks ++ ks'))
    {xs : List β} {a : α} (ks : List κ) (first : I xs a ks) :
    (forOf body xs a).Satisfies (fun ks' b => I [] b (ks ++ ks')) fun ks' => stops (ks ++ ks') := by
  induction xs generalizing a ks with
  | nil =>
      show I [] a (ks ++ [])
      rwa [List.append_nil]
  | cons x xs ih =>
      rw [forOf]
      refine (turn x xs a ks first).bind fun ks' b kept => ?_
      simpa only [List.append_assoc] using ih _ kept

/-! ## Counting -/

/-- Counting by one goes through all numbers below the bound. -/
theorem indices_eq_range' {stop bound : Nat} {guard : Nat → Bool}
    (turns : ∀ j, (j < stop ∧ guard j = true) ↔ j < bound) (i : Nat) :
    indices stop 1 guard i = List.range' i (bound - i) := by
  induction i using indices.induct stop 1 guard with
  | case1 i more ih =>
      have inside := (turns i).mp more
      have size : bound - i = bound - (i + 1) + 1 := by omega
      rw [indices, if_pos more, ih, size, List.range'_succ]
      rfl
  | case2 i done =>
      rw [turns i] at done
      have size : bound - i = 0 := by omega
      rw [indices, if_neg (mt (turns i).mp done), size, List.range'_zero]

theorem indices_one (stop i : Nat) : indices stop 1 (fun _ => true) i = List.range' i (stop - i) :=
  indices_eq_range' (fun j => by simp) i

/-- Two bounds are that of the smaller one. -/
theorem indices_bounded (stop c n i : Nat) :
    indices stop 1 (fun j => decide (c + j < n)) i = List.range' i (min stop (n - c) - i) := by
  refine indices_eq_range' (fun j => ?_) i
  show j < stop ∧ decide (c + j < n) = true ↔ j < min stop (n - c)
  rw [decide_eq_true_eq]
  omega

/-- The numbers from `i` below `stop`, in blocks of `step`. -/
def blocks (stop : Nat) (step : ℕ+) (i : Nat) : List (List Nat) :=
  (indices stop step (fun _ => true) i).map fun i => List.range' i (min step (stop - i))

theorem blocks_of_lt {stop i : Nat} (more : i < stop) (step : ℕ+) :
    blocks stop step i = List.range' i (min step (stop - i)) :: blocks stop step (i + step) := by
  rw [blocks, indices, if_pos ⟨more, rfl⟩, List.map_cons, blocks]

theorem blocks_of_le {stop i : Nat} (done : stop ≤ i) (step : ℕ+) : blocks stop step i = [] := by
  rw [blocks, indices, if_neg (by simp; omega), List.map_nil]

/-- No number is left out or repeated. -/
theorem flatten_blocks (stop : Nat) (step : ℕ+) (i : Nat) :
    (blocks stop step i).flatten = List.range' i (stop - i) := by
  induction i using indices.induct stop step fun _ => true with
  | case1 i more ih =>
      rw [blocks_of_lt more.1, List.flatten_cons, ih]
      rcases Nat.le_total (step : Nat) (stop - i) with fits | short
      · have size : stop - i = step + (stop - (i + step)) := by omega
        rw [Nat.min_eq_left fits, List.range'_append_1, ← size]
      · have none : stop - (i + step) = 0 := by omega
        rw [Nat.min_eq_right short, none, List.range'_zero, List.append_nil]
  | case2 i done =>
      have past : stop ≤ i := by simpa using done
      rw [blocks_of_le past, Nat.sub_eq_zero_of_le past]
      rfl

/-- All blocks but the last are full. -/
theorem length_of_mem_dropLast_blocks (stop : Nat) (step : ℕ+) (i : Nat) :
    ∀ b ∈ (blocks stop step i).dropLast, b.length = step := by
  induction i using indices.induct stop step fun _ => true with
  | case1 i more ih =>
      rw [blocks_of_lt more.1]
      by_cases last : stop ≤ i + step
      · rw [blocks_of_le last]
        exact List.forall_mem_nil _
      · have next : blocks stop step (i + step) ≠ [] := by
          rw [blocks_of_lt (Nat.not_le.mp last)]
          exact List.cons_ne_nil _ _
        rw [List.dropLast_cons_of_ne_nil next, List.forall_mem_cons]
        exact ⟨by rw [List.length_range']; omega, ih⟩
  | case2 i done =>
      rw [blocks_of_le (by simpa using done)]
      exact List.forall_mem_nil _

/-- No block is empty or more than full. -/
theorem length_of_mem_blocks {stop : Nat} {step : ℕ+} {i : Nat} {b : List Nat}
    (member : b ∈ blocks stop step i) : 1 ≤ b.length ∧ b.length ≤ step := by
  induction i using indices.induct stop step fun _ => true with
  | case1 i more ih =>
      rw [blocks_of_lt more.1] at member
      rcases List.mem_cons.mp member with rfl | later
      · have positive := step.pos
        rw [List.length_range']
        omega
      · exact ih later
  | case2 i done =>
      rw [blocks_of_le (by simpa using done)] at member
      cases member

end Loops

end PatientAccess.Theory
