/-
# Theory.Machine -- deterministic machines that answer every input

A `Machine` moves and answers on every input.  `run` is the state after a list of
inputs, `trace` the inputs with their answers.  The rules, each used by name:

* `Reachable.induct`: a predicate that holds at the start and survives one step
  holds of every reachable state;
* `history_induct`: the same for a relation between the state and the trace that
  led to it -- how a state is shown to be a function of its history;
* `always_iff_allSteps`: where one step keeps a predicate exactly under a
  condition, a run keeps it throughout exactly when each step meets the condition;
* `emitted_perm`: what the steps of a run put out is what the state has gained;
* `simulation`: two machines whose steps answer alike have the same traces;
* `Component`: a part of the state that only some inputs drive is itself a
  machine, and sees of a run nothing but those inputs (`Component.view_run`,
  `Component.answers_run`);
* `Driver`: a part of the state that moves only on inputs the machine itself makes up
  from its state is where those inputs bring it (`Driver.view_run`).
-/
import Mathlib.Data.List.Infix
import Mathlib.Data.List.Induction

namespace PatientAccess.Theory

set_option autoImplicit false

/-- A start state and, on every input, an answer and the next state. -/
structure Machine (σ ι ο : Type*) where
  start : σ
  step : σ → ι → ο × σ

namespace Machine

variable {σ ι ο : Type*} (M : Machine σ ι ο)

/-! ## Runs -/

/-- The state after `is`, from `s`. -/
def runFrom : σ → List ι → σ
  | s, [] => s
  | s, i :: is => runFrom (M.step s i).2 is

/-- The inputs `is` with their answers, from `s`. -/
def traceFrom : σ → List ι → List (ι × ο)
  | _, [] => []
  | s, i :: is => (i, (M.step s i).1) :: traceFrom (M.step s i).2 is

def run (is : List ι) : σ := M.runFrom M.start is

def trace (is : List ι) : List (ι × ο) := M.traceFrom M.start is

def Reachable (s : σ) : Prop := ∃ is, M.run is = s

theorem runFrom_append (s : σ) (is js : List ι) :
    M.runFrom s (is ++ js) = M.runFrom (M.runFrom s is) js := by
  induction is generalizing s with
  | nil => rfl
  | cons i is ih => exact ih _

theorem traceFrom_append (s : σ) (is js : List ι) :
    M.traceFrom s (is ++ js) = M.traceFrom s is ++ M.traceFrom (M.runFrom s is) js := by
  induction is generalizing s with
  | nil => rfl
  | cons i is ih => simp only [List.cons_append, traceFrom, runFrom, ih]

theorem run_append (is js : List ι) : M.run (is ++ js) = M.runFrom (M.run is) js :=
  M.runFrom_append _ is js

theorem trace_append (is js : List ι) :
    M.trace (is ++ js) = M.trace is ++ M.traceFrom (M.run is) js :=
  M.traceFrom_append _ is js

@[simp] theorem run_concat (is : List ι) (i : ι) :
    M.run (is ++ [i]) = (M.step (M.run is) i).2 :=
  M.run_append is [i]

@[simp] theorem trace_concat (is : List ι) (i : ι) :
    M.trace (is ++ [i]) = M.trace is ++ [(i, (M.step (M.run is) i).1)] :=
  M.traceFrom_append _ is [i]

theorem reachable_run (is : List ι) : M.Reachable (M.run is) := ⟨is, rfl⟩

theorem map_fst_traceFrom (s : σ) (is : List ι) : (M.traceFrom s is).map Prod.fst = is := by
  induction is generalizing s with
  | nil => rfl
  | cons i is ih => rw [traceFrom, List.map_cons, ih]

theorem map_fst_trace (is : List ι) : (M.trace is).map Prod.fst = is := M.map_fst_traceFrom _ is

/-! ## Invariants -/

/-- A predicate that survives one step survives a run. -/
theorem runFrom_induct {I : σ → Prop} (step : ∀ s i, I s → I (M.step s i).2) :
    ∀ (is : List ι) (s : σ), I s → I (M.runFrom s is)
  | [], _, holds => holds
  | i :: is, s, holds => runFrom_induct step is _ (step s i holds)

theorem Reachable.induct {M : Machine σ ι ο} {I : σ → Prop} {s : σ} (reached : M.Reachable s)
    (start : I M.start) (step : ∀ s i, I s → I (M.step s i).2) : I s := by
  obtain ⟨is, rfl⟩ := reached
  exact M.runFrom_induct step is _ start

/-- A relation between the state and its history holds of every run if it holds
at the start and each step extends it by the input and the answer just given. -/
theorem history_induct {R : σ → List (ι × ο) → Prop} (start : R M.start [])
    (step : ∀ s h i, R s h → R (M.step s i).2 (h ++ [(i, (M.step s i).1)])) (is : List ι) :
    R (M.run is) (M.trace is) := by
  induction is using List.reverseRecOn with
  | nil => exact start
  | append_singleton is i ih =>
      rw [run_concat, trace_concat]
      exact step _ _ _ ih

/-- A relation between the inputs of a run and the state they lead to. -/
theorem run_induct {R : List ι → σ → Prop} (start : R [] M.start)
    (step : ∀ is i, R is (M.run is) → R (is ++ [i]) (M.step (M.run is) i).2) (is : List ι) :
    R is (M.run is) := by
  induction is using List.reverseRecOn with
  | nil => exact start
  | append_singleton is i ih =>
      rw [run_concat]
      exact step is i ih

/-! ## Conditions along a run -/

/-- Every state the run passes through satisfies `P`. -/
def Always (P : σ → Prop) (is : List ι) : Prop :=
  ∀ js, js <+: is → P (M.run js)

/-- Every step of the run meets `C` at the state before it. -/
def AllSteps (C : σ → ι → Prop) (is : List ι) : Prop :=
  ∀ js i, js ++ [i] <+: is → C (M.run js) i

theorem allSteps_nil (C : σ → ι → Prop) : M.AllSteps C [] := by
  intro js i h
  simp at h

theorem allSteps_concat (C : σ → ι → Prop) (is : List ι) (i : ι) :
    M.AllSteps C (is ++ [i]) ↔ M.AllSteps C is ∧ C (M.run is) i := by
  constructor
  · intro all
    exact ⟨fun js j h => all js j (h.trans (List.prefix_append _ _)), all is i List.prefix_rfl⟩
  · rintro ⟨all, last⟩ js j h
    rcases List.prefix_concat_iff.mp h with same | shorter
    · obtain ⟨rfl, one⟩ := List.append_inj' same rfl
      cases one
      exact last
    · exact all js j shorter

theorem AllSteps.take {M : Machine σ ι ο} {C : σ → ι → Prop} {is js : List ι}
    (all : M.AllSteps C is) (h : js <+: is) : M.AllSteps C js :=
  fun ks i h' => all ks i (h'.trans h)

theorem allSteps_of_forall {C : σ → ι → Prop} {is : List ι} (all : ∀ i ∈ is, ∀ s, C s i) :
    M.AllSteps C is :=
  fun _ i h => all i (h.subset (List.mem_append_right _ (List.mem_singleton_self i))) _

theorem AllSteps.append_of_forall {M : Machine σ ι ο} {C : σ → ι → Prop} {is js : List ι}
    (all : M.AllSteps C is) (more : ∀ i ∈ js, ∀ s, C s i) : M.AllSteps C (is ++ js) := by
  induction js using List.reverseRecOn with
  | nil => rwa [List.append_nil]
  | append_singleton js j ih =>
      rw [← List.append_assoc, allSteps_concat]
      exact ⟨ih fun i member => more i (List.mem_append_left _ member),
        more j (List.mem_append_right _ (List.mem_singleton_self j)) _⟩

/-- A run's answers have nothing of a kind exactly when no step gives one. -/
theorem filterMap_trace_eq_nil_iff {α : Type*} (kind : ι × ο → Option α) (is : List ι) :
    (M.trace is).filterMap kind = [] ↔
      M.AllSteps (fun s i => kind (i, (M.step s i).1) = none) is := by
  induction is using List.reverseRecOn with
  | nil => exact iff_of_true rfl (M.allSteps_nil _)
  | append_singleton is i ih =>
      rw [trace_concat, List.filterMap_append, List.append_eq_nil_iff, allSteps_concat, ih]
      refine and_congr_right fun _ => ?_
      simp only [List.filterMap_cons, List.filterMap_nil]
      cases kind (i, (M.step (M.run is) i).1) <;> simp

theorem always_concat (P : σ → Prop) (is : List ι) (i : ι) :
    M.Always P (is ++ [i]) ↔ M.Always P is ∧ P (M.step (M.run is) i).2 := by
  constructor
  · intro all
    refine ⟨fun js h => all js (h.trans (List.prefix_append _ _)), ?_⟩
    rw [← run_concat]
    exact all _ List.prefix_rfl
  · rintro ⟨all, last⟩ js h
    rcases List.prefix_concat_iff.mp h with rfl | shorter
    · rw [run_concat]
      exact last
    · exact all js shorter

/-- **Exact preservation.**  If in every reachable state that satisfies `P` a step
keeps `P` exactly when it meets `C`, then a run satisfies `P` throughout exactly
when all its steps meet `C`. -/
theorem always_iff_allSteps {P : σ → Prop} {C : σ → ι → Prop} (start : P M.start)
    (step : ∀ s i, M.Reachable s → P s → (P (M.step s i).2 ↔ C s i)) (is : List ι) :
    M.Always P is ↔ M.AllSteps C is := by
  induction is using List.reverseRecOn with
  | nil =>
      refine ⟨fun _ => M.allSteps_nil C, fun _ js h => ?_⟩
      rw [List.prefix_nil.mp h]
      exact start
  | append_singleton is i ih =>
      rw [always_concat, allSteps_concat, ih]
      refine and_congr_right fun all => ?_
      exact step _ _ (M.reachable_run is) (ih.mpr all is List.prefix_rfl)

/-! ## What a run puts out -/

section Emitted

variable {α : Type*} (out : σ → ι → List α)

/-- What the steps of a run put out, each nothing, one thing or several. -/
def emittedFrom : σ → List ι → List α
  | _, [] => []
  | s, i :: is => out s i ++ emittedFrom (M.step s i).2 is

def emitted (is : List ι) : List α := M.emittedFrom out M.start is

theorem emittedFrom_append (s : σ) (is js : List ι) :
    M.emittedFrom out s (is ++ js) =
      M.emittedFrom out s is ++ M.emittedFrom out (M.runFrom s is) js := by
  induction is generalizing s with
  | nil => rfl
  | cons i is ih => simp only [List.cons_append, emittedFrom, runFrom, ih, List.append_assoc]

theorem emitted_concat (is : List ι) (i : ι) :
    M.emitted out (is ++ [i]) = M.emitted out is ++ out (M.run is) i := by
  rw [emitted, emittedFrom_append]
  simp only [emittedFrom, List.append_nil]
  rfl

/-- Where a step adds to the state what it puts out, the state holds all that was put out. -/
theorem emitted_perm {out : σ → ι → List α} (held : σ → List α) (start : held M.start = [])
    (step : ∀ s i, (held (M.step s i).2).Perm (held s ++ out s i)) (is : List ι) :
    (M.emitted out is).Perm (held (M.run is)) := by
  induction is using List.reverseRecOn with
  | nil =>
      show [].Perm (held M.start)
      rw [start]
  | append_singleton is i ih =>
      rw [emitted_concat, run_concat]
      exact (ih.append_right _).trans (step _ i).symm

end Emitted

/-! ## Simulation -/

/-- Two machines whose steps answer alike and keep a relation between their states answer
every run alike. -/
theorem simulation {τ : Type*} {N : Machine τ ι ο} {R : σ → τ → Prop} (start : R M.start N.start)
    (step : ∀ s t i, R s t → (M.step s i).1 = (N.step t i).1 ∧ R (M.step s i).2 (N.step t i).2)
    (is : List ι) : M.trace is = N.trace is ∧ R (M.run is) (N.run is) := by
  induction is using List.reverseRecOn with
  | nil => exact ⟨rfl, start⟩
  | append_singleton is i ih =>
      obtain ⟨same, related⟩ := ih
      obtain ⟨answer, next⟩ := step _ _ i related
      rw [trace_concat, trace_concat, run_concat, run_concat, same, answer]
      exact ⟨rfl, next⟩

/-! ## Components -/

/-- `C` is the part of `M` that the selected inputs drive: `view` reads its state
off `M`'s, `sel` names the inputs it takes, and every other input leaves it alone. -/
structure Component {τ κ : Type*} (C : Machine τ κ ο) where
  view : σ → τ
  sel : ι → Option κ
  view_start : view M.start = C.start
  selected : ∀ s i k, sel i = some k →
    (M.step s i).1 = (C.step (view s) k).1 ∧ view (M.step s i).2 = (C.step (view s) k).2
  other : ∀ s i, sel i = none → view (M.step s i).2 = view s

namespace Component

variable {M} {τ κ : Type*} {C : Machine τ κ ο} (K : M.Component C)

/-- The answers a history gives to the selected inputs, in order. -/
def answers (h : List (ι × ο)) : List ο :=
  h.filterMap fun io => (K.sel io.1).map fun _ => io.2

theorem view_runFrom (is : List ι) (s : σ) :
    K.view (M.runFrom s is) = C.runFrom (K.view s) (is.filterMap K.sel) := by
  induction is generalizing s with
  | nil => rfl
  | cons i is ih =>
      simp only [runFrom, ih]
      cases chosen : K.sel i with
      | none => simp only [List.filterMap_cons, chosen, K.other s i chosen]
      | some k => simp only [List.filterMap_cons, chosen, runFrom, (K.selected s i k chosen).2]

theorem answers_traceFrom (is : List ι) (s : σ) :
    K.answers (M.traceFrom s is) =
      (C.traceFrom (K.view s) (is.filterMap K.sel)).map Prod.snd := by
  induction is generalizing s with
  | nil => rfl
  | cons i is ih =>
      have rest := ih (M.step s i).2
      unfold answers at rest ⊢
      cases chosen : K.sel i with
      | none =>
          rw [K.other s i chosen] at rest
          simp only [traceFrom, List.filterMap_cons, chosen, Option.map_none, rest]
      | some k =>
          obtain ⟨answer, moved⟩ := K.selected s i k chosen
          rw [moved] at rest
          simp only [traceFrom, List.filterMap_cons, chosen, Option.map_some, rest, List.map_cons,
            answer]

/-- A component sees of a run only the inputs it takes. -/
theorem view_run (is : List ι) : K.view (M.run is) = C.run (is.filterMap K.sel) := by
  rw [run, view_runFrom, K.view_start, run]

/-- What a run answers to a component's inputs is what the component answers. -/
theorem answers_run (is : List ι) :
    K.answers (M.trace is) = (C.trace (is.filterMap K.sel)).map Prod.snd := by
  rw [trace, answers_traceFrom, K.view_start, trace]

end Component

/-! ## Driven parts -/

/-- `C` is a part of `M` that `M` drives itself: a step gives it at most one input, which
may depend on the state the step is taken in. -/
structure Driver {τ κ π : Type*} (C : Machine τ κ π) where
  view : σ → τ
  command : σ → ι → Option κ
  view_start : view M.start = C.start
  driven : ∀ s i, view (M.step s i).2 = C.runFrom (view s) (command s i).toList

namespace Driver

variable {M} {τ κ π : Type*} {C : Machine τ κ π} (D : M.Driver C)

def commandsFrom : σ → List ι → List κ
  | _, [] => []
  | s, i :: is => (D.command s i).toList ++ commandsFrom (M.step s i).2 is

/-- The inputs a run gives to the driven part. -/
def commands (is : List ι) : List κ := D.commandsFrom M.start is

theorem commandsFrom_append (s : σ) (is js : List ι) :
    D.commandsFrom s (is ++ js) = D.commandsFrom s is ++ D.commandsFrom (M.runFrom s is) js := by
  induction is generalizing s with
  | nil => rfl
  | cons i is ih => simp only [List.cons_append, commandsFrom, runFrom, ih, List.append_assoc]

theorem commands_append (is js : List ι) :
    D.commands (is ++ js) = D.commands is ++ D.commandsFrom (M.run is) js :=
  D.commandsFrom_append _ is js

@[simp] theorem commands_nil : D.commands [] = [] := rfl

@[simp] theorem commands_concat (is : List ι) (i : ι) :
    D.commands (is ++ [i]) = D.commands is ++ (D.command (M.run is) i).toList := by
  rw [commands_append]
  simp only [commandsFrom, List.append_nil]

theorem view_runFrom (is : List ι) (s : σ) :
    D.view (M.runFrom s is) = C.runFrom (D.view s) (D.commandsFrom s is) := by
  induction is generalizing s with
  | nil => rfl
  | cons i is ih => rw [runFrom, ih, D.driven, commandsFrom, runFrom_append]

/-- A driven part is where its own inputs bring it. -/
theorem view_run (is : List ι) : D.view (M.run is) = C.run (D.commands is) := by
  rw [run, view_runFrom, D.view_start]
  rfl

end Driver

end Machine

end PatientAccess.Theory
