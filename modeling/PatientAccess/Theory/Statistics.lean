/-
# Theory.Statistics -- median, mode and mean of lists, and grouping

The statistics of a list as they are taken from it: the median from the list sorted, the
mode as the value met first of those met most often, the mean from the exact sum.

Of a list in another order median and mean are the same (`median_perm`, `mean_perm`), and
the mode is met as often (`frequency_mode_perm`).  Each is within the bounds of the values
(`median_between`, `mode_mem`, `mean_between`).

`groups` files the items of a list under their keys, as a loop does that fills a table of
lists, and `filed_groups` says what is in the table then.
-/
import PatientAccess.Theory.Doubles
import Mathlib.Algebra.BigOperators.Group.List.Basic
import Mathlib.Data.List.MinMax
import Mathlib.Data.List.Sort

namespace PatientAccess.Theory.Statistics

open PatientAccess.Theory.Doubles

set_option autoImplicit false

/-! ## The median -/

section Order

variable {α : Type*} [LinearOrder α]

def sorted (l : List α) : List α := l.insertionSort (· ≤ ·)

/-- The item in the middle of a list, or what `middle` makes of the two there. -/
def inMiddle (middle : α → α → α) (s : List α) : Option α :=
  if s.length % 2 = 1 then s[s.length / 2]?
  else
    match s[s.length / 2 - 1]?, s[s.length / 2]? with
    | some a, some b => some (middle a b)
    | _, _ => none

def median (middle : α → α → α) (l : List α) : Option α := inMiddle middle (sorted l)

theorem sorted_perm (l : List α) : (sorted l).Perm l := List.perm_insertionSort _ l

theorem sorted_eq_of_perm {l k : List α} (same : l.Perm k) : sorted l = sorted k := by
  have perm := (sorted_perm l).trans (same.trans (sorted_perm k).symm)
  exact List.Perm.eq_of_pairwise (fun a b _ _ => le_antisymm) (List.pairwise_insertionSort _ l)
    (List.pairwise_insertionSort _ k) perm

theorem median_perm (middle : α → α → α) {l k : List α} (same : l.Perm k) :
    median middle l = median middle k := by
  rw [median, median, sorted_eq_of_perm same]

/-- The median has what all items have, if the middle of two in order has it too. -/
theorem median_of_forall {P : α → Prop} {middle : α → α → α}
    (closed : ∀ a b, P a → P b → a ≤ b → P (middle a b)) {l : List α} (all : ∀ x ∈ l, P x) {m : α}
    (is : median middle l = some m) : P m := by
  have allSorted : ∀ x ∈ sorted l, P x := fun x member => all x ((sorted_perm l).subset member)
  unfold median inMiddle at is
  split at is
  · exact allSorted m (List.mem_of_getElem? is)
  · split at is
    · next a b low high =>
      cases is
      refine closed a b (allSorted a (List.mem_of_getElem? low))
        (allSorted b (List.mem_of_getElem? high)) ?_
      obtain ⟨inLow, rfl⟩ := List.getElem?_eq_some_iff.mp low
      obtain ⟨inHigh, rfl⟩ := List.getElem?_eq_some_iff.mp high
      have inOrder := List.pairwise_insertionSort (· ≤ ·) l
      exact (List.pairwise_iff_getElem.mp inOrder) _ _ inLow inHigh (by omega)
    · cases is

theorem isSome_median (middle : α → α → α) {l : List α} (nonempty : l ≠ []) :
    (median middle l).isSome = true := by
  have positive : 0 < (sorted l).length := by
    rw [(sorted_perm l).length_eq]
    exact List.length_pos_iff.mpr nonempty
  unfold median inMiddle
  split
  · rw [List.getElem?_eq_getElem (by omega)]
    rfl
  · rw [List.getElem?_eq_getElem (by omega), List.getElem?_eq_getElem (by omega)]
    rfl

end Order

/-! ## The mode -/

/-- How often a value is met.  What is no number equals nothing, and each is met once. -/
def frequency (l : List Double) (x : Double) : Nat := if x = .nan then 1 else l.count x

/-- Of the values met most often, the one met first. -/
def mode (l : List Double) : Option Double := l.argmax (frequency l)

theorem frequency_perm {l k : List Double} (same : l.Perm k) : frequency l = frequency k := by
  funext x
  rw [frequency, frequency, same.count_eq]

theorem mode_mem {l : List Double} {m : Double} (is : mode l = some m) : m ∈ l := List.argmax_mem is

theorem frequency_le_mode {l : List Double} {m x : Double} (is : mode l = some m) (member : x ∈ l) :
    frequency l x ≤ frequency l m := List.le_of_mem_argmax member is

/-- The modes of a list in two orders are met equally often. -/
theorem frequency_mode_perm {l k : List Double} (same : l.Perm k) {m n : Double}
    (isM : mode l = some m) (isN : mode k = some n) : frequency l m = frequency l n := by
  refine le_antisymm ?_ (frequency_le_mode isM (same.symm.subset (mode_mem isN)))
  rw [frequency_perm same]
  exact frequency_le_mode isN (same.subset (mode_mem isM))

theorem isSome_mode {l : List Double} (nonempty : l ≠ []) : (mode l).isSome = true := by
  rw [Option.isSome_iff_ne_none]
  exact fun none => nonempty (List.argmax_eq_none.mp none)

/-! ## The mean -/

/-- The mean of doubles: the double nearest to that of the exact numbers.  An infinity
among them is the mean; two different ones, or what is no number, leave none. -/
def mean (l : List Double) : Option Double :=
  if l = [] then none
  else if ∀ x ∈ l, x.isFinite = true then some (.ofRat ((l.map Double.value).sum / l.length))
  else if .nan ∈ l ∨ (.infinity true ∈ l ∧ .infinity false ∈ l) then some .nan
  else some (.infinity (decide (.infinity true ∈ l)))

theorem mean_perm {l k : List Double} (same : l.Perm k) : mean l = mean k := by
  have empty : l = [] ↔ k = [] :=
    ⟨fun nothing => (nothing ▸ same).nil_eq.symm, fun nothing => (nothing ▸ same).eq_nil⟩
  have sum : (l.map Double.value).sum = (k.map Double.value).sum := (same.map _).sum_eq
  simp only [mean, empty, sum, same.length_eq, same.mem_iff]

theorem isSome_mean {l : List Double} (nonempty : l ≠ []) : (mean l).isSome = true := by
  rw [mean, if_neg nonempty]
  split
  · rfl
  · split
    · rfl
    · rfl

theorem sum_between {lo hi : ℚ} {qs : List ℚ} (all : ∀ q ∈ qs, lo ≤ q ∧ q ≤ hi) :
    lo * qs.length ≤ qs.sum ∧ qs.sum ≤ hi * qs.length := by
  induction qs with
  | nil => simp
  | cons q qs ih =>
      obtain ⟨first, rest⟩ := List.forall_mem_cons.mp all
      obtain ⟨low, high⟩ := ih rest
      rw [List.sum_cons, List.length_cons]
      push_cast
      constructor
      · linarith [first.1]
      · linarith [first.2]

/-- The mean is between two numbers that all values are between. -/
theorem mean_between {lo hi : ℚ} {fitsLo : Fits lo} {fitsHi : Fits hi} {l : List Double}
    (all : ∀ x ∈ l, .finite lo fitsLo ≤ x ∧ x ≤ .finite hi fitsHi) {m : Double}
    (is : mean l = some m) : .finite lo fitsLo ≤ m ∧ m ≤ .finite hi fitsHi := by
  have finite : ∀ x ∈ l, x.isFinite = true := by
    intro x member
    obtain ⟨q, fits, rfl, -⟩ := Double.exists_finite (all x member).1 (all x member).2
    rfl
  have values : ∀ q ∈ l.map Double.value, lo ≤ q ∧ q ≤ hi := by
    intro q member
    obtain ⟨x, inList, rfl⟩ := List.mem_map.mp member
    obtain ⟨q, fits, rfl, low, high⟩ := Double.exists_finite (all x inList).1 (all x inList).2
    exact ⟨low, high⟩
  rcases eq_or_ne l [] with rfl | nonempty
  · exact absurd is (by simp [mean])
  · rw [mean, if_neg nonempty, if_pos finite] at is
    cases is
    have positive : (0 : ℚ) < l.length := by exact_mod_cast List.length_pos_iff.mpr nonempty
    obtain ⟨low, high⟩ := sum_between values
    rw [List.length_map] at low high
    exact Double.ofRat_between fitsLo fitsHi ((le_div_iff₀ positive).mpr low)
      ((div_le_iff₀ positive).mpr high)

/-! ## The middle of two doubles -/

/-- `(a + b) / 2`, rounded twice. -/
def middle (a b : Double) : Double := (a.add b).half

/-- It is between two numbers that both are between, if these can be doubled. -/
theorem middle_between {lo hi : ℚ} {fitsLo : Fits lo} {fitsHi : Fits hi} (twiceLo : Fits (2 * lo))
    (twiceHi : Fits (2 * hi)) {a b : Double} (isA : .finite lo fitsLo ≤ a ∧ a ≤ .finite hi fitsHi)
    (isB : .finite lo fitsLo ≤ b ∧ b ≤ .finite hi fitsHi) :
    .finite lo fitsLo ≤ middle a b ∧ middle a b ≤ .finite hi fitsHi := by
  obtain ⟨q, fitsQ, rfl, lowQ, highQ⟩ := Double.exists_finite isA.1 isA.2
  obtain ⟨r, fitsR, rfl, lowR, highR⟩ := Double.exists_finite isB.1 isB.2
  have sum := Double.ofRat_between twiceLo twiceHi (q := q + r) (by linarith) (by linarith)
  obtain ⟨t, fitsT, same, lowT, highT⟩ := Double.exists_finite sum.1 sum.2
  rw [middle, Double.add, same, Double.half]
  exact Double.ofRat_between fitsLo fitsHi (by linarith) (by linarith)

/-! ## Groups -/

section Groups

variable {α κ : Type*} [DecidableEq κ]

/-- Appends an item to the list under its key, which is there or is added at the end. -/
def file (key : κ) (x : α) : List (κ × List α) → List (κ × List α)
  | [] => [(key, [x])]
  | (k, xs) :: g => if k = key then (k, xs ++ [x]) :: g else (k, xs) :: file key x g

def groups (key : α → κ) (l : List α) : List (κ × List α) :=
  l.foldl (fun g x => file (key x) x g) []

/-- The table has every key once, and under it the items with that key, in order. -/
structure Filed (key : α → κ) (l : List α) (g : List (κ × List α)) : Prop where
  nodup : (g.map Prod.fst).Nodup
  exact : ∀ p ∈ g, p.2 = l.filter fun x => key x = p.1
  keys : ∀ k, k ∈ g.map Prod.fst ↔ k ∈ l.map key

theorem map_fst_file (key : κ) (x : α) (g : List (κ × List α)) :
    (file key x g).map Prod.fst =
      if key ∈ g.map Prod.fst then g.map Prod.fst else g.map Prod.fst ++ [key] := by
  induction g with
  | nil => rfl
  | cons p g ih =>
      obtain ⟨k, xs⟩ := p
      rw [file]
      by_cases here : k = key
      · subst here
        simp
      · rw [if_neg here, List.map_cons, ih]
        by_cases later : key ∈ g.map Prod.fst
        · simp [later]
        · simp [later, Ne.symm here]

/-- A list in the table is another than that of the key and as it was, or that of the key
with the item at its end. -/
theorem mem_file {key : κ} {x : α} {g : List (κ × List α)} (nodup : (g.map Prod.fst).Nodup)
    {p : κ × List α} (member : p ∈ file key x g) :
    (p ∈ g ∧ p.1 ≠ key) ∨ (p.1 = key ∧ ∃ xs, p.2 = xs ++ [x] ∧
      ((key, xs) ∈ g ∨ (xs = [] ∧ key ∉ g.map Prod.fst))) := by
  induction g with
  | nil =>
      rw [List.mem_singleton.mp member]
      exact .inr ⟨rfl, [], rfl, .inr ⟨rfl, List.not_mem_nil⟩⟩
  | cons q g ih =>
      obtain ⟨k, xs⟩ := q
      rw [List.map_cons, List.nodup_cons] at nodup
      rw [file] at member
      by_cases here : k = key
      · subst here
        rw [if_pos rfl] at member
        rcases List.mem_cons.mp member with rfl | later
        · exact .inr ⟨rfl, xs, rfl, .inl List.mem_cons_self⟩
        · refine .inl ⟨List.mem_cons_of_mem _ later, fun same => nodup.1 ?_⟩
          exact List.mem_map.mpr ⟨p, later, same⟩
      · rw [if_neg here] at member
        rcases List.mem_cons.mp member with rfl | later
        · exact .inl ⟨List.mem_cons_self, here⟩
        · rcases ih nodup.2 later with ⟨old, other⟩ | ⟨same, ys, list, old | ⟨rfl, absent⟩⟩
          · exact .inl ⟨List.mem_cons_of_mem _ old, other⟩
          · exact .inr ⟨same, ys, list, .inl (List.mem_cons_of_mem _ old)⟩
          · refine .inr ⟨same, [], list, .inr ⟨rfl, ?_⟩⟩
            rw [List.map_cons, List.mem_cons]
            rintro (now | later)
            · exact here now.symm
            · exact absent later

theorem Filed.file {key : α → κ} {l : List α} {g : List (κ × List α)} (filed : Filed key l g)
    (x : α) : Filed key (l ++ [x]) (file (key x) x g) where
  nodup := by
    rw [map_fst_file]
    split
    · exact filed.nodup
    · next absent =>
      rw [List.nodup_append]
      refine ⟨filed.nodup, List.nodup_singleton _, ?_⟩
      intro k member k' last
      rw [List.mem_singleton.mp last]
      rintro rfl
      exact absent member
  exact p member := by
    rw [List.filter_append]
    rcases mem_file filed.nodup member with ⟨old, other⟩ | ⟨same, xs, list, old | ⟨rfl, absent⟩⟩
    · rw [filed.exact p old]
      simp [Ne.symm other]
    · have before := filed.exact _ old
      simp only at before
      rw [list, before, same]
      simp
    · have nobody : l.filter (fun y => key y = p.1) = [] := by
        rw [List.filter_eq_nil_iff]
        intro y inList isKey
        rw [filed.keys] at absent
        rw [← same, ← of_decide_eq_true isKey] at absent
        exact absent (List.mem_map_of_mem inList)
      rw [list, nobody, same]
      simp
  keys k := by
    rw [map_fst_file, List.map_append, List.mem_append, ← filed.keys]
    split
    · next present =>
      constructor
      · exact .inl
      · rintro (old | last)
        · exact old
        · rw [List.mem_singleton.mp last]
          exact present
    · rw [List.mem_append]
      rfl

theorem filed_groups (key : α → κ) (l : List α) : Filed key l (groups key l) := by
  induction l using List.reverseRecOn with
  | nil => exact ⟨List.nodup_nil, fun p member => absurd member List.not_mem_nil, fun k => Iff.rfl⟩
  | append_singleton l x ih =>
      rw [groups, List.foldl_append]
      exact ih.file x

/-- Filed under keys that are different, the items with these keys are there once each. -/
theorem flatMap_filter_perm (key : α → κ) (l : List α) {ks : List κ} (nodup : ks.Nodup) :
    (ks.flatMap fun k => l.filter fun x => key x = k).Perm (l.filter fun x => key x ∈ ks) := by
  induction ks with
  | nil => simp
  | cons k ks ih =>
      obtain ⟨new, rest⟩ := List.nodup_cons.mp nodup
      have here : (l.filter fun x => key x ∈ k :: ks).filter (fun x => key x = k) =
          l.filter fun x => key x = k := by
        rw [List.filter_filter]
        refine List.filter_congr fun x _ => ?_
        by_cases isKey : key x = k
        · simp [isKey]
        · simp [isKey]
      have others : (l.filter fun x => key x ∈ k :: ks).filter (fun x => !decide (key x = k)) =
          l.filter fun x => key x ∈ ks := by
        rw [List.filter_filter]
        refine List.filter_congr fun x _ => ?_
        by_cases isKey : key x = k
        · simp [isKey, new]
        · simp [isKey]
      rw [List.flatMap_cons]
      refine List.Perm.trans ?_
        (List.filter_append_perm (fun x => decide (key x = k)) (l.filter fun x => key x ∈ k :: ks))
      rw [here, others]
      exact (ih rest).append_left _

/-- Under all keys there are, every item is once. -/
theorem flatMap_filter_perm_self (key : α → κ) (l : List α) {ks : List κ} (nodup : ks.Nodup)
    (all : ∀ x ∈ l, key x ∈ ks) : (ks.flatMap fun k => l.filter fun x => key x = k).Perm l := by
  have whole : l.filter (fun x => key x ∈ ks) = l :=
    List.filter_eq_self.mpr fun x member => decide_eq_true (all x member)
  have perm := flatMap_filter_perm key l nodup
  rwa [whole] at perm

end Groups

end PatientAccess.Theory.Statistics
