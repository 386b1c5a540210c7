/-
# Theory.Mapping -- a keyed table with total lookup

A `Mapping K V` answers every key: `none` where nothing was stored, and the last
value stored otherwise.  Storing is the only write (`insert`); there is no
removal, so a key that is present stays present (`contains_insert`).

`get_insert` is the one fact the rest needs: a store is seen at its own key and
nowhere else.
-/
import Mathlib.Data.Option.Basic
import Mathlib.Data.List.Basic

namespace PatientAccess.Theory

set_option autoImplicit false

/-- A table that answers every key. -/
structure Mapping (K V : Type*) where
  get : K → Option V

namespace Mapping

variable {K V : Type*}

@[ext] theorem ext {m m' : Mapping K V} (same : ∀ k, m.get k = m'.get k) : m = m' := by
  cases m
  cases m'
  congr
  funext k
  exact same k

/-- The table with nothing stored. -/
def empty : Mapping K V := ⟨fun _ => none⟩

/-- The value stored at `k`, or `d` where nothing is. -/
def getD (m : Mapping K V) (k : K) (d : V) : V := (m.get k).getD d

def contains (m : Mapping K V) (k : K) : Bool := (m.get k).isSome

@[simp] theorem getD_empty (k : K) (d : V) : (empty : Mapping K V).getD k d = d := rfl

variable [DecidableEq K]

/-- Store `v` at `k`, replacing what was there. -/
def insert (m : Mapping K V) (k : K) (v : V) : Mapping K V :=
  ⟨fun k' => if k' = k then some v else m.get k'⟩

theorem get_insert (m : Mapping K V) (k k' : K) (v : V) :
    (m.insert k v).get k' = if k' = k then some v else m.get k' := rfl

@[simp] theorem get_insert_self (m : Mapping K V) (k : K) (v : V) :
    (m.insert k v).get k = some v := by
  simp [get_insert]

@[simp] theorem get_insert_of_ne (m : Mapping K V) {k k' : K} (v : V) (ne : k' ≠ k) :
    (m.insert k v).get k' = m.get k' := by
  simp [get_insert, ne]

/-- Stores at different keys commute. -/
theorem insert_comm (m : Mapping K V) {k k' : K} (v v' : V) (ne : k ≠ k') :
    (m.insert k v).insert k' v' = (m.insert k' v').insert k v := by
  apply ext
  intro j
  simp only [get_insert]
  by_cases first : j = k
  · subst first
    simp [ne]
  · simp [first]

theorem getD_insert (m : Mapping K V) (k k' : K) (v d : V) :
    (m.insert k v).getD k' d = if k' = k then v else m.getD k' d := by
  by_cases h : k' = k <;> simp [getD, h]

theorem contains_insert (m : Mapping K V) (k k' : K) (v : V) :
    (m.insert k v).contains k' = (decide (k' = k) || m.contains k') := by
  by_cases h : k' = k <;> simp [contains, h]

/-- Store every pair, in order. -/
def insertAll (m : Mapping K V) (kvs : List (K × V)) : Mapping K V :=
  kvs.foldl (fun m kv => m.insert kv.1 kv.2) m

theorem get_insertAll_of_not_mem (m : Mapping K V) {kvs : List (K × V)} {k : K}
    (absent : k ∉ kvs.map Prod.fst) : (m.insertAll kvs).get k = m.get k := by
  induction kvs generalizing m with
  | nil => rfl
  | cons kv kvs ih =>
      rw [List.map_cons, List.mem_cons, not_or] at absent
      rw [insertAll, List.foldl_cons, ← insertAll, ih _ absent.2, get_insert_of_ne m _ absent.1]

/-- Of pairs with different keys, each is found at its key. -/
theorem get_insertAll_of_mem (m : Mapping K V) {kvs : List (K × V)}
    (distinct : (kvs.map Prod.fst).Nodup) {k : K} {v : V} (present : (k, v) ∈ kvs) :
    (m.insertAll kvs).get k = some v := by
  induction kvs generalizing m with
  | nil => cases present
  | cons kv kvs ih =>
      rw [List.map_cons, List.nodup_cons] at distinct
      rw [insertAll, List.foldl_cons, ← insertAll]
      rcases List.mem_cons.mp present with rfl | later
      · rw [get_insertAll_of_not_mem _ distinct.1, get_insert_self]
      · exact ih _ distinct.2 later

end Mapping

end PatientAccess.Theory
