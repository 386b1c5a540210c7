/-
# Theory.InOrder -- messages executed in the order of their numbers

Messages are numbered by a counter (`Theory.Tickets`); message number `first + k` is
the `k`-th one issued.  A receiver takes them in any order, keeps them in a pool, may
drop some, and executes one only when all before it have been executed.

`InOrder` relates the numbers the receiver was given, its pool, what it dropped and
what it executed.  What is executed is always the beginning of what was issued
(`InOrder.done_first`), so a number that is lost or dropped is where execution stops
for good (`InOrder.done_le`), and where nothing was, the pool holds all that is left
(`InOrder.pool_perm`).
-/
import PatientAccess.Theory.Tickets

namespace PatientAccess.Theory.Tickets

set_option autoImplicit false

variable {α : Type*} {first next : Nat} {held used lost dropped : List Nat}
  {pool : List (Nat × α)} {done issued : List α}

/-- The numbers used are executed, in the pool or dropped, each once. -/
structure InOrder (first : Nat) (issued : List α) (used : List Nat) (pool : List (Nat × α))
    (dropped : List Nat) (done : List α) : Prop where
  perm : used.Perm (List.range' first done.length ++ pool.map Prod.fst ++ dropped)
  content : ∀ p ∈ pool, issued[p.1 - first]? = some p.2
  done_first : done <+: issued

theorem inOrder_start (first : Nat) : InOrder first ([] : List α) [] [] [] [] where
  perm := by simp
  content p member := absurd member List.not_mem_nil
  done_first := List.prefix_rfl

namespace InOrder

/-- More is issued. -/
theorem issue (order : InOrder first issued used pool dropped done) (more : List α) :
    InOrder first (issued ++ more) used pool dropped done where
  perm := order.perm
  content p member := by
    have here := order.content p member
    rw [List.getElem?_append_left (List.getElem?_eq_some_iff.mp here).1]
    exact here
  done_first := order.done_first.trans (List.prefix_append _ _)

/-- A message arrives. -/
theorem accept {n : Nat} {a : α} (order : InOrder first issued used pool dropped done)
    (message : issued[n - first]? = some a) :
    InOrder first issued (used ++ [n]) (pool ++ [(n, a)]) dropped done where
  perm := by
    refine (order.perm.append_right [n]).trans ?_
    rw [List.map_append, List.append_assoc, ← List.append_assoc _ (pool.map Prod.fst),
      List.append_assoc _ _ dropped]
    exact (List.perm_append_comm).append_left _
  content p member := by
    rcases List.mem_append.mp member with old | new
    · exact order.content p old
    · rw [List.mem_singleton.mp new]
      exact message
  done_first := order.done_first

/-- A message leaves the pool unexecuted. -/
theorem drop {p : Nat × α} {pool' : List (Nat × α)}
    (order : InOrder first issued used pool dropped done) (split : pool.Perm (p :: pool')) :
    InOrder first issued used pool' (dropped ++ [p.1]) done where
  perm := by
    refine order.perm.trans ?_
    rw [List.append_assoc, List.append_assoc]
    refine List.Perm.append_left _ ?_
    refine ((split.map Prod.fst).append_right dropped).trans ?_
    rw [← List.append_assoc]
    exact (List.perm_append_singleton p.1 _).symm
  content q member := order.content q (split.mem_iff.mpr (List.mem_cons_of_mem _ member))
  done_first := order.done_first

/-- The message whose turn it is is executed. -/
theorem execute {p : Nat × α} {pool' : List (Nat × α)}
    (order : InOrder first issued used pool dropped done) (split : pool.Perm (p :: pool'))
    (turn : p.1 = first + done.length) :
    InOrder first issued used pool' dropped (done ++ [p.2]) where
  perm := by
    refine order.perm.trans ?_
    rw [List.length_append, List.length_singleton, List.range'_concat, Nat.one_mul, ← turn,
      List.append_assoc, List.append_assoc, List.append_assoc]
    refine List.Perm.append_left _ ?_
    exact (split.map Prod.fst).append_right dropped
  content q member := order.content q (split.mem_iff.mpr (List.mem_cons_of_mem _ member))
  done_first := by
    have message := order.content p (split.mem_iff.mpr List.mem_cons_self)
    have here : issued[done.length]? = some p.2 := by
      rw [← message]
      congr 1
      omega
    obtain ⟨rest, rfl⟩ := order.done_first
    rw [List.getElem?_append_right le_rfl, Nat.sub_self] at here
    match rest, here with
    | q :: rest, here =>
        cases here
        exact ⟨rest, by simp⟩

theorem nodup (order : InOrder first issued used pool dropped done)
    (acc : Accounted first next held used lost) :
    (List.range' first done.length ++ pool.map Prod.fst ++ dropped).Nodup :=
  order.perm.nodup_iff.mp acc.used_nodup

/-- **Execution stops** at a number that is lost or dropped. -/
theorem done_le {n : Nat} (order : InOrder first issued used pool dropped done)
    (acc : Accounted first next held used lost) (gone : n ∈ lost ∨ n ∈ dropped) :
    first + done.length ≤ n := by
  by_contra executed
  have all : (held ++ used ++ lost).Nodup := acc.perm.nodup_iff.mpr List.nodup_range'
  have above : first ≤ n := by
    have handedOut : n ∈ held ++ used ++ lost := by
      rcases gone with isLost | isDropped
      · exact List.mem_append_right _ isLost
      · have given : n ∈ used := order.perm.mem_iff.mpr (List.mem_append_right _ isDropped)
        exact List.mem_append_left _ (List.mem_append_right _ given)
    exact (List.mem_range'_1.mp (acc.perm.mem_iff.mp handedOut)).1
  have inRange : n ∈ List.range' first done.length := List.mem_range'_1.mpr ⟨above, by omega⟩
  rcases gone with isLost | isDropped
  · have given : n ∈ used :=
      order.perm.mem_iff.mpr (List.mem_append_left _ (List.mem_append_left _ inRange))
    exact (List.nodup_append.mp all).2.2 n (List.mem_append_right _ given) n isLost rfl
  · exact (List.nodup_append.mp (order.nodup acc)).2.2 n (List.mem_append_left _ inRange) n
      isDropped rfl

/-- **Nothing else is missing.**  With nothing held, lost or dropped, the pool holds the
numbers handed out and not executed. -/
theorem pool_perm (order : InOrder first issued used pool [] done)
    (acc : Accounted first next [] used []) :
    (pool.map Prod.fst).Perm
      (List.range' (first + done.length) (next - (first + done.length))) := by
  have counted := acc.perm
  rw [List.nil_append, List.append_nil] at counted
  have both := order.perm.symm.trans counted
  rw [List.append_nil] at both
  have sizes := both.length_eq
  rw [List.length_append, List.length_range', List.length_range'] at sizes
  have cut : List.range' first (next - first) = List.range' first done.length ++
      List.range' (first + done.length) (next - (first + done.length)) := by
    have total : next - first = done.length + (next - (first + done.length)) := by omega
    rw [total, ← List.range'_append_1]
  rw [cut] at both
  exact (List.perm_append_left_iff _).mp both

end InOrder

end PatientAccess.Theory.Tickets
