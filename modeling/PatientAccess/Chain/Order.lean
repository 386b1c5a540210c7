/-
# Chain.Order -- in which order the server's transactions are executed

The node's pool is an instance of `Theory.InOrder`, with the submissions the server began
for the messages issued (`node_inOrder`).  So the transactions executed are the first of
those that began, in the order in which they began (`executed_in_begin_order`); one that
is lost on the way to the node, or dropped there, is the last thing anyone waits for
(`nothing_after_lost`); and where none is, the node catches up with the server
(`node_catches_up`).
-/
import PatientAccess.Theory.InOrder
import PatientAccess.Server.Reports
import PatientAccess.Chain.Node

namespace PatientAccess.Chain

open PatientAccess.Theory
open PatientAccess.Contract (AccountId Call Env Reply contract)
open PatientAccess.Server

set_option autoImplicit false

/-! ## What the node is given -/

/-- The nonce a request's step uses is that of the transaction it submits. -/
theorem step_used {g g' : Globals} {r r' : Request} {e : RequestStep} {m : Tickets.Move}
    (stepped : r.step g e = some (m, r', g')) : m.used = (requestSubmits r e).map Prod.fst := by
  revert stepped
  fun_cases Request.step g r e with
  | case1 h rest locals w =>
      intro stepped
      have spec := h.goOn_spec w g locals rest
      rw [Option.some.inj stepped] at spec
      exact spec.2.2
  | case2 u | case3 u error | case4 u | case5 u error | case6 u ns n | case8 u s w error locals _ =>
      intro stepped
      cases stepped
      rfl
  | case7 u s w locals settled =>
      intro stepped
      cases stepped
  | case9 u s w value locals settled =>
      intro stepped
      have spec := u.handler.goOn_spec w g locals u.rest
      rw [Option.some.inj stepped] at spec
      exact spec.2.2
  | case10 =>
      intro stepped
      cases stepped

theorem requestSubmits_of_stuck {g : Globals} {r : Request} {e : RequestStep}
    (stuck : r.step g e = none) : requestSubmits r e = none := by
  unfold requestSubmits
  split
  · cases stuck
  · rfl

/-- A step of the server adds to the accepted nonces that of the transaction submitted. -/
theorem server_step_accepted (cfg : Config) (s : ServerState) (e : LoopStep) :
    ((Server.server cfg).step s e).2.accepted =
      s.accepted ++ ((submits s e).map Prod.fst).toList := by
  cases e with
  | arrive route generated b w => exact (List.append_nil _).symm
  | request id e =>
      rcases server_step_request cfg s id e with ⟨stuck, same⟩ | ⟨r, m, r', g, found, stepped, next⟩
      · have nothing : submits s (.request id e) = none := by
          rw [submits]
          cases found : s.requests[id]? with
          | none => rfl
          | some r =>
              rw [found, Option.bind_some] at stuck
              exact requestSubmits_of_stuck stuck
        rw [same, nothing]
        exact (List.append_nil _).symm
      · rw [next, submits, found, Option.bind_some, ← step_used stepped]

theorem submits_underway {s : ServerState} {e : LoopStep} {n : Nat} {sub : Submission}
    (given : submits s e = some (n, sub)) :
    ∃ id u, s.underway id = some u ∧ u.ticket.nonce = n ∧ u.submission = sub := by
  cases e with
  | arrive route generated b w => cases given
  | request id e =>
      obtain ⟨r, found, handed⟩ := Option.bind_eq_some_iff.mp given
      unfold requestSubmits at handed
      split at handed
      · rename_i u
        cases handed
        refine ⟨id, u, ?_, rfl, rfl⟩
        rw [ServerState.underway, found]
        rfl
      · cases handed

/-- The submissions that began along a run of the server, in order. -/
def began (net : Network) (es : List Step) : List Submission :=
  (begun net.server (loopSteps es)).map Begin.submission

/-- A transaction on its way to the node is the one its nonce was issued to. -/
theorem began_of_underway (net : Network) (es : List Step) {id : Nat} {u : Underway}
    (awaits : ((network net).run es).server.underway id = some u) :
    (began net es)[u.ticket.nonce - net.server.globals.aliceNonce]? = some u.submission := by
  rw [network_server] at awaits
  obtain ⟨k, b, given, -, same⟩ := underway_issued net.server _ awaits
  obtain ⟨nonce, -⟩ := issued_ticket net.server _ given
  have position : u.ticket.nonce - net.server.globals.aliceNonce = k := by omega
  have inTrace : (issued net.server (loopSteps es)).map Prod.fst =
      begun net.server (loopSteps es) := Machine.map_fst_trace _ _
  rw [position, began, ← inTrace, List.map_map, List.getElem?_map, given, ← same]
  rfl

/-! ## The pool -/

theorem perm_eraseP {pool : List (Nat × Submission)} {p : Nat × Submission} {n : Nat}
    (found : (pool.find? fun q => decide (q.1 = n)) = some p) :
    p.1 = n ∧ pool.Perm (p :: pool.eraseP fun q => decide (q.1 = p.1)) := by
  obtain ⟨isIt, before, after, rfl, others⟩ := List.find?_eq_some_iff_append.mp found
  have same : p.1 = n := of_decide_eq_true isIt
  have skipped : ∀ q ∈ before, ¬ decide (q.1 = p.1) = true := by
    intro q member
    rw [same]
    simpa using others q member
  refine ⟨same, ?_⟩
  rw [List.eraseP_append_right _ skipped, List.eraseP_cons_of_pos (by simp)]
  exact List.perm_middle

/-- The node's pool, what it dropped and what it executed. -/
abbrev PoolInOrder (net : Network) (es : List Step) (s : State) : Prop :=
  Tickets.InOrder net.server.globals.aliceNonce (began net es) s.server.accepted s.pool s.dropped
    (s.receipts.map Receipt.submission)

theorem began_concat_loop (net : Network) (es : List Step) (e : LoopStep) :
    ∃ more, began net (es ++ [.loop e]) = began net es ++ more := by
  have steps : loopSteps (es ++ [.loop e]) = loopSteps es ++ [e] := by
    rw [loopSteps, List.filterMap_append]
    rfl
  rw [began, steps, begun, Machine.Driver.commands_append, List.map_append]
  exact ⟨_, rfl⟩

theorem began_concat_of_none (net : Network) (es : List Step) {e : Step} (other : e.loop? = none) :
    began net (es ++ [e]) = began net es := by
  rw [began, loopSteps, List.filterMap_append, List.filterMap_cons_none other, List.filterMap_nil,
    List.append_nil]
  rfl

/-- One step keeps the pool in order. -/
theorem poolInOrder_step (net : Network) (es : List Step) (e : Step)
    (order : PoolInOrder net es ((network net).run es)) :
    PoolInOrder net (es ++ [e]) ((network net).step ((network net).run es) e).2 := by
  cases e with
  | loop e =>
      obtain ⟨more, grown⟩ := began_concat_loop net es e
      rw [PoolInOrder, grown]
      show Tickets.InOrder _ _
        ((Server.server net.server).step ((network net).run es).server e).2.accepted
        (((network net).run es).pool ++ (submits ((network net).run es).server e).toList)
        ((network net).run es).dropped (((network net).run es).receipts.map Receipt.submission)
      rw [server_step_accepted]
      cases given : submits ((network net).run es).server e with
      | none =>
          rw [Option.map_none, Option.toList_none, Option.toList_none, List.append_nil,
            List.append_nil]
          exact order.issue more
      | some message =>
          obtain ⟨n, sub⟩ := message
          obtain ⟨id, u, awaits, rfl, rfl⟩ := submits_underway given
          exact (order.accept (began_of_underway net es awaits)).issue more
  | execute fits =>
      rw [PoolInOrder, began_concat_of_none net es rfl]
      rcases network_step_execute net ((network net).run es) fits with
        ⟨-, same⟩ | ⟨p, found, next⟩
      · rw [same]
        exact order
      · obtain ⟨turn, split⟩ := perm_eraseP found
        have executed := order.execute split (by rw [turn, Network.next, List.length_map])
        rw [next]
        simpa only [State.execute, List.map_append, List.map_cons, List.map_nil] using executed
  | drop nonce =>
      rw [PoolInOrder, began_concat_of_none net es rfl]
      rcases network_step_drop net ((network net).run es) nonce with same | ⟨p, found, next⟩
      · rw [same]
        exact order
      · rw [next]
        exact order.drop (perm_eraseP found).2
  | foreign call =>
      rw [PoolInOrder, began_concat_of_none net es rfl]
      exact order

/-- In every run the node's pool is in order. -/
theorem node_inOrder (net : Network) (es : List Step) :
    PoolInOrder net es ((network net).run es) :=
  (network net).run_induct (R := PoolInOrder net) (Tickets.inOrder_start _)
    (poolInOrder_step net) es

/-- The nonces of the server's run, as the node knows them. -/
theorem node_accounted (net : Network) (es : List Step) :
    Tickets.Accounted net.server.globals.aliceNonce
      ((network net).run es).server.globals.aliceNonce ((network net).run es).server.held
      ((network net).run es).server.accepted
      (lostNonces ((Server.server net.server).trace (loopSteps es))) := by
  rw [network_server]
  exact server_accounted net.server (loopSteps es)

/-! ## Results -/

/-- **Order on the chain.**  The transactions executed are the first of those the server
began, in the order in which they began: neither the order in which they were sent nor
their tips play a part. -/
theorem executed_in_begin_order (net : Network) (es : List Step) :
    ((network net).run es).receipts.map Receipt.submission <+: began net es :=
  (node_inOrder net es).done_first

/-- A nonce the server lost on its way to the node, or whose transaction the node dropped. -/
def Gone (net : Network) (es : List Step) (n : Nat) : Prop :=
  n ∈ lostNonces ((Server.server net.server).trace (loopSteps es)) ∨
    n ∈ ((network net).run es).dropped

theorem loopSteps_append (es later : List Step) :
    loopSteps (es ++ later) = loopSteps es ++ loopSteps later :=
  List.filterMap_append

theorem gone_concat {net : Network} {es : List Step} {n : Nat} (gone : Gone net es n) (e : Step) :
    Gone net (es ++ [e]) n := by
  rcases gone with isLost | isDropped
  · left
    rw [loopSteps_append, Machine.trace_append, lostNonces, List.filterMap_append]
    exact List.mem_append_left _ isLost
  · right
    rw [Machine.run_concat]
    cases e with
    | loop e => exact isDropped
    | execute fits =>
        rcases network_step_execute net ((network net).run es) fits with ⟨-, same⟩ | ⟨p, -, next⟩
        · rw [same]
          exact isDropped
        · rw [next]
          exact isDropped
    | drop nonce =>
        rcases network_step_drop net ((network net).run es) nonce with same | ⟨p, -, next⟩
        · rw [same]
          exact isDropped
        · rw [next]
          exact List.mem_append_left _ isDropped
    | foreign call => exact isDropped

theorem next_le_of_gone {net : Network} {es : List Step} {n : Nat} (gone : Gone net es n) :
    net.next ((network net).run es) ≤ n := by
  have bound := (node_inOrder net es).done_le (node_accounted net es) gone
  rwa [List.length_map] at bound

/-- The contract calls others make. -/
def Step.foreign? : Step → Option Call
  | .foreign call => some call
  | _ => none

/-- **Nothing after a gap.**  Once a nonce is lost or dropped no transaction of the server
with a greater one is ever executed.  When its turn has come, whatever the server goes on
to do, the contract only changes by what others call. -/
theorem nothing_after_lost (net : Network) (es : List Step) {n : Nat} (gone : Gone net es n)
    (later : List Step) :
    net.next ((network net).run (es ++ later)) ≤ n ∧
      (net.next ((network net).run es) = n →
        ((network net).run (es ++ later)).env =
          contract.runFrom ((network net).run es).env (later.filterMap Step.foreign?)) := by
  have always : Gone net (es ++ later) n := by
    induction later using List.reverseRecOn with
    | nil => simpa using gone
    | append_singleton later e ih =>
        rw [← List.append_assoc]
        exact gone_concat ih e
  refine ⟨next_le_of_gone always, fun reached => ?_⟩
  clear always
  have both : Gone net (es ++ later) n ∧ net.next ((network net).run (es ++ later)) = n ∧
      ((network net).run (es ++ later)).env =
        contract.runFrom ((network net).run es).env (later.filterMap Step.foreign?) := by
    induction later using List.reverseRecOn with
    | nil => simpa [Machine.runFrom] using ⟨gone, reached⟩
    | append_singleton later e ih =>
        obtain ⟨before, here, env⟩ := ih
        have after := gone_concat before e
        rw [← List.append_assoc]
        refine ⟨after, ?_⟩
        have bound := next_le_of_gone after
        rw [Machine.run_concat] at bound ⊢
        rw [List.filterMap_append, Machine.runFrom_append, ← env]
        cases e with
        | loop e => exact ⟨here, rfl⟩
        | execute fits =>
            rcases network_step_execute net ((network net).run (es ++ later)) fits with
              ⟨-, same⟩ | ⟨p, -, next⟩
            · rw [same]
              exact ⟨here, rfl⟩
            · -- the turn would pass the missing nonce
              rw [next, Network.next] at bound
              simp only [State.execute, List.length_append, List.length_singleton] at bound
              rw [Network.next] at here
              omega
        | drop nonce =>
            rcases network_step_drop net ((network net).run (es ++ later)) nonce with
              same | ⟨p, -, next⟩
            · rw [same]
              exact ⟨here, rfl⟩
            · rw [next]
              exact ⟨here, rfl⟩
        | foreign call => exact ⟨here, rfl⟩
  exact both.2.2

/-- Request 0 loses nonce 5; request 1 is accepted with nonce 6, and never executed. -/
theorem nothing_after_lost_five :
    let es : List Step :=
      [.loop (.arrive .createUser "first" ⟨none, Contract.alice, 300⟩ noon),
        .loop (.request 0 (.timeout noon)), .loop (.request 0 (.build (some "u8: Input too large")))]
    let later := registerSteps 1 "second" 0 ++ [.execute true]
    ((network twoAccounts).run (es ++ later)).pool.map Prod.fst = [6] ∧
      twoAccounts.next ((network twoAccounts).run (es ++ later)) ≤ 5 := by
  intro es later
  have gone : Gone twoAccounts es 5 := .inl (by decide)
  exact ⟨by decide, (nothing_after_lost twoAccounts es gone later).1⟩

/-- Nothing is held, lost or dropped. -/
structure Settled (net : Network) (es : List Step) : Prop where
  rest : Quiescent ((network net).run es).server
  unlost : lostNonces ((Server.server net.server).trace (loopSteps es)) = []
  undropped : ((network net).run es).dropped = []

/-- The node's own steps are none of the server's. -/
theorem loopSteps_execute (es : List Step) (k : Nat) (fits : Bool) :
    loopSteps (es ++ List.replicate k (.execute fits)) = loopSteps es := by
  rw [loopSteps_append]
  have none_ : loopSteps (List.replicate k (Step.execute fits)) = [] := by
    rw [loopSteps, List.filterMap_eq_nil_iff]
    intro e member
    rw [List.eq_of_mem_replicate member]
    rfl
  rw [none_, List.append_nil]

theorem Settled.execute {net : Network} {es : List Step} (settled : Settled net es) (fits : Bool) :
    Settled net (es ++ [.execute fits]) := by
  have steps : loopSteps (es ++ [.execute fits]) = loopSteps es := loopSteps_execute es 1 fits
  refine ⟨?_, by rw [steps]; exact settled.unlost, ?_⟩
  · rw [network_server, steps, ← network_server]
    exact settled.rest
  · rw [Machine.run_concat]
    rcases network_step_execute net ((network net).run es) fits with ⟨-, same⟩ | ⟨p, -, next⟩
    · rw [same]
      exact settled.undropped
    · rw [next]
      exact settled.undropped

/-- In a settled state the transactions begun and not executed are in the pool. -/
theorem Settled.pool {net : Network} {es : List Step} (settled : Settled net es) :
    (((network net).run es).pool.map Prod.fst).Perm
      (List.range' (net.next ((network net).run es))
        ((began net es).length - ((network net).run es).receipts.length)) := by
  have order := node_inOrder net es
  have acc := node_accounted net es
  rw [PoolInOrder, settled.undropped] at order
  rw [settled.unlost, (quiescent_iff_held _).mp settled.rest] at acc
  have left := order.pool_perm acc
  have issued := server_aliceNonce net.server (loopSteps es)
  rw [network_server, issued, List.length_map] at left
  have count : net.server.globals.aliceNonce + (begun net.server (loopSteps es)).length -
      (net.server.globals.aliceNonce + ((network net).run es).receipts.length) =
        (began net es).length - ((network net).run es).receipts.length := by
    rw [began, List.length_map]
    omega
  rw [count] at left
  exact left

/-- **The node catches up.**  Where nothing is held, lost or dropped, the node executes, one
after the other, all that the server began, and its pool is empty then. -/
theorem node_catches_up (net : Network) (es : List Step) (settled : Settled net es) (fits : Bool) :
    let k := (began net es).length - ((network net).run es).receipts.length
    let s := (network net).run (es ++ List.replicate k (.execute fits))
    s.receipts.map Receipt.submission = began net es ∧ s.pool = [] := by
  intro k
  induction size : k generalizing es with
  | zero =>
      have order := (node_inOrder net es).done_first
      have all : (((network net).run es).receipts.map Receipt.submission).length =
          (began net es).length := by
        have := order.length_le
        rw [List.length_map] at this ⊢
        omega
      have pool := settled.pool
      rw [show (began net es).length - ((network net).run es).receipts.length = 0 from size,
        List.range'_zero, List.perm_nil, List.map_eq_nil_iff] at pool
      simp only [List.replicate_zero, List.append_nil]
      exact ⟨order.eq_of_length all, pool⟩
  | succ j ih =>
      have turn : ∃ p, net.turn ((network net).run es) = some p := by
        have here : net.next ((network net).run es) ∈ ((network net).run es).pool.map Prod.fst := by
          rw [settled.pool.mem_iff, List.mem_range'_1]
          omega
        obtain ⟨p, member, same⟩ := List.mem_map.mp here
        rw [← Option.isSome_iff_exists, Network.turn, List.find?_isSome]
        exact ⟨p, member, by simpa using same⟩
      obtain ⟨p, isTurn⟩ := turn
      have next : (network net).run (es ++ [.execute fits]) =
          ((network net).run es).execute net fits p := by
        rw [Machine.run_concat]
        rcases network_step_execute net ((network net).run es) fits with ⟨idle, -⟩ | ⟨q, isTurn', next⟩
        · rw [isTurn] at idle
          cases idle
        · rw [isTurn] at isTurn'
          cases isTurn'
          rw [next]
      have same : began net (es ++ [.execute fits]) = began net es := began_concat_of_none net es rfl
      have receipts : ((network net).run (es ++ [.execute fits])).receipts.length =
          ((network net).run es).receipts.length + 1 := by
        rw [next]
        simp only [State.execute, List.length_append, List.length_singleton]
      have rest := ih (es ++ [.execute fits]) (settled.execute fits) (by rw [same, receipts]; omega)
      rw [same] at rest
      rw [List.replicate_succ, ← List.singleton_append, ← List.append_assoc]
      exact rest

theorem node_catches_up_crossing :
    let s := (network twoAccounts).run (crossingSteps ++ List.replicate 2 (.execute true))
    s.receipts.length = 2 ∧ s.pool = [] := by
  intro s
  have settled : Settled twoAccounts crossingSteps := ⟨by decide, by decide, by decide⟩
  exact ⟨by decide, (node_catches_up twoAccounts crossingSteps settled true).2⟩

end PatientAccess.Chain
