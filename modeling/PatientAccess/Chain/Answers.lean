/-
# Chain.Answers -- what a client is told, against what the chain did

A handler answers when the promises it awaits are settled, and these are settled by what
the node says.  `Honest` is what is asked of the node: it calls a transaction final only
after executing it.

Along an honest run a request that is answered with success had all the transactions of
its route executed, in their order (`success_means_executed`).  It does not mean that they
succeeded: the receipts say that (`Chain.ReadBack`).
-/
import PatientAccess.Chain.Registry

namespace PatientAccess.Chain

open PatientAccess.Theory
open PatientAccess.Server

set_option autoImplicit false

/-! ## An honest node -/

/-- A transaction is called final only once it is executed. -/
def Honest (net : Network) (s : State) : Step → Prop
  | .loop (.request id (.notify n)) =>
      n.isFinalized = true → ∀ u, s.server.underway id = some u → u.ticket.nonce < net.next s
  | _ => True

/-- Only a notification of finality has to be true, and this one is. -/
theorem honest_notify {net : Network} {s : State} {id : Nat} (n : Notification)
    (executed : (s.server.underway id).all fun u => decide (u.ticket.nonce < net.next s)) :
    Honest net s (.loop (.request id (.notify n))) := by
  intro _ u awaits
  rw [awaits, Option.all_some] at executed
  exact of_decide_eq_true executed

/-- Whether a step tells a request something of its transaction. -/
def Step.notifies : Step → Bool
  | .loop (.request _ (.notify _)) => true
  | _ => false

theorem honest_of_all {net : Network} {es : List Step} (quiet : es.all fun e => !e.notifies) :
    ∀ e ∈ es, ∀ s, Honest net s e := by
  intro e member s
  have silent := List.all_eq_true.mp quiet e member
  unfold Honest
  split
  · cases silent
  · trivial

/-- All of these tickets are for transactions executed. -/
def AllDone (next : Nat) (own : Own) : Prop := ∀ st ∈ own, st.2.nonce < next

/-- A request that awaits a submission: its earlier ones are executed, and what it has
begun and has left is all its route submits. -/
structure Waits (next : Nat) (entry : Entry) (own : Own) (u : Underway) : Prop where
  handler : entry = .runs u.handler
  all : own.map Prod.fst ++ awaited u.rest = entry.submissions
  past : ∃ past, own = past ++ [(u.submission, u.ticket)] ∧ AllDone next past

/-- What is executed of a request, wherever it is. -/
def Told (next : Nat) (entry : Entry) (own : Own) : Request → Prop
  | .timer h rest _ =>
      entry = .runs h ∧ own.map Prod.fst ++ awaited rest = entry.submissions ∧ AllDone next own
  | .nonceTaken u | .sending u => Waits next entry own u
  | .sent u x =>
      Waits next entry own u ∧ (Finalizes x.notifications → u.ticket.nonce < next)
  | .closed o =>
      o.status = some 200 → own.map Prod.fst = entry.submissions ∧ AllDone next own

theorem AllDone.mono {next next' : Nat} {own : Own} (done : AllDone next own) (le : next ≤ next') :
    AllDone next' own :=
  fun st member => (done st member).trans_le le

theorem Waits.mono {next next' : Nat} {entry : Entry} {own : Own} {u : Underway}
    (waits : Waits next entry own u) (le : next ≤ next') : Waits next' entry own u := by
  obtain ⟨past, split, done⟩ := waits.past
  exact ⟨waits.handler, waits.all, past, split, done.mono le⟩

/-- Executing more does no harm. -/
theorem Told.mono {next next' : Nat} {entry : Entry} {own : Own} {r : Request}
    (told : Told next entry own r) (le : next ≤ next') : Told next' entry own r := by
  cases r with
  | timer h rest locals => exact ⟨told.1, told.2.1, told.2.2.mono le⟩
  | nonceTaken u | sending u => exact Waits.mono told le
  | sent u x => exact ⟨told.1.mono le, fun final => (told.2 final).trans_le le⟩
  | closed o => exact fun ok => ⟨(told ok).1, (told ok).2.mono le⟩

/-! ## One step of a request -/

/-- A route answers 200 only where its handler succeeds. -/
def OnlySuccess : Entry → Prop
  | .runs h => ∀ e, (h.fail e).status ≠ 200
  | .answered r => r.status ≠ 200
  | .unhandled _ => True

theorem onlySuccess_enter (keyring : Keyring) (generated : String) (b : CreateUserBody)
    (route : Route) : OnlySuccess (route.enter keyring generated b) := by
  have failure : (500 : Nat) ≠ 200 := by omega
  have invalid : (400 : Nat) ≠ 200 := by omega
  cases route with
  | createUser =>
      simp only [Route.enter, createUser]
      split
      · trivial
      · exact fun _ => failure
  | createUserBasedOnPersonalizedMnemonic =>
      simp only [Route.enter, createUserBasedOnPersonalizedMnemonic]
      split
      · trivial
      · exact fun _ => failure
  | createUserWithExistingAddress =>
      simp only [Route.enter, createUserWithExistingAddress]
      split
      · exact invalid
      · exact fun _ => failure
  | createUserWithDynamicGas =>
      simp only [Route.enter, createUserWithDynamicGas]
      split
      · exact failure
      · exact fun _ => failure

/-- A handler goes on once all it has begun is executed. -/
theorem goOn_told {next : Nat} {own : Own} (h : Handler) (id : Nat) (w : Moment) (g : Globals)
    (locals : Locals) {awaits : List Await}
    (all : own.map Prod.fst ++ awaited awaits = (Entry.runs h).submissions)
    (done : AllDone next own) :
    Told next (.runs h) (own ++ (begins id w awaits).toList.map (Begin.issue g))
      (h.goOn w g locals awaits).2.1 := by
  rcases awaits with _ | ⟨_ | s, rest⟩
  · intro _
    show (own ++ []).map Prod.fst = _ ∧ AllDone next (own ++ [])
    rw [List.append_nil]
    exact ⟨(List.append_nil _).symm.trans all, done⟩
  · show Told next _ (own ++ []) _
    rw [List.append_nil]
    exact ⟨rfl, all, done⟩
  · refine ⟨rfl, ?_, own, rfl, done⟩
    rw [List.map_append, List.append_assoc]
    exact all

theorem arrive_told {entry : Entry} (only : OnlySuccess entry) (next id : Nat) (w : Moment)
    (g : Globals) :
    Told next entry ((entry.begins id w).toList.map (Begin.issue g)) (entry.arrive w g).2.1 := by
  cases entry with
  | unhandled e => exact fun ok => (nomatch ok)
  | answered r => exact fun ok => absurd (Option.some.inj ok) only
  | runs h =>
      have nothing : AllDone next ([] : Own) := fun st member => absurd member List.not_mem_nil
      exact goOn_told h id w g .fresh rfl nothing

theorem AllDone.concat {next : Nat} {past : Own} (done : AllDone next past) {st : Submission × Ticket}
    (last : st.2.nonce < next) : AllDone next (past ++ [st]) := by
  intro x member
  rcases List.mem_append.mp member with old | new
  · exact done x old
  · rw [List.mem_singleton.mp new]
    exact last

/-- A promise that resolves was notified of finality. -/
theorem finalizes_of_resolved {u : Underway} {x : Sending} {value : Unit} {locals : Locals}
    (settled : u.submission.settle u.locals (u.attempt x) = (.resolved value, locals)) :
    Finalizes x.notifications := by
  have resolves := (u.submission.settle_isResolved u.locals (u.attempt x)).mp
    (by rw [settled]; rfl)
  cases kind : u.submission with
  | transferFunds recipient amount =>
      rw [kind] at resolves
      obtain ⟨before, n, after, split, final, -⟩ := resolves
      have split : x.notifications = before ++ n :: after := split
      exact ⟨n, by rw [split]; simp, final⟩
  | addUser newAccount userInfo role passesRes =>
      rw [kind] at resolves
      exact resolves.2

/-- A step of a request; a notification of finality has to be true. -/
theorem step_told {next : Nat} {entry : Entry} {own : Own} {g g' : Globals} {r r' : Request}
    {e : RequestStep} {m : Tickets.Move} (id : Nat) (only : OnlySuccess entry)
    (told : Told next entry own r) (stepped : r.step g e = some (m, r', g'))
    (honest : ∀ n, e = .notify n → n.isFinalized = true → ∀ u, r.underway = some u →
      u.ticket.nonce < next) :
    Told next entry (own ++ (r.begins id e).toList.map (Begin.issue g)) r' := by
  revert stepped told honest
  fun_cases Request.step g r e with
  | case1 h rest locals w =>
      rintro ⟨rfl, all, done⟩ stepped _
      have onward := goOn_told h id w g locals all done
      rw [Option.some.inj stepped] at onward
      exact onward
  | case2 u =>
      intro waits stepped _
      cases stepped
      show Told next entry (own ++ []) _
      rw [List.append_nil]
      exact waits
  | case3 u error | case5 u error =>
      intro waits stepped _
      cases stepped
      show Told next entry (own ++ []) _
      rw [List.append_nil]
      refine ⟨waits, fun final => ?_⟩
      obtain ⟨n, member, -⟩ := final
      cases member
  | case4 u =>
      intro waits stepped _
      cases stepped
      show Told next entry (own ++ []) _
      rw [List.append_nil]
      refine ⟨waits, fun final => ?_⟩
      obtain ⟨n, member, -⟩ := final
      cases member
  | case6 u ns n =>
      intro told stepped honest
      cases stepped
      show Told next entry (own ++ []) _
      rw [List.append_nil]
      refine ⟨told.1, ?_⟩
      rintro ⟨k, member, final⟩
      rcases List.mem_append.mp member with old | last
      · exact told.2 ⟨k, old, final⟩
      · rw [List.mem_singleton.mp last] at final
        exact honest n rfl final u rfl
  | case7 u s w locals settled =>
      intro _ stepped
      cases stepped
  | case8 u s w error locals settled =>
      rintro ⟨waits, -⟩ stepped _
      cases stepped
      intro ok
      have handler := waits.handler
      subst handler
      exact absurd (Option.some.inj ok) (only error)
  | case9 u s w value locals settled =>
      rintro ⟨waits, final⟩ stepped _
      obtain ⟨handler, all, past, split, done⟩ := waits
      have done' : AllDone next own := by
        rw [split]
        exact done.concat (final (finalizes_of_resolved settled))
      subst handler
      have onward := goOn_told u.handler id w g locals all done'
      rw [Option.some.inj stepped] at onward
      simp only [Request.begins, settled]
      exact onward
  | case10 =>
      intro _ stepped
      cases stepped

/-! ## Honest runs -/

/-- Executing is all the node does to its count. -/
theorem next_mono (net : Network) (s : State) (e : Step) :
    net.next s ≤ net.next ((network net).step s e).2 := by
  cases e with
  | loop e | foreign call => exact le_rfl
  | execute fits =>
      rcases network_step_execute net s fits with ⟨-, same⟩ | ⟨p, -, next⟩
      · rw [same]
      · rw [next]
        simp only [Network.next, State.execute, List.length_append, List.length_singleton]
        omega
  | drop nonce =>
      rcases network_step_drop net s nonce with same | ⟨p, -, next⟩
      · rw [same]
      · rw [next]
        exact le_rfl

theorem AllRequests.mono {P Q : Entry → Own → Request → Prop} {entries : List Entry}
    {l : List (Begin × Ticket)} {requests : List Request}
    (all : AllRequests P entries l requests) (weaker : ∀ entry own r, P entry own r → Q entry own r) :
    AllRequests Q entries l requests :=
  ⟨all.same, fun id entry r isEntry isRequest => weaker _ _ _ (all.each id entry r isEntry isRequest),
    all.others⟩

/-- Along an honest run, what requests rely on is executed. -/
theorem told_run (net : Network) (es : List Step)
    (honest : (network net).AllSteps (Honest net) es) :
    AllRequests
      (fun entry own r => OnlySuccess entry ∧ Told (net.next ((network net).run es)) entry own r)
      (arrivals net.server ((Server.server net.server).trace (loopSteps es)))
      (issued net.server (loopSteps es)) ((network net).run es).server.requests := by
  induction es using List.reverseRecOn with
  | nil => exact ⟨rfl, fun id entry r isEntry => (nomatch isEntry), fun _ _ => rfl⟩
  | append_singleton es e ih =>
      obtain ⟨before, last⟩ := (Machine.allSteps_concat _ _ es e).mp honest
      have told := ih before
      have later := AllRequests.mono told fun entry own r (both : OnlySuccess entry ∧ _) =>
        And.intro both.1 (both.2.mono (next_mono net _ e))
      rw [← Machine.run_concat] at later
      rw [network_server] at later ⊢
      cases e with
      | execute fits | drop nonce | foreign call =>
          rw [loopSteps_append, show loopSteps [_] = [] from rfl, List.append_nil]
          exact later
      | loop e =>
          have steps : loopSteps (es ++ [.loop e]) = loopSteps es ++ [e] := loopSteps_append es _
          rw [steps]
          refine AllRequests.step net.server (loopSteps es) e later
            (fun route generated b id w g => ?_) fun id d r m r' g g' isStep found stepped => ?_
          · have only := onlySuccess_enter net.server.keyring generated b route
            exact ⟨only, arrive_told only _ id w g⟩
          · rintro entry own ⟨only, told⟩
            refine ⟨only, step_told id only told stepped fun n isNotify final u here => ?_⟩
            subst isStep
            subst isNotify
            rw [Machine.run_concat]
            refine last final u ?_
            rw [network_server, ServerState.underway, found]
            exact here

/-! ## Results -/

/-- Where all that began for `id` is among the first `n`, the rest may be left out. -/
theorem begunFor_take (bs : List Begin) (id n : Nat)
    (early : ∀ k b, bs[k]? = some b → b.id = id → k < n) :
    begunFor (bs.take n) id = begunFor bs id := by
  have late : (bs.drop n).filter (fun b => decide (b.id = id)) = [] := by
    rw [List.filter_eq_nil_iff]
    intro b member isOwn
    obtain ⟨k, found⟩ := List.mem_iff_getElem?.mp member
    rw [List.getElem?_drop] at found
    have := early _ b found (of_decide_eq_true isOwn)
    omega
  rw [begunFor, begunFor]
  conv_rhs => rw [← List.take_append_drop n bs, List.filter_append, late, List.append_nil]

/-- All that a request answered with 200 has to submit is among the transactions executed. -/
theorem executed_of_success (net : Network) (es : List Step)
    (honest : (network net).AllSteps (Honest net) es) {id : Nat} {o : Outcome}
    (done : ((network net).run es).server.outcome id = some o) (ok : o.status = some 200) :
    ∃ entry, (arrivals net.server ((Server.server net.server).trace (loopSteps es)))[id]? =
        some entry ∧
      begunFor ((begun net.server (loopSteps es)).take ((network net).run es).receipts.length) id =
        entry.submissions := by
  have all := told_run net es honest
  have found := ServerState.outcome_eq done
  have bound := (List.getElem?_eq_some_iff.mp found).1
  rw [← all.same] at bound
  refine ⟨_, List.getElem?_eq_getElem bound, ?_⟩
  obtain ⟨begunAll, executed⟩ := (all.each id _ _ (List.getElem?_eq_getElem bound) found).2 ok
  have issuedFst : (issued net.server (loopSteps es)).map Prod.fst =
      begun net.server (loopSteps es) := Machine.map_fst_trace _ _
  -- a submission of the request is among the first executed
  have early : ∀ k b, (begun net.server (loopSteps es))[k]? = some b → b.id = id →
      k < ((network net).run es).receipts.length := by
    intro k b here isOwn
    rw [← issuedFst, List.getElem?_map] at here
    obtain ⟨⟨b', t⟩, given, rfl⟩ := Option.map_eq_some_iff.mp here
    obtain ⟨nonce, -⟩ := issued_ticket net.server _ given
    have mine : (b'.submission, t) ∈ ownTickets (issued net.server (loopSteps es)) id :=
      List.mem_map.mpr ⟨(b', t), List.mem_filter.mpr
        ⟨List.mem_of_getElem? given, decide_eq_true isOwn⟩, rfl⟩
    have turned := executed _ mine
    rw [Network.next] at turned
    simp only at turned
    omega
  rw [begunFor_take _ id _ early, begunFor_eq, begunAll]

/-- The transactions executed are those of the first submissions begun. -/
theorem receipts_eq_take (net : Network) (es : List Step) :
    ((network net).run es).receipts.map Receipt.submission =
      ((begun net.server (loopSteps es)).take ((network net).run es).receipts.length).map
        Begin.submission := by
  have first := (node_inOrder net es).done_first
  rw [List.prefix_iff_eq_take, List.length_map, began, ← List.map_take] at first
  exact first

/-- The receipt of the transaction with a nonce: they are executed in the order of the
nonces, from the first one on. -/
def Network.receipt (net : Network) (s : State) (nonce : Nat) : Option Receipt :=
  s.receipts[nonce - net.server.globals.aliceNonce]?

/-- The nonces issued to a request are different, and increase. -/
theorem ownTickets_increase (cfg : Config) (es : List LoopStep) (id : Nat) :
    ((ownTickets (issued cfg es) id).map fun st => st.2.nonce).Pairwise (· < ·) := by
  have all : ((issued cfg es).map fun bt => bt.2.nonce).Pairwise (· < ·) := by
    rw [List.pairwise_iff_getElem]
    intro i j inside inside' before
    rw [List.length_map] at inside inside'
    rw [List.getElem_map, List.getElem_map]
    have first : (issued cfg es)[i].2.nonce = cfg.globals.aliceNonce + i :=
      (issued_ticket cfg es (List.getElem?_eq_getElem inside)).1
    have second : (issued cfg es)[j].2.nonce = cfg.globals.aliceNonce + j :=
      (issued_ticket cfg es (List.getElem?_eq_getElem inside')).1
    omega
  rw [ownTickets, List.map_map]
  exact all.sublist ((List.filter_sublist).map _)

/-- Where a request's submissions are all among those executed, the receipts of its nonces
are theirs. -/
theorem receipt_of_ownTicket (net : Network) (es : List Step) {id : Nat} {st : Submission × Ticket}
    (mine : st ∈ ownTickets (issued net.server (loopSteps es)) id)
    (executed : st.2.nonce < net.next ((network net).run es)) :
    ∃ r, net.receipt ((network net).run es) st.2.nonce = some r ∧ r.submission = st.1 := by
  obtain ⟨k, b, given, -, begins⟩ := mem_ownTickets mine
  obtain ⟨nonce, -⟩ := issued_ticket net.server _ given
  have position : st.2.nonce - net.server.globals.aliceNonce = k := by omega
  have inside : k < ((network net).run es).receipts.length := by
    rw [Network.next] at executed
    omega
  refine ⟨((network net).run es).receipts[k], ?_, ?_⟩
  · rw [Network.receipt, position, List.getElem?_eq_getElem inside]
  · have receipts := congrArg (fun l => l[k]?) (receipts_eq_take net es)
    have inTrace : (issued net.server (loopSteps es)).map Prod.fst =
        begun net.server (loopSteps es) := Machine.map_fst_trace _ _
    simp only [List.getElem?_map, List.getElem?_take, if_pos inside, List.getElem?_eq_getElem inside,
      ← inTrace, given, Option.map_some, Option.some.injEq] at receipts
    rw [receipts, begins]

/-- **What success means.**  Along an honest run, a request answered with 200 had every
transaction of its route executed, in the order of the route: those of its own nonces, which
increase. -/
theorem success_means_executed (net : Network) (es : List Step)
    (honest : (network net).AllSteps (Honest net) es) {id : Nat} {o : Outcome}
    (done : ((network net).run es).server.outcome id = some o) (ok : o.status = some 200) :
    ∃ entry, (arrivals net.server ((Server.server net.server).trace (loopSteps es)))[id]? =
        some entry ∧
      let own := ownTickets (issued net.server (loopSteps es)) id
      own.map Prod.fst = entry.submissions ∧ (own.map fun st => st.2.nonce).Pairwise (· < ·) ∧
        ∀ st ∈ own, ∃ r, net.receipt ((network net).run es) st.2.nonce = some r ∧
          r.submission = st.1 := by
  have all := told_run net es honest
  have found := ServerState.outcome_eq done
  have bound := (List.getElem?_eq_some_iff.mp found).1
  rw [← all.same] at bound
  obtain ⟨begunAll, executed⟩ := (all.each id _ _ (List.getElem?_eq_getElem bound) found).2 ok
  refine ⟨_, List.getElem?_eq_getElem bound, begunAll, ownTickets_increase _ _ _, ?_⟩
  intro st mine
  exact receipt_of_ownTicket net es mine (executed st mine)

/-- A request that is told of finality after its transaction was executed. -/
theorem success_means_executed_first :
    let es := registerSteps 0 "first" 0 ++ [.execute true] ++
      [.loop (.request 0 (.notify ⟨.finalized, []⟩))] ++ [.loop (.request 0 (.resume noon))]
    ∃ o, ((network twoAccounts).run es).server.outcome 0 = some o ∧ o.status = some 200 ∧
      ∃ entry, (arrivals twoAccounts.server
          ((Server.server twoAccounts.server).trace (loopSteps es)))[0]? = some entry ∧
        let own := ownTickets (issued twoAccounts.server (loopSteps es)) 0
        own.map Prod.fst = entry.submissions ∧ (own.map fun st => st.2.nonce).Pairwise (· < ·) ∧
          ∀ st ∈ own, ∃ r, twoAccounts.receipt ((network twoAccounts).run es) st.2.nonce = some r ∧
            r.submission = st.1 := by
  intro es
  have done : ∃ o, ((network twoAccounts).run es).server.outcome 0 = some o ∧
      o.status = some 200 := ⟨_, rfl, rfl⟩
  obtain ⟨o, here, ok⟩ := done
  refine ⟨o, here, ok, success_means_executed twoAccounts es ?_ here ok⟩
  refine Machine.AllSteps.append_of_forall ((Machine.allSteps_concat _ _ _ _).mpr
    ⟨Machine.allSteps_of_forall _ (honest_of_all ?_), honest_notify _ ?_⟩) (honest_of_all ?_)
  all_goals decide

end PatientAccess.Chain
