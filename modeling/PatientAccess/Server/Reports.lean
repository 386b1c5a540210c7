/-
# Server.Reports -- what a request was issued is what it reports

The counters are shared; a ticket is not.  `Owns` says what a request has to do with
the tickets issued to it so far: they are for the first submissions of its route, in
order and each at most once; the submission it awaits holds the last of them; and once
`res.locals` declares a success, the tip and the transaction number there are those of
its registration.

`owns_step` carries it through a step of the request, `server_owns` through a run with
any number of other requests.  So two requests that report a success report two
different tips, as long as the decremental tips last (`reported_tips_apart`).
-/
import PatientAccess.Server.Accounts
import PatientAccess.Server.Counters
import PatientAccess.Server.Nonce

namespace PatientAccess.Server

open PatientAccess.Theory

set_option autoImplicit false

/-! ## What a request owns -/

def awaited (awaits : List Await) : List Submission :=
  awaits.filterMap fun
    | .timer => none
    | .submission s => some s

/-- The submissions of a route. -/
def Entry.submissions : Entry → List Submission
  | .runs h => awaited h.awaits
  | _ => []

/-- The submission a request awaits, with its ticket. -/
def Request.underway : Request → Option Underway
  | .nonceTaken u | .sending u | .sent u _ => some u
  | _ => none

/-- What a request may still begin. -/
def Request.left : Request → List Submission
  | .timer _ rest _ => awaited rest
  | .nonceTaken u | .sending u | .sent u _ => awaited u.rest
  | .closed _ => []

/-- `res.locals` of a request. -/
def Request.locals : Request → Locals
  | .timer _ _ locals => locals
  | .nonceTaken u | .sending u | .sent u _ => u.locals
  | .closed o => o.locals

/-- A ticket of one's own, with the submission it was issued to. -/
abbrev Own := List (Submission × Ticket)

/-- A success in `res.locals` is that of a registration of one's own. -/
def Truthful (own : Own) (locals : Locals) : Prop :=
  locals.transactionSuccess = some true →
    ∃ st ∈ own, st.1.isAddUser = true ∧ locals.tip = some (toString st.2.tip) ∧
      locals.transactionCount = some st.2.numberTransaction

/-- The tickets issued to a request, and the request as it is now. -/
structure Owns (entry : Entry) (own : Own) (r : Request) : Prop where
  inOrder : own.map Prod.fst ++ r.left <+: entry.submissions
  awaits : ∀ u, r.underway = some u → own.getLast? = some (u.submission, u.ticket)
  reports : Truthful own r.locals

theorem Truthful.mono {own : Own} {locals : Locals} (truthful : Truthful own locals) (more : Own) :
    Truthful (own ++ more) locals := by
  intro success
  obtain ⟨st, member, rest⟩ := truthful success
  exact ⟨st, List.mem_append_left _ member, rest⟩

theorem truthful_fresh (own : Own) : Truthful own .fresh := by
  intro success
  cases success

/-! ## One submission -/

/-- The callback leaves `res.locals` alone or writes the tip and the number of the
submission. -/
theorem foldl_addUserCallback_locals (tip k : Nat) (ns : List Notification) (st : AddUserState)
    {given left : Locals} (had : st.locals = some given)
    (has : (ns.foldl (addUserCallback tip k) st).locals = some left) :
    left = given ∨ left.tip = some (toString tip) ∧ left.transactionCount = some k := by
  induction ns generalizing st given with
  | nil =>
      rw [List.foldl_nil, had] at has
      exact .inl (Option.some.inj has).symm
  | cons n ns ih =>
      obtain ⟨sameLocals, -⟩ := foldl_readGas n.events st
      rw [had] at sameLocals
      rw [List.foldl_cons] at has
      by_cases inBlock : n.status = .inBlock
      · have same : addUserCallback tip k st n = st := by simp [addUserCallback, inBlock]
        rw [same] at has
        exact ih st had has
      · by_cases final : n.isFinalized = true
        · have written : ∃ l, (addUserCallback tip k st n).locals = some l ∧
              l.tip = some (toString tip) ∧ l.transactionCount = some k := by
            simp [addUserCallback, inBlock, final, sameLocals]
          obtain ⟨l, now, tip', count⟩ := written
          rcases ih _ now has with rfl | rewritten
          · exact .inr ⟨tip', count⟩
          · exact .inr rewritten
        · have same : addUserCallback tip k st n = st := by simp [addUserCallback, inBlock, final]
          rw [same] at has
          exact ih st had has

/-- A settled submission declares a success only of itself. -/
theorem Submission.settle_truthful {own : Own} {locals : Locals} (truthful : Truthful own locals)
    (s : Submission) (t : Ticket) (x : Sending) (mine : (s, t) ∈ own) :
    Truthful own (s.settle locals ⟨t.tip, t.numberTransaction, x⟩).2 := by
  cases s with
  | transferFunds recipient amount => exact truthful
  | addUser newAccount userInfo role passesRes =>
      cases passesRes with
      | false =>
          cases x with
          | notBuilt error | refused error => exact truthful
          | accepted ns =>
              have unknown := (foldl_addUserCallback_none t.tip t.numberTransaction ns
                { refTime := none, proofSize := none, locals := none, promise := .pending } rfl).1
              show Truthful own ((ns.foldl (addUserCallback t.tip t.numberTransaction)
                { refTime := none, proofSize := none, locals := none, promise := .pending }).locals.getD
                  locals)
              rw [unknown]
              exact truthful
      | true =>
          cases x with
          | notBuilt error => exact truthful
          | refused error =>
              intro success
              cases success
          | accepted ns =>
              obtain ⟨left, has, -⟩ := foldl_addUserCallback t.tip t.numberTransaction ns
                { refTime := none, proofSize := none, locals := some locals, promise := .pending }
                rfl (fun e => by simp)
              show Truthful own ((ns.foldl (addUserCallback t.tip t.numberTransaction)
                { refTime := none, proofSize := none, locals := some locals
                  promise := .pending }).locals.getD locals)
              rw [has, Option.getD_some]
              rcases foldl_addUserCallback_locals _ _ ns _ rfl has with rfl | ⟨tip, count⟩
              · exact truthful
              · exact fun _ => ⟨_, mine, rfl, tip, count⟩

/-! ## One step of a request -/

/-- What a submission that begins is issued. -/
def Begin.issue (g : Globals) (b : Begin) : Submission × Ticket :=
  (b.submission, (b.submission.begin b.moment g).1)

theorem Handler.goOn_owns {entry : Entry} {own : Own} (h : Handler) (id : Nat) (w : Moment)
    (g : Globals) {locals : Locals} {awaits : List Await} (truthful : Truthful own locals)
    (inOrder : own.map Prod.fst ++ awaited awaits <+: entry.submissions) :
    Owns entry (own ++ (begins id w awaits).toList.map (Begin.issue g))
      (h.goOn w g locals awaits).2.1 := by
  rcases awaits with _ | ⟨_ | s, rest⟩
  · have written : (h.finish w.disk locals).locals = locals := by
      unfold Handler.finish
      split
      · rfl
      · split <;> rfl
    refine ⟨by simpa [begins, Handler.goOn, Request.left, awaited] using inOrder, ?_, ?_⟩
    · intro u here
      cases here
    · show Truthful (own ++ []) (h.finish w.disk locals).locals
      rw [written]
      exact truthful.mono []
  · refine ⟨by simpa [begins, Handler.goOn, Request.left, awaited] using inOrder, ?_,
      truthful.mono _⟩
    intro u here
    cases here
  · refine ⟨by simpa [begins, Handler.goOn, Request.left, awaited, Begin.issue] using inOrder, ?_,
      truthful.mono _⟩
    intro u here
    cases here
    exact List.getLast?_concat

theorem Entry.arrive_owns (id : Nat) (w : Moment) (g : Globals) (entry : Entry) :
    Owns entry ((entry.begins id w).toList.map (Begin.issue g)) (entry.arrive w g).2.1 := by
  cases entry with
  | unhandled e | answered r =>
      exact ⟨List.prefix_rfl, fun u here => (nomatch here), truthful_fresh _⟩
  | runs h => exact h.goOn_owns id w g (truthful_fresh []) List.prefix_rfl

/-- A request that moves takes along what it owns. -/
theorem owns_step {entry : Entry} {own : Own} {g g' : Globals} {r r' : Request} {e : RequestStep}
    {m : Tickets.Move} (id : Nat) (owns : Owns entry own r)
    (stepped : r.step g e = some (m, r', g')) :
    Owns entry (own ++ (r.begins id e).toList.map (Begin.issue g)) r' := by
  obtain ⟨inOrder, awaits, reports⟩ := owns
  revert stepped
  fun_cases Request.step g r e with
  | case1 h rest locals w =>
      intro stepped
      have truthful : Truthful own locals := reports
      have next := h.goOn_owns id w g truthful inOrder
      rw [Option.some.inj stepped] at next
      exact next
  | case2 u | case3 u error | case4 u | case5 u error | case6 u ns n =>
      intro stepped
      cases stepped
      show Owns entry (own ++ []) _
      rw [List.append_nil]
      exact ⟨inOrder, awaits, reports⟩
  | case7 u s w locals settled =>
      intro stepped
      cases stepped
  | case8 u s w error locals settled =>
      intro stepped
      cases stepped
      have mine := List.mem_of_getLast? (awaits u rfl)
      have truthful := Submission.settle_truthful reports u.submission u.ticket s mine
      have last : (u.submission.settle u.locals (u.attempt s)).2 = locals := by rw [settled]
      simp only [Request.begins, settled, Option.toList_none, List.map_nil, List.append_nil]
      refine ⟨?_, ?_, ?_⟩
      · rw [Request.left, List.append_nil]
        exact (List.prefix_append _ _).trans inOrder
      · intro u' here
        cases here
      · rw [← last]
        exact truthful
  | case9 u s w value locals settled =>
      intro stepped
      have mine := List.mem_of_getLast? (awaits u rfl)
      have truthful := Submission.settle_truthful reports u.submission u.ticket s mine
      have last : (u.submission.settle u.locals (u.attempt s)).2 = locals := by rw [settled]
      have next := u.handler.goOn_owns id w g (last ▸ truthful) inOrder
      rw [Option.some.inj stepped] at next
      simp only [Request.begins, settled]
      exact next
  | case10 =>
      intro stepped
      cases stepped

/-! ## Whole runs -/

/-- The tickets issued to request `id`, in order. -/
def ownTickets (l : List (Begin × Ticket)) (id : Nat) : Own :=
  (l.filter fun bt => decide (bt.1.id = id)).map fun bt => (bt.1.submission, bt.2)

theorem ownTickets_append (l k : List (Begin × Ticket)) (id : Nat) :
    ownTickets (l ++ k) id = ownTickets l id ++ ownTickets k id := by
  simp [ownTickets]

theorem mem_ownTickets {l : List (Begin × Ticket)} {id : Nat} {st : Submission × Ticket}
    (member : st ∈ ownTickets l id) :
    ∃ (k : Nat) (b : Begin), l[k]? = some (b, st.2) ∧ b.id = id ∧ b.submission = st.1 := by
  obtain ⟨⟨b, t⟩, kept, rfl⟩ := List.mem_map.mp member
  obtain ⟨inList, isOwn⟩ := List.mem_filter.mp kept
  obtain ⟨k, found⟩ := List.mem_iff_getElem?.mp inList
  exact ⟨k, b, found, of_decide_eq_true isOwn, rfl⟩

/-- A step issues at most one ticket, from the counters as they are. -/
theorem issued_concat (cfg : Config) (es : List LoopStep) (e : LoopStep) :
    issued cfg (es ++ [e]) = issued cfg es ++
      (((server cfg).run es).begins cfg e).toList.map fun b =>
        (b, (b.submission.begin b.moment ((server cfg).run es).globals).1) := by
  have here : (counters cfg.globals).run (begun cfg es) = ((server cfg).run es).globals :=
    ((countersDriver cfg).view_run es).symm
  have next : begun cfg (es ++ [e]) =
      begun cfg es ++ (((server cfg).run es).begins cfg e).toList :=
    (countersDriver cfg).commands_concat es e
  rw [issued, next, Machine.trace_append, here]
  cases ((server cfg).run es).begins cfg e <;> rfl

theorem ownTickets_issue (g : Globals) (starts : Option Begin) {id : Nat}
    (own : ∀ b : Begin, starts = some b → b.id = id) (id' : Nat) :
    ownTickets (starts.toList.map fun b => (b, (b.submission.begin b.moment g).1)) id' =
      if id' = id then starts.toList.map (Begin.issue g) else [] := by
  cases starts with
  | none => simp [ownTickets]
  | some b =>
      have mine := own b rfl
      by_cases same : id' = id
      · simp [ownTickets, mine, same, Begin.issue]
      · simp [ownTickets, mine, same, Ne.symm same]

theorem begins_id {id : Nat} {w : Moment} {awaits : List Await} {b : Begin}
    (starts : begins id w awaits = some b) : b.id = id := by
  rcases awaits with _ | ⟨_ | s, rest⟩
  · cases starts
  · cases starts
  · cases starts
    rfl

theorem Entry.begins_id {id : Nat} {w : Moment} {entry : Entry} {b : Begin}
    (starts : entry.begins id w = some b) : b.id = id := by
  cases entry with
  | unhandled e => cases starts
  | answered r => cases starts
  | runs h => exact Server.begins_id starts

theorem Request.begins_id {id : Nat} {r : Request} {e : RequestStep} {b : Begin}
    (starts : r.begins id e = some b) : b.id = id := by
  unfold Request.begins at starts
  split at starts
  · exact Server.begins_id starts
  · split at starts
    · exact Server.begins_id starts
    · cases starts
  · cases starts

/-- `P` holds of every request, of the route it entered and of the tickets issued to it;
and no ticket was issued to a request that has not arrived. -/
structure AllRequests (P : Entry → Own → Request → Prop) (entries : List Entry)
    (l : List (Begin × Ticket)) (requests : List Request) : Prop where
  same : entries.length = requests.length
  each : ∀ id entry r, entries[id]? = some entry → requests[id]? = some r →
    P entry (ownTickets l id) r
  others : ∀ id, requests.length ≤ id → ownTickets l id = []

theorem arrivals_concat (cfg : Config) (h : List (LoopStep × Tickets.Move)) (e : LoopStep)
    (m : Tickets.Move) :
    arrivals cfg (h ++ [(e, m)]) = arrivals cfg h ++
      match e with
      | .arrive route generated b _ => [route.enter cfg.keyring generated b]
      | .request _ _ => [] := by
  rw [arrivals, List.filterMap_append]
  cases e <;> rfl

section

variable {P : Entry → Own → Request → Prop} {entries : List Entry} {l : List (Begin × Ticket)}
  {requests : List Request}

/-- A request arrives. -/
theorem AllRequests.arrive (all : AllRequests P entries l requests) {entry : Entry} {w : Moment}
    {g : Globals}
    (new : P entry ((entry.begins requests.length w).toList.map (Begin.issue g))
      (entry.arrive w g).2.1) :
    AllRequests P (entries ++ [entry])
      (l ++ (entry.begins requests.length w).toList.map fun b =>
        (b, (b.submission.begin b.moment g).1))
      (requests ++ [(entry.arrive w g).2.1]) := by
  have issue := ownTickets_issue g _ fun b (starts : entry.begins requests.length w = some b) =>
    Entry.begins_id starts
  refine ⟨by simp [all.same], fun id entry' r isEntry isRequest => ?_, fun id beyond => ?_⟩
  · rw [ownTickets_append, issue]
    by_cases last : id = requests.length
    · subst last
      rw [if_pos rfl, all.others _ le_rfl, List.nil_append]
      rw [← all.same, List.getElem?_concat_length] at isEntry
      rw [List.getElem?_concat_length] at isRequest
      cases isEntry
      cases isRequest
      exact new
    · have bound := (List.getElem?_eq_some_iff.mp isRequest).1
      rw [List.length_append, List.length_singleton] at bound
      have before : id < requests.length := by omega
      rw [List.getElem?_append_left before] at isRequest
      rw [List.getElem?_append_left (all.same ▸ before)] at isEntry
      rw [if_neg last, List.append_nil]
      exact all.each id entry' r isEntry isRequest
  · rw [List.length_append, List.length_singleton] at beyond
    rw [ownTickets_append, issue, if_neg (by omega), all.others id (by omega), List.append_nil]

/-- A request moves, and the others stay. -/
theorem AllRequests.request (all : AllRequests P entries l requests) {id : Nat} {r r' : Request}
    {e : RequestStep} {g : Globals} (found : requests[id]? = some r)
    (moved : ∀ entry own, P entry own r →
      P entry (own ++ (r.begins id e).toList.map (Begin.issue g)) r') :
    AllRequests P entries
      (l ++ (r.begins id e).toList.map fun b => (b, (b.submission.begin b.moment g).1))
      (requests.set id r') := by
  have issue := ownTickets_issue g _ fun b (starts : r.begins id e = some b) =>
    Request.begins_id starts
  have bound := (List.getElem?_eq_some_iff.mp found).1
  refine ⟨by simp [all.same], fun other entry q isEntry isRequest => ?_, fun other beyond => ?_⟩
  · rw [ownTickets_append, issue]
    by_cases mover : other = id
    · subst mover
      rw [List.getElem?_set_self bound] at isRequest
      cases isRequest
      rw [if_pos rfl]
      exact moved entry _ (all.each other entry r isEntry found)
    · rw [List.getElem?_set_ne (Ne.symm mover)] at isRequest
      rw [if_neg mover, List.append_nil]
      exact all.each other entry q isEntry isRequest
  · rw [List.length_set] at beyond
    rw [ownTickets_append, issue, if_neg (by omega), all.others other beyond, List.append_nil]

/-- One step of the server keeps what each request keeps by itself. -/
theorem AllRequests.step (cfg : Config) (es : List LoopStep) (e : LoopStep)
    (all : AllRequests P (arrivals cfg ((server cfg).trace es)) (issued cfg es)
      ((server cfg).run es).requests)
    (arrive : ∀ route generated b id w g, P (Route.enter cfg.keyring generated b route)
      (((route.enter cfg.keyring generated b).begins id w).toList.map (Begin.issue g))
      ((route.enter cfg.keyring generated b).arrive w g).2.1)
    (move : ∀ id d r m r' g g', e = .request id d → ((server cfg).run es).requests[id]? = some r →
      r.step g d = some (m, r', g') → ∀ entry own, P entry own r →
        P entry (own ++ (r.begins id d).toList.map (Begin.issue g)) r') :
    AllRequests P (arrivals cfg ((server cfg).trace (es ++ [e]))) (issued cfg (es ++ [e]))
      ((server cfg).run (es ++ [e])).requests := by
  rw [Machine.run_concat, Machine.trace_concat, arrivals_concat, issued_concat]
  cases e with
  | arrive route generated b w => exact all.arrive (arrive route generated b _ w _)
  | request id d =>
      rw [List.append_nil]
      rcases server_step_request cfg ((server cfg).run es) id d with
        ⟨stuck, same⟩ | ⟨r, m, r', g, found, stepped, next⟩
      · rw [same, ServerState.begins_of_stuck cfg stuck]
        simpa using all
      · rw [next, ServerState.begins_of_found cfg found]
        exact all.request found (move id d r m r' _ g rfl found stepped)

end

/-- Along any run, requests own what they were issued. -/
theorem server_owns (cfg : Config) (es : List LoopStep) :
    AllRequests Owns (arrivals cfg ((server cfg).trace es)) (issued cfg es)
      ((server cfg).run es).requests := by
  induction es using List.reverseRecOn with
  | nil => exact ⟨rfl, fun id entry r isEntry => (nomatch isEntry), fun _ _ => rfl⟩
  | append_singleton es e ih =>
      exact ih.step cfg es e (fun route generated b id w g => Entry.arrive_owns id w g _)
        fun id d r m r' g g' _ _ stepped entry own owns => owns_step id owns stepped

/-! ## Results -/

/-- The submission request `id` awaits. -/
def ServerState.underway (s : ServerState) (id : Nat) : Option Underway :=
  s.requests[id]?.bind Request.underway

/-- What request `id` came to, once it is done. -/
def ServerState.outcome (s : ServerState) (id : Nat) : Option Outcome :=
  s.requests[id]?.bind fun
    | .closed o => some o
    | _ => none

theorem ServerState.outcome_eq {s : ServerState} {id : Nat} {o : Outcome}
    (done : s.outcome id = some o) : s.requests[id]? = some (.closed o) := by
  obtain ⟨r, found, closed⟩ := Option.bind_eq_some_iff.mp done
  cases r with
  | closed o' =>
      cases closed
      exact found
  | timer _ _ _ | nonceTaken _ | sending _ | sent _ _ => cases closed

theorem server_owns_request (cfg : Config) (es : List LoopStep) {id : Nat} {r : Request}
    (found : ((server cfg).run es).requests[id]? = some r) :
    ∃ entry, (arrivals cfg ((server cfg).trace es))[id]? = some entry ∧
      Owns entry (ownTickets (issued cfg es) id) r := by
  have all := server_owns cfg es
  have bound := (List.getElem?_eq_some_iff.mp found).1
  rw [← all.same] at bound
  exact ⟨_, List.getElem?_eq_getElem bound, all.each id _ r (List.getElem?_eq_getElem bound) found⟩

/-- The submission a request awaits has the ticket it was issued. -/
theorem underway_issued (cfg : Config) (es : List LoopStep) {id : Nat} {u : Underway}
    (awaits : ((server cfg).run es).underway id = some u) :
    ∃ (k : Nat) (b : Begin), (issued cfg es)[k]? = some (b, u.ticket) ∧ b.id = id ∧
      b.submission = u.submission := by
  obtain ⟨r, found, here⟩ := Option.bind_eq_some_iff.mp awaits
  obtain ⟨entry, -, owns⟩ := server_owns_request cfg es found
  exact mem_ownTickets (List.mem_of_getLast? (owns.awaits u here))

/-- **Tips follow nonces.**  With decremental tips, in every state reached, the tip of a
transaction on its way is fixed by its nonce: one less for each nonce before it, and 0
from the configured number of submissions on. -/
theorem tips_follow_nonces (cfg : Config) (decremental : cfg.globals.tips.isTipRandom = false)
    (es : List LoopStep) {id : Nat} {u : Underway}
    (awaits : ((server cfg).run es).underway id = some u) :
    cfg.globals.aliceNonce ≤ u.ticket.nonce ∧
      u.ticket.tip =
        cfg.globals.tips.decrementalTip - (u.ticket.nonce - cfg.globals.aliceNonce + 1) := by
  obtain ⟨k, b, given, -, -⟩ := underway_issued cfg es awaits
  obtain ⟨nonce, tip⟩ := issued_ticket cfg es given
  simp only [TipManager.tipAt, decremental, Bool.false_eq_true, if_false] at tip
  have position : u.ticket.nonce - cfg.globals.aliceNonce = k := by omega
  exact ⟨by omega, by rw [position, tip]⟩

/-- The second of two requests has nonce 6 and tip 98, of 100. -/
theorem tips_follow_nonces_second :
    let es := createUserSteps 0 0 none ++ createUserSteps 1 1 none
    ∃ u, ((server nonceFive).run es).underway 1 = some u ∧
      5 ≤ u.ticket.nonce ∧ u.ticket.tip = 100 - (u.ticket.nonce - 5 + 1) := by
  intro es
  have awaits : ∃ u, ((server nonceFive).run es).underway 1 = some u := ⟨_, rfl⟩
  obtain ⟨u, here⟩ := awaits
  exact ⟨u, here, tips_follow_nonces nonceFive rfl es here⟩

/-- The submissions begun for request `id`, in order. -/
def begunFor (bs : List Begin) (id : Nat) : List Submission :=
  (bs.filter fun b => decide (b.id = id)).map Begin.submission

theorem begunFor_eq (cfg : Config) (es : List LoopStep) (id : Nat) :
    begunFor (begun cfg es) id = (ownTickets (issued cfg es) id).map Prod.fst := by
  have same : (issued cfg es).map Prod.fst = begun cfg es := Machine.map_fst_trace _ _
  rw [begunFor, ← same, List.filter_map, List.map_map, ownTickets, List.map_map]
  rfl

/-- No route submits two registrations. -/
theorem registrations_le_one (keyring : Keyring) (generated : String) (b : CreateUserBody)
    (route : Route) :
    ((route.enter keyring generated b).submissions.filter Submission.isAddUser).length ≤ 1 := by
  cases route <;>
    simp only [Route.enter, createUser, createUserBasedOnPersonalizedMnemonic,
      createUserWithExistingAddress, createUserWithDynamicGas] <;>
    split <;> first | exact Nat.zero_le 1 | exact le_refl 1

theorem mem_arrivals {cfg : Config} {h : List (LoopStep × Tickets.Move)} {entry : Entry}
    (arrived : entry ∈ arrivals cfg h) :
    ∃ route generated b, (route : Route).enter cfg.keyring generated b = entry := by
  obtain ⟨⟨e, m⟩, -, enters⟩ := List.mem_filterMap.mp arrived
  cases e with
  | arrive route generated b w => exact ⟨route, generated, b, Option.some.inj enters⟩
  | request id e => cases enters

/-- **Nothing is submitted twice.**  Along any run a request begins the submissions of its
route in their order, each at most once; so it registers at most one account. -/
theorem submits_in_order (cfg : Config) (es : List LoopStep) {id : Nat} {entry : Entry}
    (arrived : (arrivals cfg ((server cfg).trace es))[id]? = some entry) :
    begunFor (begun cfg es) id <+: entry.submissions ∧
      ((begunFor (begun cfg es) id).filter Submission.isAddUser).length ≤ 1 := by
  have all := server_owns cfg es
  have bound := (List.getElem?_eq_some_iff.mp arrived).1
  rw [all.same] at bound
  have owns := all.each id entry _ arrived (List.getElem?_eq_getElem bound)
  have inOrder : begunFor (begun cfg es) id <+: entry.submissions := by
    rw [begunFor_eq]
    exact (List.prefix_append _ _).trans owns.inOrder
  obtain ⟨route, generated, b, rfl⟩ := mem_arrivals (List.mem_of_getElem? arrived)
  refine ⟨inOrder, ?_⟩
  exact (inOrder.filter _).length_le.trans (registrations_le_one cfg.keyring generated b route)

theorem submits_in_order_second :
    let es := createUserSteps 0 0 none ++ createUserSteps 1 1 none
    let bs := begunFor (begun nonceFive es) 1
    bs.length = 1 ∧ (bs.filter Submission.isAddUser).length ≤ 1 := by
  intro es bs
  have arrived : ∃ entry, (arrivals nonceFive ((server nonceFive).trace es))[1]? = some entry :=
    ⟨_, rfl⟩
  obtain ⟨entry, here⟩ := arrived
  exact ⟨rfl, (submits_in_order nonceFive es here).2⟩

/-- **What is reported was issued.**  A request that is done and declares a success reports
the tip and the transaction number its own registration was issued. -/
theorem reports_issued (cfg : Config) (es : List LoopStep) {id : Nat} {o : Outcome}
    (done : ((server cfg).run es).outcome id = some o)
    (success : o.locals.transactionSuccess = some true) :
    ∃ (k : Nat) (b : Begin) (t : Ticket), (issued cfg es)[k]? = some (b, t) ∧ b.id = id ∧
      b.submission.isAddUser = true ∧ o.locals.tip = some (toString t.tip) ∧
      o.locals.transactionCount = some t.numberTransaction := by
  obtain ⟨entry, -, owns⟩ := server_owns_request cfg es (ServerState.outcome_eq done)
  obtain ⟨⟨s, t⟩, mine, isAddUser, tip, count⟩ := owns.reports success
  obtain ⟨k, b, given, isOwn, rfl⟩ := mem_ownTickets mine
  exact ⟨k, b, t, given, isOwn, isAddUser, tip, count⟩

/-- The steps that end request `id` with success. -/
def finishSteps (id : Nat) : List LoopStep :=
  [.request id (.answer none), .request id (.notify ⟨.finalized, []⟩), .request id (.resume noon)]

theorem toString_injective {m n : Nat} (same : toString m = toString n) : m = n := by
  have texts : (toString m).toList = (toString n).toList := congrArg String.toList same
  have read : ∀ k : Nat, Nat.ofDigitChars 10 (toString k).toList 0 = k := by
    intro k
    show Nat.ofDigitChars 10 (Nat.repr k).toList 0 = k
    rw [Nat.repr_eq_ofList_toDigits, String.toList_ofList, Nat.ofDigitChars_ten_toDigits]
  rw [← read m, texts, read n]

/-- **Reported tips are apart.**  With decremental tips, two requests that are done and
declare a success report different tips, unless both report 0. -/
theorem reported_tips_apart (cfg : Config) (decremental : cfg.globals.tips.isTipRandom = false)
    (es : List LoopStep) {id id' : Nat} {o o' : Outcome} (apart : id ≠ id')
    (done : ((server cfg).run es).outcome id = some o)
    (done' : ((server cfg).run es).outcome id' = some o')
    (success : o.locals.transactionSuccess = some true)
    (success' : o'.locals.transactionSuccess = some true) :
    o.locals.tip ≠ o'.locals.tip ∨ o.locals.tip = some "0" ∧ o'.locals.tip = some "0" := by
  obtain ⟨k, b, t, given, isOwn, -, tip, -⟩ := reports_issued cfg es done success
  obtain ⟨k', b', t', given', isOwn', -, tip', -⟩ := reports_issued cfg es done' success'
  have positions : k ≠ k' := by
    rintro rfl
    rw [given] at given'
    cases given'
    exact apart (isOwn.symm.trans isOwn')
  have value := (issued_ticket cfg es given).2
  have value' := (issued_ticket cfg es given').2
  simp only [TipManager.tipAt, decremental, Bool.false_eq_true, if_false] at value value'
  rw [tip, tip']
  by_cases both : t.tip = t'.tip
  · have out : t.tip = 0 := by omega
    have out' : t'.tip = 0 := by omega
    exact .inr ⟨by rw [out]; rfl, by rw [out']; rfl⟩
  · exact .inl fun same => both (toString_injective (Option.some.inj same))

theorem reported_tips_apart_two :
    let es := createUserSteps 0 0 none ++ createUserSteps 1 1 none ++ finishSteps 1 ++ finishSteps 0
    ∃ o o', ((server nonceFive).run es).outcome 0 = some o ∧
      ((server nonceFive).run es).outcome 1 = some o' ∧
      (o.locals.tip ≠ o'.locals.tip ∨ o.locals.tip = some "0" ∧ o'.locals.tip = some "0") := by
  intro es
  have done : ∃ o o', ((server nonceFive).run es).outcome 0 = some o ∧
      ((server nonceFive).run es).outcome 1 = some o' ∧
      o.locals.transactionSuccess = some true ∧ o'.locals.transactionSuccess = some true :=
    ⟨_, _, rfl, rfl, rfl, rfl⟩
  obtain ⟨o, o', here, here', success, success'⟩ := done
  exact ⟨o, o', here, here',
    reported_tips_apart nonceFive rfl es (by decide) here here' success success'⟩

end PatientAccess.Server
