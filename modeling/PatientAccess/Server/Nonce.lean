/-
# Server.Nonce -- the nonces of concurrent requests

Every transaction the creation routes send is signed by Alice with a nonce from the
global counter `aliceNonce`.  `getAndIncrementNonce` advances it before the
transaction is built, and nothing gives a nonce back: where the building throws, or
the node refuses the transaction, the nonce is lost.

A request is a holder of the nonce counter (`Theory.Tickets`): it holds its nonce from
taking it to the node's answer (`Request.step_spec`).  So the nonces held, accepted
and lost are those handed out (`server_accounted`), and while no request holds one,
the accepted nonces have no gap exactly when no request has failed with its nonce in
hand (`nonces_without_gap_iff`).
-/
import PatientAccess.Theory.Tickets
import PatientAccess.Server.EventLoop

namespace PatientAccess.Server

open PatientAccess.Theory

set_option autoImplicit false

def ServerState.held (s : ServerState) : List Nat := s.requests.filterMap Request.holds

/-- No request is between taking its nonce and the node's answer. -/
def Quiescent (s : ServerState) : Prop := ∀ r ∈ s.requests, r.holds = none

instance (s : ServerState) : Decidable (Quiescent s) :=
  inferInstanceAs (Decidable (∀ r ∈ s.requests, _))

theorem quiescent_iff_held (s : ServerState) : Quiescent s ↔ s.held = [] := by
  rw [ServerState.held, List.filterMap_eq_nil_iff, Quiescent]

/-! ## What a step does to the nonces -/

theorem Submission.begin_nonce (w : Moment) (g : Globals) (s : Submission) :
    (s.begin w g).1.nonce = g.aliceNonce ∧ (s.begin w g).2.aliceNonce = g.aliceNonce + 1 := by
  cases s <;> exact ⟨rfl, rfl⟩

/-- A handler that goes on takes one nonce or none, and loses none. -/
theorem Handler.goOn_spec (h : Handler) (w : Moment) (g : Globals) (locals : Locals)
    (awaits : List Await) :
    let (m, r, g') := h.goOn w g locals awaits
    Tickets.Step g.aliceNonce none m r.holds g'.aliceNonce ∧ m.lost = none ∧ m.used = none := by
  rcases awaits with _ | ⟨_ | s, rest⟩
  · exact ⟨.idle none, rfl, rfl⟩
  · exact ⟨.idle none, rfl, rfl⟩
  · obtain ⟨nonce, next⟩ := s.begin_nonce w g
    refine ⟨?_, rfl, rfl⟩
    show Tickets.Step g.aliceNonce none (.take (s.begin w g).1.nonce)
      (some (s.begin w g).1.nonce) (s.begin w g).2.aliceNonce
    rw [nonce, next]
    exact .take

theorem Entry.arrive_spec (w : Moment) (g : Globals) (entry : Entry) :
    let (m, r, g') := entry.arrive w g
    Tickets.Step g.aliceNonce none m r.holds g'.aliceNonce ∧ m.lost = none ∧ m.used = none := by
  cases entry with
  | unhandled e => exact ⟨.idle none, rfl, rfl⟩
  | answered r => exact ⟨.idle none, rfl, rfl⟩
  | runs h => exact h.goOn_spec w g .fresh h.awaits

/-- A step that fails with the nonce in hand: the building throws after the nonce is
taken, or the node refuses the transaction. -/
def Request.failsWithNonce : Request → RequestStep → Bool
  | .nonceTaken _, .build (some _) => true
  | .sending _, .answer (some _) => true
  | _, _ => false

/-- A request's step is that of one holder of the nonce counter. -/
theorem Request.step_spec {g g' : Globals} {r r' : Request} {e : RequestStep} {m : Tickets.Move}
    (stepped : r.step g e = some (m, r', g')) :
    Tickets.Step g.aliceNonce r.holds m r'.holds g'.aliceNonce ∧
      m.lost.isSome = r.failsWithNonce e := by
  revert stepped
  fun_cases Request.step g r e with
  | case1 h rest locals w =>
      intro stepped
      have spec := h.goOn_spec w g locals rest
      rw [Option.some.inj stepped] at spec
      exact ⟨spec.1, by rw [spec.2.1]; rfl⟩
  | case2 u | case6 u ns n | case8 u s w error locals settled =>
      intro stepped
      cases stepped
      exact ⟨.idle _, rfl⟩
  | case3 u error | case5 u error =>
      intro stepped
      cases stepped
      exact ⟨.lose _, rfl⟩
  | case4 u =>
      intro stepped
      cases stepped
      exact ⟨.use _, rfl⟩
  | case7 u s w locals settled =>
      intro stepped
      cases stepped
  | case9 u s w value locals settled =>
      intro stepped
      have spec := u.handler.goOn_spec w g locals u.rest
      rw [Option.some.inj stepped] at spec
      exact ⟨spec.1, by rw [spec.2.1]; rfl⟩
  | case10 =>
      intro stepped
      cases stepped

theorem Request.step_of_failsWithNonce (g : Globals) {r : Request} {e : RequestStep}
    (fails : r.failsWithNonce e = true) : ∃ n r', r.step g e = some (.lose n, r', g) := by
  fun_cases Request.failsWithNonce r e with
  | case1 u error => exact ⟨u.ticket.nonce, _, rfl⟩
  | case2 u error => exact ⟨u.ticket.nonce, _, rfl⟩
  | case3 => simp_all [Request.failsWithNonce]

/-- The step makes a request fail with its nonce in hand. -/
def FailsWithNonce (s : ServerState) : LoopStep → Prop
  | .arrive _ _ _ _ => False
  | .request id e => s.requests[id]?.any (fun r => r.failsWithNonce e) = true

theorem filterMap_holds_split (before : List Request) (r : Request) (after : List Request) :
    ((before ++ r :: after).filterMap Request.holds).Perm
      (r.holds.toList ++ (before ++ after).filterMap Request.holds) := by
  refine (List.perm_middle.filterMap Request.holds).trans (List.Perm.of_eq ?_)
  cases held : r.holds <;> simp [held]

/-- A request that moves changes what it holds itself, and nothing else. -/
theorem held_set {requests : List Request} {id : Nat} {r : Request}
    (found : requests[id]? = some r) (r' : Request) :
    ∃ others, (r.holds.toList ++ others).Perm (requests.filterMap Request.holds) ∧
      ((requests.set id r').filterMap Request.holds).Perm (r'.holds.toList ++ others) := by
  obtain ⟨bound, rfl⟩ := List.getElem?_eq_some_iff.mp found
  have moved : ∃ before after, requests = before ++ requests[id] :: after ∧
      before.length = id ∧ requests.set id r' = before ++ r' :: after :=
    List.exists_of_set bound
  obtain ⟨before, after, split, -, updated⟩ := moved
  refine ⟨(before ++ after).filterMap Request.holds, ?_, ?_⟩
  · nth_rewrite 2 [split]
    exact (filterMap_holds_split before _ after).symm
  · rw [updated]
    exact filterMap_holds_split before r' after

/-- One step of the event loop is one holder's step, or nobody's. -/
theorem server_step_accounted (cfg : Config) {first : Nat} {lost : List Nat} (s : ServerState)
    (e : LoopStep)
    (acc : Tickets.Accounted first s.globals.aliceNonce s.held s.accepted lost) :
    let (m, s') := (server cfg).step s e
    Tickets.Accounted first s'.globals.aliceNonce s'.held s'.accepted (lost ++ m.lost.toList) := by
  cases e with
  | arrive route generated b w =>
      obtain ⟨step, -, unused⟩ :=
        Entry.arrive_spec w s.globals (route.enter cfg.keyring generated b)
      have newcomer : Tickets.Accounted first s.globals.aliceNonce
          ((none : Option Nat).toList ++ s.held) s.accepted lost := acc
      have account := newcomer.step step
      rw [unused, Option.toList_none, List.append_nil] at account
      have split := filterMap_holds_split s.requests
        ((route.enter cfg.keyring generated b).arrive w s.globals).2.1 []
      rw [List.append_nil] at split
      exact account.congr split
  | request id e =>
      simp only [server, serverStep]
      cases moved : s.requests[id]?.bind fun r => r.step s.globals e with
      | none => simpa [Tickets.Move.lost] using acc
      | some result =>
          obtain ⟨m, r', g⟩ := result
          obtain ⟨r, found, stepped⟩ := Option.bind_eq_some_iff.mp moved
          obtain ⟨others, before, after⟩ := held_set found r'
          have account := (acc.congr before).step (Request.step_spec stepped).1
          exact account.congr after

theorem server_lost_eq_none_iff (cfg : Config) (s : ServerState) (e : LoopStep) :
    ((server cfg).step s e).1.lost = none ↔ ¬ FailsWithNonce s e := by
  cases e with
  | arrive route generated b w =>
      obtain ⟨-, kept, -⟩ := Entry.arrive_spec w s.globals (route.enter cfg.keyring generated b)
      exact iff_of_true kept (fun fails => fails)
  | request id e =>
      simp only [FailsWithNonce, server, serverStep]
      cases found : s.requests[id]? with
      | none => simp [Tickets.Move.lost]
      | some r =>
          rw [Option.bind_some, Option.any_some]
          cases stepped : r.step s.globals e with
          | none =>
              refine iff_of_true rfl fun fails => ?_
              obtain ⟨n, r', possible⟩ := Request.step_of_failsWithNonce s.globals fails
              rw [stepped] at possible
              cases possible
          | some result =>
              obtain ⟨m, r', g⟩ := result
              rw [← (Request.step_spec stepped).2]
              show m.lost = none ↔ _
              cases m.lost <;> simp

/-! ## Whole runs -/

/-- The nonces lost along a history. -/
def lostNonces (h : List (LoopStep × Tickets.Move)) : List Nat := h.filterMap fun io => io.2.lost

theorem lostNonces_eq_nil_iff (cfg : Config) (es : List LoopStep) :
    lostNonces ((server cfg).trace es) = [] ↔
      (server cfg).AllSteps (fun s e => ¬ FailsWithNonce s e) es := by
  rw [lostNonces, Machine.filterMap_trace_eq_nil_iff]
  simp only [server_lost_eq_none_iff]

/-- After any steps, the nonces handed out are held, accepted or lost, each once. -/
theorem server_accounted (cfg : Config) (es : List LoopStep) :
    Tickets.Accounted cfg.globals.aliceNonce ((server cfg).run es).globals.aliceNonce
      ((server cfg).run es).held ((server cfg).run es).accepted
      (lostNonces ((server cfg).trace es)) := by
  refine (server cfg).history_induct (R := fun s h => Tickets.Accounted cfg.globals.aliceNonce
    s.globals.aliceNonce s.held s.accepted (lostNonces h)) (Tickets.accounted_start _) ?_ es
  intro s h e acc
  have next := server_step_accounted cfg s e acc
  have more : lostNonces (h ++ [(e, ((server cfg).step s e).1)]) =
      lostNonces h ++ ((server cfg).step s e).1.lost.toList := by
    rw [lostNonces, List.filterMap_append]
    cases lost : ((server cfg).step s e).1.lost <;> simp [lostNonces, lost]
  rw [more]
  exact next

/-- Whatever fails, the node never accepts two transactions with one nonce. -/
theorem accepted_nodup (cfg : Config) (es : List LoopStep) : ((server cfg).run es).accepted.Nodup :=
  (server_accounted cfg es).used_nodup

/-- A lost nonce blocks every later transaction, however the run goes on. -/
theorem lost_nonce_blocks (cfg : Config) (es later : List LoopStep) {n k : Nat}
    (lost : n ∈ lostNonces ((server cfg).trace es)) (above : n < k) :
    Tickets.Stuck cfg.globals.aliceNonce ((server cfg).run (es ++ later)).accepted k := by
  refine (server_accounted cfg (es ++ later)).stuck_of_lost ?_ above
  rw [Machine.trace_append, lostNonces, List.filterMap_append]
  exact List.mem_append_left _ lost

/-- The counter has advanced by the accepted transactions, whose nonces are different and
consecutive, and a transaction with the next nonce is not stuck behind a missing one. -/
structure WithoutGap (cfg : Config) (s : ServerState) : Prop where
  noGap : Tickets.NoGap cfg.globals.aliceNonce s.globals.aliceNonce s.accepted
  notStuck : ¬ Tickets.Stuck cfg.globals.aliceNonce s.accepted s.globals.aliceNonce

/-- At rest, there is no gap exactly when nothing was lost. -/
theorem withoutGap_iff_lostNonces (cfg : Config) (es : List LoopStep)
    (rest : Quiescent ((server cfg).run es)) :
    WithoutGap cfg ((server cfg).run es) ↔ lostNonces ((server cfg).trace es) = [] := by
  have acc := server_accounted cfg es
  rw [(quiescent_iff_held _).mp rest] at acc
  rw [← acc.noGap_iff]
  exact ⟨WithoutGap.noGap, fun noGap => ⟨noGap, noGap.not_stuck le_rfl⟩⟩

/-- **When the nonces have no gap.**  Along a run in which no request fails between taking
its nonce and the node's acceptance, there is no gap at rest; and a state of rest is
without a gap only if no request before it failed so. -/
theorem nonces_without_gap_iff (cfg : Config) (es : List LoopStep) :
    ((server cfg).AllSteps (fun s e => ¬ FailsWithNonce s e) es →
        (server cfg).Always (fun s => Quiescent s → WithoutGap cfg s) es) ∧
      (Quiescent ((server cfg).run es) →
        (WithoutGap cfg ((server cfg).run es) ↔
          (server cfg).AllSteps (fun s e => ¬ FailsWithNonce s e) es)) := by
  constructor
  · intro unfailed js before rest
    rw [withoutGap_iff_lostNonces cfg js rest, lostNonces_eq_nil_iff]
    exact unfailed.take before
  · intro rest
    rw [withoutGap_iff_lostNonces cfg es rest, lostNonces_eq_nil_iff]

/-! ## A building that throws -/

/-- A server that starts when the next nonce of Alice is 5. -/
def nonceFive : Config where
  keyring := oneAddress
  globals :=
    { aliceNonce := 5
      tips := { totalTransactions := 100, isTipRandom := false, decrementalTip := 100 }
      counter := { transactionCount := 0, lastTransactionTime := 0 } }

def noon : Moment := { currentTime := 0, random := 0, disk := .ok () }

/-- `POST /create_user` up to the building of its transaction, as request `id`. -/
def createUserSteps (id role : Nat) (error : Option String) : List LoopStep :=
  [.arrive .createUser "mnemonic" ⟨none, Contract.alice, role⟩ noon,
    .request id (.timeout noon), .request id (.build error)]

/-- Role 300 is no `u8`: building the transaction throws, and nonce 5 is lost.  The next
request is accepted with nonce 6, and its transaction is stuck. -/
theorem failed_building_leaves_gap :
    let es := createUserSteps 0 300 (some "u8: Input too large. Found input with 9 bits, expected 8")
    let es' := es ++ createUserSteps 1 0 none ++ [.request 1 (.answer none)]
    let s := (server nonceFive).run es
    let s' := (server nonceFive).run es'
    (Quiescent s ∧ s.globals.aliceNonce = 6 ∧ s.accepted = [] ∧ ¬ WithoutGap nonceFive s) ∧
      Quiescent s' ∧ s'.accepted = [6] ∧ ¬ WithoutGap nonceFive s' ∧
      Tickets.Stuck 5 s'.accepted 6 := by
  refine ⟨⟨by decide, by decide, by decide, ?_⟩, by decide, by decide, ?_, 5, by decide⟩
  · intro whole
    exact absurd whole.noGap.next_eq (by decide)
  · intro whole
    exact absurd whole.noGap.next_eq (by decide)

/-- Two requests whose transactions are accepted, each after the other took its nonce. -/
theorem nonces_without_gap_iff_accepted :
    let es := createUserSteps 0 0 none ++ createUserSteps 1 1 none ++
      [.request 1 (.answer none), .request 0 (.answer none)]
    ((server nonceFive).run es).accepted = [6, 5] ∧
      WithoutGap nonceFive ((server nonceFive).run es) := by
  refine ⟨by decide, ?_⟩
  refine (nonces_without_gap_iff nonceFive _).1 ?_ _ List.prefix_rfl (by decide)
  exact (lostNonces_eq_nil_iff nonceFive _).mp (by decide)

end PatientAccess.Server
