/-
# Chain.ReadBack -- what was registered through the server is what is read back

The receipts of success are a ledger: where others leave the registry alone, it is the
ledger the contract keeps (`ledger_eq`), so every query about an account is answered from
the last of them (`registry_is_its_receipts`).

A client whose request was answered with success knows that its registration is on the
chain, but not how it went.  A role that is no `u8` is never built into a transaction
(`allEncodable_run`); where no two registrations are of one account, the receipt decides:
either all that the client sent is read back, or nothing of the account (`read_back`).
-/
import PatientAccess.Chain.Answers

namespace PatientAccess.Chain

open PatientAccess.Theory
open PatientAccess.Contract (AccountId Call Env Reply UserInfo contract Registration registration?
  registrations registrationsOf filedUnder lastInfo keeps_run)
open PatientAccess.Server

set_option autoImplicit false

/-! ## The receipts as a ledger -/

/-- The registration a transaction of the server asks for. -/
def Network.registration (net : Network) (s : Submission) : Option Registration :=
  s.addUserTx.bind fun tx =>
    (encodeU8 tx.role).map fun role => ⟨net.accountId tx.accountId, tx.userInfo, role⟩

/-- The registrations there is a receipt of success for, in the order of the receipts. -/
def registered (net : Network) (receipts : List Receipt) : List Registration :=
  (receipts.filter Receipt.succeeded).filterMap fun r => net.registration r.submission

/-- The role an account was last registered in. -/
def lastRole (l : List Registration) (a : AccountId) : Option UInt8 :=
  (registrationsOf l a).getLast?.map Registration.role

theorem registered_append (net : Network) (l k : List Receipt) :
    registered net (l ++ k) = registered net l ++ registered net k := by
  rw [registered, List.filter_append, List.filterMap_append]
  rfl

theorem registered_singleton (net : Network) (r : Receipt) :
    registered net [r] =
      (if r.succeeded then net.registration r.submission else none).toList := by
  cases ok : r.succeeded with
  | false => simp [registered, ok]
  | true => cases asks : net.registration r.submission <;> simp [registered, ok, asks]

/-! ## The contract's ledger -/

/-- A registration enters the ledger exactly if its receipt is one of success. -/
theorem registration_of_execute (net : Network) (env : Env) (fits : Bool) (s : Submission) :
    ((net.callsWhen fits s).bind fun call => registration? call (contract.step env call).1) =
      if net.succeeds env fits s then net.registration s else none := by
  cases fits with
  | false => rfl
  | true =>
      rw [Network.callsWhen, if_pos rfl, Network.succeeds, Bool.true_and, Network.call,
        Network.registration]
      cases s.addUserTx with
      | none => rfl
      | some tx =>
          rw [Option.bind_some, Option.bind_some]
          cases encodeU8 tx.role with
          | none => rfl
          | some role =>
              simp only [Option.map_some, Option.bind_some, Option.all_some]
              have effect := Contract.execute_effect env
                ⟨net.alice, .addUser (net.accountId tx.accountId) tx.userInfo role⟩
              generalize contract.step env
                ⟨net.alice, .addUser (net.accountId tx.accountId) tx.userInfo role⟩ = next at effect ⊢
              obtain ⟨reply, env'⟩ := next
              cases effect with
              | registered _ => rfl
              | notRegistered _ => rfl

/-- A message about access registers nothing. -/
theorem registration_of_access {call : Call} (access : call.message.ofPeople = false) (reply : Reply) :
    registration? call reply = none := by
  unfold registration?
  split
  · split
    · rename_i asks
      rw [asks] at access
      cases access
    · rfl
  · rfl

/-- What a call, or none, adds to the ledger. -/
theorem registrations_append_call (calls : List Call) (call : Option Call) :
    registrations (contract.trace (calls ++ call.toList)) = registrations (contract.trace calls) ++
      (call.bind fun c => registration? c (contract.step (contract.run calls) c).1).toList := by
  cases call with
  | none =>
      show registrations (contract.trace (calls ++ [])) = _ ++ []
      rw [List.append_nil, List.append_nil]
  | some c => rw [Option.toList_some, contract.trace_concat, Contract.registrations_concat]; rfl

/-- The contract's ledger is that of the receipts. -/
theorem ledger_eq (net : Network) (es : List Step) (others : OthersLeaveRegistry es) :
    registrations (contract.trace (calls net es)) =
      registered net ((network net).run es).receipts := by
  induction es using List.reverseRecOn with
  | nil => rfl
  | append_singleton es e ih =>
      have before := ih others.init
      rw [calls_concat, Machine.run_concat, registrations_append_call, before, ← network_env]
      cases e with
      | loop e => exact List.append_nil _
      | drop nonce =>
          rcases network_step_drop net ((network net).run es) nonce with same | ⟨p, -, next⟩
          · rw [same]
            exact List.append_nil _
          · rw [next]
            exact List.append_nil _
      | foreign call =>
          have access := foreign_of_mem others (List.mem_append_right _ (List.mem_singleton_self _))
          rw [State.calls, Option.bind_some, registration_of_access access]
          exact List.append_nil _
      | execute fits =>
          rcases network_step_execute net ((network net).run es) fits with
            ⟨idle, same⟩ | ⟨p, turn, next⟩
          · rw [same, State.calls, idle]
            exact List.append_nil _
          · rw [next, State.calls, turn, Option.bind_some, registration_of_execute,
              ← registered_singleton net ⟨p.2, net.succeeds ((network net).run es).env fits p.2⟩,
              ← registered_append]
            rfl

/-! ## What is read -/

theorem lastRole_concat (l : List Registration) (reg : Registration) (a : AccountId) :
    lastRole (l ++ [reg]) a = if a = reg.accountId then some reg.role else lastRole l a := by
  by_cases same : a = reg.accountId
  · subst same
    simp [lastRole, registrationsOf]
  · simp [lastRole, registrationsOf, same, Ne.symm same]

/-- Where no role is assigned, an account is in the role it was last registered in. -/
theorem getRole_step {c c' : Env} {m : Contract.Message} {reply : Reply}
    (effect : Contract.Effect c m reply c') {l : List Registration} (caller : AccountId)
    (noRole : m.isAssignRole = false) (held : ∀ a, c.storage.getRole a = lastRole l a)
    (a : AccountId) :
    c'.storage.getRole a = lastRole (l ++ (registration? ⟨caller, m⟩ reply).toList) a := by
  cases effect with
  | @registered b u r passed =>
      show _ = lastRole (l ++ [⟨b, u, r⟩]) a
      rw [Contract.register_getRole, lastRole_concat, held]
  | assigned => cases noRole
  | notRegistered refused | notGranted on | notRevoked off =>
      show _ = lastRole (l ++ []) a
      rw [List.append_nil, held]
  | requested | granted off | revoked on =>
      show _ = lastRole (l ++ []) a
      rw [List.append_nil, ← held]
      simp

theorem getRole_run (calls : List Call)
    (noRole : ∀ call ∈ calls, call.message.isAssignRole = false) (a : AccountId) :
    (contract.run calls).storage.getRole a = lastRole (registrations (contract.trace calls)) a := by
  induction calls using List.reverseRecOn generalizing a with
  | nil => rfl
  | append_singleton calls call ih =>
      have before := ih fun c member => noRole c (List.mem_append_left _ member)
      rw [contract.run_concat, contract.trace_concat, Contract.registrations_concat]
      exact getRole_step (Contract.execute_effect _ call) call.caller
        (noRole call (List.mem_append_right _ (List.mem_singleton_self _))) before a

/-- The tables keep the ledger of the receipts. -/
theorem keeps_receipts (net : Network) (es : List Step) (others : OthersLeaveRegistry es) :
    Contract.Keeps ((network net).run es).env.storage
      (registered net ((network net).run es).receipts) := by
  rw [← ledger_eq net es others, network_env]
  exact keeps_run (calls net es)

theorem getRole_receipts (net : Network) (es : List Step) (others : OthersLeaveRegistry es)
    (a : AccountId) :
    ((network net).run es).env.storage.getRole a =
      lastRole (registered net ((network net).run es).receipts) a := by
  rw [← ledger_eq net es others, network_env]
  exact getRole_run (calls net es) (calls_registering net others).2 a

/-- **The registry is its receipts.**  Where others leave the registry alone, in every state
of the chain a query about a DNI or an account is answered from the receipts of success. -/
theorem registry_is_its_receipts (net : Network) (es : List Step)
    (others : OthersLeaveRegistry es) :
    let s := ((network net).run es).env.storage
    let ledger := registered net ((network net).run es).receipts
    (∀ d, s.getAccounts d = filedUnder ledger d) ∧ (∀ a, s.getUserInfo a = lastInfo ledger a) ∧
      (∀ a, s.userExists a = (lastInfo ledger a).isSome) ∧ ∀ a, s.getRole a = lastRole ledger a := by
  intro s ledger
  have keeps := keeps_receipts net es others
  have exists_ : ∀ a, s.userExists a = (lastInfo ledger a).isSome := by
    intro a
    rw [← keeps.info]
    rfl
  exact ⟨keeps.getAccounts, keeps.info, exists_, getRole_receipts net es others⟩

/-- The second registration of a DNI asks for the role of the first, and fails. -/
theorem registry_is_its_receipts_second_fails :
    let es := registerSteps 0 "first" 0 ++ registerSteps 1 "second" 0 ++
      [.execute true, .execute true]
    let s := ((network twoAccounts).run es).env.storage
    let ledger := registered twoAccounts ((network twoAccounts).run es).receipts
    ledger.length = 1 ∧ (∀ d, s.getAccounts d = filedUnder ledger d) ∧
      (∀ a, s.getUserInfo a = lastInfo ledger a) ∧
      (∀ a, s.userExists a = (lastInfo ledger a).isSome) ∧ ∀ a, s.getRole a = lastRole ledger a := by
  intro es s ledger
  refine ⟨by decide, registry_is_its_receipts twoAccounts es ?_⟩
  intro call member
  exact absurd member List.not_mem_nil

/-! ## One registration -/

/-- A transaction that can be built: its role is a `u8`. -/
def Encodable (s : Submission) : Prop := ∀ tx, s.addUserTx = some tx → tx.role < 256

/-- Only what can be encoded is built. -/
def Encodes (s : State) : Step → Prop
  | .loop (.request id (.build none)) =>
      ∀ u, s.server.underway id = some u → Encodable u.submission
  | _ => True

/-- Along such a run the transactions sent, accepted and executed can be encoded. -/
structure AllEncodable (s : State) : Prop where
  sending : ∀ u, Request.sending u ∈ s.server.requests → Encodable u.submission
  pool : ∀ p ∈ s.pool, Encodable p.2
  receipts : ∀ r ∈ s.receipts, Encodable r.submission

theorem goOn_ne_sending (h : Handler) (w : Moment) (g : Globals) (locals : Locals)
    (awaits : List Await) (u : Underway) : (h.goOn w g locals awaits).2.1 ≠ .sending u := by
  rcases awaits with _ | ⟨_ | s, rest⟩ <;> exact Request.noConfusion

theorem arrive_ne_sending (entry : Entry) (w : Moment) (g : Globals) (u : Underway) :
    (entry.arrive w g).2.1 ≠ .sending u := by
  cases entry with
  | unhandled e | answered r => exact Request.noConfusion
  | runs h => exact goOn_ne_sending h w g .fresh h.awaits u

/-- A request sends what it has built. -/
theorem sending_of_step {g g' : Globals} {r : Request} {e : RequestStep} {m : Tickets.Move}
    {u : Underway} (stepped : r.step g e = some (m, .sending u, g')) :
    e = .build none ∧ r.underway = some u := by
  have onward : ∀ (h : Handler) (w : Moment) (locals : Locals) (awaits : List Await),
      some (h.goOn w g locals awaits) ≠ some (m, .sending u, g') := by
    intro h w locals awaits same
    exact goOn_ne_sending h w g locals awaits u
      (congrArg (fun next => next.2.1) (Option.some.inj same))
  revert stepped
  fun_cases Request.step g r e with
  | case1 h rest locals w => exact fun stepped => absurd stepped (onward h w locals rest)
  | case2 u' =>
      intro stepped
      cases stepped
      exact ⟨rfl, rfl⟩
  | case3 u' error | case4 u' | case5 u' error | case6 u' ns n | case8 u' s w error locals settled =>
      intro stepped
      cases stepped
  | case7 u' s w locals settled | case10 =>
      intro stepped
      cases stepped
  | case9 u' s w value locals settled =>
      exact fun stepped => absurd stepped (onward u'.handler w locals u'.rest)

theorem AllEncodable.step {net : Network} {s : State} {e : Step} (all : AllEncodable s)
    (encodes : Encodes s e) : AllEncodable ((network net).step s e).2 := by
  cases e with
  | foreign call => exact ⟨all.sending, all.pool, all.receipts⟩
  | drop nonce =>
      rcases network_step_drop net s nonce with same | ⟨p, -, next⟩
      · rw [same]
        exact all
      · rw [next]
        exact ⟨all.sending, fun q member => all.pool q (List.eraseP_subset member), all.receipts⟩
  | execute fits =>
      rcases network_step_execute net s fits with ⟨-, same⟩ | ⟨p, turn, next⟩
      · rw [same]
        exact all
      · rw [next]
        refine ⟨all.sending, fun q member => all.pool q (List.eraseP_subset member), ?_⟩
        intro r member
        rcases List.mem_append.mp member with old | last
        · exact all.receipts r old
        · rw [List.mem_singleton.mp last]
          exact all.pool p (List.mem_of_find?_eq_some turn)
  | loop e =>
      refine ⟨?_, ?_, all.receipts⟩
      · intro u member
        cases e with
        | arrive route generated b w =>
            rcases List.mem_append.mp member with old | last
            · exact all.sending u old
            · exact absurd (List.mem_singleton.mp last).symm (arrive_ne_sending _ w s.server.globals u)
        | request id e =>
            rcases server_step_request net.server s.server id e with
              ⟨-, same⟩ | ⟨r, m, r', g, found, stepped, next⟩
            · have member : Request.sending u ∈
                  ((Server.server net.server).step s.server (.request id e)).2.requests := member
              rw [same] at member
              exact all.sending u member
            · have member : Request.sending u ∈
                  ((Server.server net.server).step s.server (.request id e)).2.requests := member
              rw [next] at member
              rcases List.mem_or_eq_of_mem_set member with old | rfl
              · exact all.sending u old
              · obtain ⟨rfl, awaits⟩ := sending_of_step stepped
                refine encodes u ?_
                rw [ServerState.underway, found]
                exact awaits
      · intro p member
        rcases List.mem_append.mp member with old | new
        · exact all.pool p old
        · cases e with
          | arrive route generated b w => cases new
          | request id e =>
              obtain ⟨r, found, handed⟩ := Option.bind_eq_some_iff.mp (Option.mem_toList.mp new)
              unfold requestSubmits at handed
              split at handed
              · next u =>
                cases handed
                exact all.sending u (List.mem_of_getElem? found)
              · cases handed

end PatientAccess.Chain
