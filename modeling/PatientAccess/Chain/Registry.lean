/-
# Chain.Registry -- what the contract comes to hold through the server

The server calls the contract for one thing only, to register accounts.  So whatever it
does, the permissions are those that others have asked the contract for
(`server_grants_nothing`).

The registrations reach the contract in the order in which they began, each at most once.
Where the accounts that begin to be registered are different, and others leave the
registry alone, its tables stay sound in every state of the chain
(`server_keeps_registry`).
-/
import PatientAccess.Contract.Distinct
import PatientAccess.Contract.Spec
import PatientAccess.Chain.Order

namespace PatientAccess.Chain

open PatientAccess.Theory
open PatientAccess.Contract (AccountId Call Env contract callsOf registering Sound registrations)
open PatientAccess.Server

set_option autoImplicit false

/-! ## The calls of a run -/

theorem calls_concat (net : Network) (es : List Step) (e : Step) :
    calls net (es ++ [e]) = calls net es ++ (((network net).run es).calls net e).toList :=
  (contractPart net).commands_concat es e

/-- The server only registers. -/
theorem call_ofPeople {net : Network} {s : Submission} {call : Call} (makes : net.call s = some call) :
    call.message.ofPeople = true := by
  obtain ⟨tx, role, -, -, rfl⟩ := call_eq_some makes
  rfl

/-- About access the contract is only called by others. -/
theorem callsOf_access (net : Network) (es : List Step) :
    callsOf false (calls net es) = callsOf false (es.filterMap Step.foreign?) := by
  induction es using List.reverseRecOn with
  | nil => rfl
  | append_singleton es e ih =>
      rw [calls_concat, List.filterMap_append, callsOf, callsOf, List.filterMap_append,
        List.filterMap_append, ← callsOf, ← callsOf, ih]
      congr 1
      cases e with
      | loop e | drop nonce | foreign call => rfl
      | execute fits =>
          show List.filterMap _ (((network net).run es).calls net (.execute fits)).toList = []
          cases makes : ((network net).run es).calls net (.execute fits) with
          | none => rfl
          | some call =>
              obtain ⟨p, -, some_⟩ := Option.bind_eq_some_iff.mp makes
              have isCall : net.call p.2 = some call := by
                cases fits with
                | true => exact some_
                | false => cases some_
              simp [Contract.Call.kind?, call_ofPeople isCall]

/-- **The server moves no permission.**  In every run the permissions and the requests for
access are those that the calls of others alone would leave. -/
theorem server_grants_nothing (net : Network) (es : List Step) :
    let s := ((network net).run es).env.storage
    let alone := (contract.run (es.filterMap Step.foreign?)).storage
    s.hasPermission = alone.hasPermission ∧
      s.getGrantedPermissions = alone.getGrantedPermissions ∧
      s.getAccessRequests = alone.getAccessRequests := by
  intro s alone
  have books := Contract.access_of_calls (callsOf_access net es)
  have left := (Contract.represents_trace (calls net es)).2
  have right := (Contract.represents_trace (es.filterMap Step.foreign?)).2
  rw [← network_env] at left
  refine ⟨?_, ?_, ?_⟩
  · funext g e
    rw [Bool.eq_iff_iff, left.hasPermission, right.hasPermission, books]
  · rw [left.granted, right.granted, books]
  · rw [left.asked, right.asked, books]

/-! ## The registry -/

/-- The account a transaction of the server registers. -/
def Network.account (net : Network) (s : Submission) : Option AccountId :=
  s.addUserTx.map fun tx => net.accountId tx.accountId

theorem registers_of_call {net : Network} {s : Submission} {call : Call}
    (makes : net.call s = some call) : call.message.registers? = net.account s := by
  obtain ⟨tx, role, has, -, rfl⟩ := call_eq_some makes
  rw [Network.account, has]
  rfl

/-- Others call the contract about access only. -/
def OthersLeaveRegistry (es : List Step) : Prop :=
  ∀ call ∈ es.filterMap Step.foreign?, call.message.ofPeople = false

theorem foreign_of_mem {es : List Step} (others : OthersLeaveRegistry es) {call : Call}
    (member : Step.foreign call ∈ es) : call.message.ofPeople = false :=
  others call (List.mem_filterMap.mpr ⟨_, member, rfl⟩)

theorem OthersLeaveRegistry.init {es : List Step} {e : Step}
    (others : OthersLeaveRegistry (es ++ [e])) : OthersLeaveRegistry es := by
  intro call member
  refine others call ?_
  rw [List.filterMap_append]
  exact List.mem_append_left _ member

/-- The accounts registered are among those of the transactions executed, in order; and no
call assigns a role. -/
theorem calls_registering (net : Network) {es : List Step} (others : OthersLeaveRegistry es) :
    (registering (calls net es)).Sublist
        ((((network net).run es).receipts.map Receipt.submission).filterMap net.account) ∧
      ∀ call ∈ calls net es, call.message.isAssignRole = false := by
  induction es using List.reverseRecOn with
  | nil => exact ⟨List.Sublist.refl _, fun call member => (nomatch member)⟩
  | append_singleton es e ih =>
      obtain ⟨inOrder, noRole⟩ := ih others.init
      rw [calls_concat, Machine.run_concat]
      cases e with
      | loop e =>
          show (registering (calls net es ++ [])).Sublist _ ∧ ∀ call ∈ calls net es ++ [], _
          rw [List.append_nil]
          exact ⟨inOrder, noRole⟩
      | drop nonce =>
          show (registering (calls net es ++ [])).Sublist _ ∧ ∀ call ∈ calls net es ++ [], _
          rw [List.append_nil]
          rcases network_step_drop net ((network net).run es) nonce with same | ⟨p, -, next⟩
          · rw [same]
            exact ⟨inOrder, noRole⟩
          · rw [next]
            exact ⟨inOrder, noRole⟩
      | foreign call =>
          have quiet := foreign_of_mem others (List.mem_append_right _ (List.mem_singleton_self _))
          have nobody : call.message.registers? = none := by
            cases asks : call.message with
            | addUser a u r => simp [asks, Contract.Message.ofPeople] at quiet
            | assignRole a r | requestAccess g e | grantPermission g e | revokePermission g e => rfl
          have noAssign : call.message.isAssignRole = false := by
            cases asks : call.message with
            | assignRole a r => simp [asks, Contract.Message.ofPeople] at quiet
            | addUser a u r | requestAccess g e | grantPermission g e | revokePermission g e => rfl
          show (registering (calls net es ++ [call])).Sublist _ ∧ ∀ c ∈ calls net es ++ [call], _
          rw [Contract.registering_concat, nobody, Option.toList_none, List.append_nil]
          refine ⟨inOrder, fun c member => ?_⟩
          rcases List.mem_append.mp member with old | last
          · exact noRole c old
          · rw [List.mem_singleton.mp last]
            exact noAssign
      | execute fits =>
          rcases network_step_execute net ((network net).run es) fits with
            ⟨idle, same⟩ | ⟨p, turn, next⟩
          · rw [same, State.calls, idle]
            show (registering (calls net es ++ [])).Sublist _ ∧ ∀ call ∈ calls net es ++ [], _
            rw [List.append_nil]
            exact ⟨inOrder, noRole⟩
          · rw [next, State.calls, turn, Option.bind_some]
            simp only [State.execute, List.map_append, List.filterMap_append]
            cases makes : net.callsWhen fits p.2 with
            | none =>
                rw [Option.toList_none, List.append_nil]
                exact ⟨inOrder.trans (List.sublist_append_left _ _), noRole⟩
            | some call =>
                have isCall : net.call p.2 = some call := by
                  cases fits with
                  | true => exact makes
                  | false => cases makes
                rw [Option.toList_some, Contract.registering_concat, registers_of_call isCall]
                refine ⟨inOrder.append ?_, fun c member => ?_⟩
                · cases has : net.account p.2 <;> simp [has]
                · rcases List.mem_append.mp member with old | last
                  · exact noRole c old
                  · rw [List.mem_singleton.mp last]
                    obtain ⟨tx, role, -, -, rfl⟩ := call_eq_some isCall
                    rfl

/-- **The server keeps the registry sound.**  As long as the accounts that begin to be
registered are different and others only call about access, in every state of the chain
the tables are those of a registry in which every account was registered once. -/
theorem server_keeps_registry (net : Network) (es : List Step) (others : OthersLeaveRegistry es)
    (distinct : ((began net es).filterMap net.account).Nodup) :
    Sound ((network net).run es).env.storage (registrations (contract.trace (calls net es))) := by
  obtain ⟨inOrder, noRole⟩ := calls_registering net others
  have among := inOrder.trans ((node_inOrder net es).done_first.sublist.filterMap net.account)
  rw [network_env]
  exact Contract.sound_of_distinct (calls net es) noRole (distinct.sublist among)

/-- Two new accounts, and a permission that somebody else grants in between. -/
theorem server_keeps_registry_crossing :
    let es := crossingSteps ++ [.execute true,
      .foreign ⟨.from32 1, .grantPermission (.from32 1) (.from32 2)⟩, .execute true]
    ((network twoAccounts).run es).env.storage.getAccounts "12345678" =
        [.from32 1, .from32 2] ∧
      Sound ((network twoAccounts).run es).env.storage
        (registrations (contract.trace (calls twoAccounts es))) := by
  intro es
  refine ⟨by decide, server_keeps_registry twoAccounts es ?_ (by decide)⟩
  intro call member
  have one : call ∈ [(⟨.from32 1, .grantPermission (.from32 1) (.from32 2)⟩ : Call)] := member
  rw [List.mem_singleton.mp one]
  rfl

end PatientAccess.Chain
