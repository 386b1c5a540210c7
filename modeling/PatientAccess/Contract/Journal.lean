/-
# Contract.Journal -- the event log is a journal of what the queries answer

An indexer off the chain sees only the events.  `Index` is what it can hold, and
`Index.apply` what it does on each event: it appends a grantee without looking
whether the list already has it, and it erases one place on a revocation.

`replay_run` says that after any run the replay of the emitted events, from empty
tables, answers every query as the contract does.  The step is `apply_effect`: a
rejected message emits nothing and writes nothing, and a successful one emits
exactly what it writes.  The unguarded append agrees with the contract's guarded
one because a permission that is off is not listed (`PermissionsAgree`).
-/
import PatientAccess.Contract.Permissions

namespace PatientAccess.Contract

open PatientAccess.Theory

set_option autoImplicit false

/-- The tables of an indexer. -/
@[ext] structure Index where
  permission : AccountId → AccountId → Bool
  granted : AccountId → List AccountId
  role : AccountId → Option UInt8
  registered : AccountId → Bool
  requests : AccountId → List AccountId

namespace Index

def empty : Index :=
  { permission := fun _ _ => false, granted := fun _ => [], role := fun _ => none
    registered := fun _ => false, requests := fun _ => [] }

/-- What the indexer does on one event. -/
def apply (i : Index) : Event → Index
  | .permissionGranted granter grantee true =>
      { i with
        permission := fun g e => if (g, e) = (granter, grantee) then true else i.permission g e
        granted := fun g => if g = granter then i.granted g ++ [grantee] else i.granted g }
  | .permissionGranted granter grantee false =>
      { i with
        permission := fun g e => if (g, e) = (granter, grantee) then false else i.permission g e
        granted := fun g => if g = granter then (i.granted g).erase grantee else i.granted g }
  | .roleAssigned account role =>
      { i with role := fun a => if a = account then some role else i.role a }
  | .userAdded account =>
      { i with registered := fun a => decide (a = account) || i.registered a }
  | .accessRequested requester target =>
      { i with requests := fun a => if a = requester then i.requests a ++ [target] else i.requests a }
  | .log _ => i

/-- The tables after a list of events, from empty tables. -/
def replay (events : List Event) : Index := events.foldl apply empty

/-- What the contract's queries answer, as tables. -/
def ofStorage (s : AccessControl) : Index :=
  { permission := s.hasPermission, granted := s.getGrantedPermissions, role := s.getRole
    registered := s.userExists, requests := s.getAccessRequests }

theorem replay_append (events more : List Event) :
    replay (events ++ more) = more.foldl apply (replay events) :=
  List.foldl_append

end Index

/-! ## One message -/

/-- A message announces exactly what it writes: the events it adds to the log take
the answers before it to the answers after it. -/
theorem apply_effect {c c' : Env} {m : Message} {r : Reply} (effect : Effect c m r c')
    (agree : PermissionsAgree c.storage) :
    ∃ events, c'.events = c.events ++ events ∧
      events.foldl Index.apply (Index.ofStorage c.storage) = Index.ofStorage c'.storage := by
  cases effect with
  | @registered a u r passed =>
      refine ⟨[.roleAssigned a r, .userAdded a], rfl, ?_⟩
      apply Index.ext <;> funext b
      · simp [Index.apply, Index.ofStorage]
      · simp [Index.apply, Index.ofStorage]
      · exact (register_getRole c a b u r).symm
      · exact (register_userExists c a b u r).symm
      · simp [Index.apply, Index.ofStorage]
  | @assigned a r =>
      refine ⟨[.roleAssigned a r], rfl, ?_⟩
      apply Index.ext <;> funext b <;> simp [Index.apply, Index.ofStorage]
  | @requested g e =>
      refine ⟨[.accessRequested g e], rfl, ?_⟩
      apply Index.ext <;> funext b
      · simp [Index.apply, Index.ofStorage]
      · simp [Index.apply, Index.ofStorage]
      · simp [Index.apply, Index.ofStorage]
      · simp [Index.apply, Index.ofStorage]
      · refine Eq.trans ?_ (request_getAccessRequests c b g e).symm
        by_cases same : b = g
        · subst same
          simp [Index.apply, Index.ofStorage]
        · simp [Index.apply, Index.ofStorage, same]
  | @granted g e off =>
      refine ⟨[.permissionGranted g e true], rfl, ?_⟩
      have absent := agree.notMem off
      apply Index.ext <;> funext b
      · funext b'
        exact (grant_hasPermission c b b' g e).symm
      · -- the list does not have `e`, so the contract appends it too
        refine Eq.trans ?_ (grant_getGrantedPermissions c b g e).symm
        by_cases same : b = g
        · subst same
          simp [Index.apply, Index.ofStorage, absent]
        · simp [Index.apply, Index.ofStorage, same]
      · simp [Index.apply, Index.ofStorage]
      · simp [Index.apply, Index.ofStorage]
      · simp [Index.apply, Index.ofStorage]
  | @revoked g e on =>
      refine ⟨[.permissionGranted g e false], rfl, ?_⟩
      apply Index.ext <;> funext b
      · funext b'
        exact (revoke_hasPermission c b b' g e).symm
      · refine Eq.trans ?_ (revoke_getGrantedPermissions c b g e).symm
        by_cases same : b = g
        · subst same
          simp [Index.apply, Index.ofStorage]
        · simp [Index.apply, Index.ofStorage, same]
      · simp [Index.apply, Index.ofStorage]
      · simp [Index.apply, Index.ofStorage]
      · simp [Index.apply, Index.ofStorage]
  | notRegistered refused => exact ⟨[], (List.append_nil _).symm, rfl⟩
  | notGranted on => exact ⟨[], (List.append_nil _).symm, rfl⟩
  | notRevoked off => exact ⟨[], (List.append_nil _).symm, rfl⟩

/-! ## Runs -/

theorem replay_reachable {c : Env} (reached : contract.Reachable c) :
    PermissionsAgree c.storage ∧ Index.replay c.events = Index.ofStorage c.storage := by
  refine reached.induct (I := fun c =>
    PermissionsAgree c.storage ∧ Index.replay c.events = Index.ofStorage c.storage)
    ⟨permissionsAgree_default, rfl⟩ fun c call holds => ?_
  obtain ⟨agree, replayed⟩ := holds
  have effect := execute_effect c call
  obtain ⟨events, emitted, moved⟩ := apply_effect effect agree
  refine ⟨permissionsAgree_step effect agree, ?_⟩
  rw [emitted, Index.replay_append, replayed, moved]

/-- **The event log is a complete journal.**  Replaying the events of a run answers
every query about permissions, roles, users and requests as the contract does. -/
theorem replay_run (calls : List Call) :
    let s := (contract.run calls).storage
    let i := Index.replay (contract.run calls).events
    (∀ g e, i.permission g e = s.hasPermission g e) ∧
      (∀ g, i.granted g = s.getGrantedPermissions g) ∧
      (∀ a, i.role a = s.getRole a) ∧
      (∀ a, i.registered a = s.userExists a) ∧
      ∀ a, i.requests a = s.getAccessRequests a := by
  intro s i
  have replayed : i = Index.ofStorage s := (replay_reachable (contract.reachable_run calls)).2
  rw [replayed]
  exact ⟨fun _ _ => rfl, fun _ => rfl, fun _ => rfl, fun _ => rfl, fun _ => rfl⟩

end PatientAccess.Contract
