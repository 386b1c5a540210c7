/-
# Contract.Spec -- what the contract is for, and that it does no more

The contract keeps six tables, some of them twice.  What it is for needs less: a ledger
of registrations, the role of each account, and for each account those it has granted
access to and those it has asked.  `spec` is a machine over just that; it has no slots,
no table of users, no permission flags, and no default for an account without a role.

`Represents` relates its states to the contract's, and `represents_step` shows that they
answer each message alike.  So no history of messages can tell the two apart, and every
query of the contract is one of the specification (`contract_refines`).

The specification is two books, one for each kind of message, that never look at each
other.  Hence neither do the halves of the contract: the answers to a run depend on the
order within each kind of message, not on how the kinds are interleaved
(`kinds_interleave`).
-/
import PatientAccess.Contract.Permissions
import PatientAccess.Contract.Registration

namespace PatientAccess.Contract

open PatientAccess.Theory

set_option autoImplicit false

/-! ## The specification -/

namespace Spec

/-- The book of people: who was registered as what, and in which role each account is. -/
structure People where
  registered : List Registration
  role : AccountId → Option UInt8

/-- The book of access: whom an account has granted, and whom it has asked, in order. -/
structure Access where
  granted : AccountId → List AccountId
  asked : AccountId → List AccountId

structure State where
  people : People
  access : Access

/-- A registration is accepted if its data are in order, its DNI has room, and nobody
under its DNI has its role. -/
def People.addUser (p : People) (a : AccountId) (u : UserInfo) (r : UInt8) :
    Except String Unit × People :=
  match checkUserInfo u with
  | .error e => (.error e, p)
  | .ok () =>
      if (filedUnder p.registered u.dni).length ≥ 2 then
        (.error "El DNI ya tiene dos cuentas asociadas", p)
      else if (filedUnder p.registered u.dni).any (fun b => decide (p.role b = some r)) then
        (.error "Ambos account_id no pueden tener el mismo rol", p)
      else
        (.ok (), { registered := p.registered ++ [⟨a, u, r⟩]
                   role := Function.update p.role a (some r) })

def People.assignRole (p : People) (a : AccountId) (r : UInt8) : String × People :=
  (s!"Rol {r} asignado a la cuenta {a.debug}", { p with role := Function.update p.role a (some r) })

def Access.request (x : Access) (requester target : AccountId) : Access :=
  { x with asked := Function.update x.asked requester (x.asked requester ++ [target]) }

def Access.grant (x : Access) (granter grantee : AccountId) : Except String Unit × Access :=
  if grantee ∈ x.granted granter then (.error "Permiso ya concedido", x)
  else (.ok (),
    { x with granted := Function.update x.granted granter (x.granted granter ++ [grantee]) })

def Access.revoke (x : Access) (granter grantee : AccountId) : Except String Unit × Access :=
  if grantee ∈ x.granted granter then
    (.ok (),
      { x with granted := Function.update x.granted granter ((x.granted granter).erase grantee) })
  else (.error "No existe permiso para revocar", x)

def step (s : State) (call : Call) : Reply × State :=
  match call.message with
  | .addUser a u r => (.result (s.people.addUser a u r).1, { s with people := (s.people.addUser a u r).2 })
  | .assignRole a r =>
      (.text (s.people.assignRole a r).1, { s with people := (s.people.assignRole a r).2 })
  | .requestAccess g e => (.unit, { s with access := s.access.request g e })
  | .grantPermission g e =>
      (.result (s.access.grant g e).1, { s with access := (s.access.grant g e).2 })
  | .revokePermission g e =>
      (.result (s.access.revoke g e).1, { s with access := (s.access.revoke g e).2 })

end Spec

def spec : Machine Spec.State Call Reply where
  start :=
    { people := { registered := [], role := fun _ => none }
      access := { granted := fun _ => [], asked := fun _ => [] } }
  step := Spec.step

/-! ## The contract represents it -/

/-- The tables of the contract say what the two books say. -/
structure Represents (c : Env) (s : Spec.State) : Prop where
  keeps : Keeps c.storage s.people.registered
  role : c.storage.getRole = s.people.role
  agree : PermissionsAgree c.storage
  granted : c.storage.getGrantedPermissions = s.access.granted
  asked : c.storage.getAccessRequests = s.access.asked

theorem represents_start : Represents contract.start spec.start where
  keeps := keeps_default
  role := rfl
  agree := permissionsAgree_default
  granted := rfl
  asked := rfl

variable {c c' : Env} {s : Spec.State}

theorem Represents.hasPermission (same : Represents c s) (g e : AccountId) :
    c.storage.hasPermission g e = true ↔ e ∈ s.access.granted g := by
  rw [← same.agree.listed, same.granted]

/-- The accounts under a DNI all have roles, so the check with its default is the check
without. -/
theorem Represents.checkRegistration (same : Represents c s) (u : UserInfo) (r : UInt8) :
    checkRegistration rolNoDefinido c.storage u r =
      match checkUserInfo u with
      | .error e => .error e
      | .ok () =>
          if (filedUnder s.people.registered u.dni).length ≥ 2 then
            .error "El DNI ya tiene dos cuentas asociadas"
          else if (filedUnder s.people.registered u.dni).any
              (fun b => decide (s.people.role b = some r)) then
            .error "Ambos account_id no pueden tener el mismo rol"
          else .ok () := by
  have taken : (c.storage.getAccounts u.dni).any
        (fun a => decide ((c.storage.getRole a).getD rolNoDefinido = r)) =
      (filedUnder s.people.registered u.dni).any fun b => decide (s.people.role b = some r) := by
    rw [← same.keeps.getAccounts, ← same.role, Bool.eq_iff_iff, List.any_eq_true, List.any_eq_true]
    refine exists_congr fun a => and_congr_right fun listed => ?_
    obtain ⟨role, found⟩ := Option.isSome_iff_exists.mp (same.keeps.role_of_listed listed)
    rw [found]
    simp
  unfold Contract.checkRegistration
  cases checkUserInfo u with
  | error refusal => rfl
  | ok passed =>
      show checkAccounts rolNoDefinido c.storage (c.storage.slots u.dni) r = _
      rw [checkAccounts_eq, taken, same.keeps.getAccounts]

/-- What an accepted registration writes is the registration in the ledger. -/
theorem Represents.register (same : Represents c s) {a : AccountId} {u : UserInfo} {r : UInt8}
    (passed : Contract.checkRegistration rolNoDefinido c.storage u r = .ok ()) :
    (s.people.addUser a u r).1 = .ok () ∧
      Represents (c.register a u r) { s with people := (s.people.addUser a u r).2 } := by
  have room := (checkAccounts_ok.mp (checkRegistration_ok.mp passed).2).1
  rw [same.checkRegistration] at passed
  have accepted : s.people.addUser a u r =
      (.ok (), { registered := s.people.registered ++ [⟨a, u, r⟩]
                 role := Function.update s.people.role a (some r) }) := by
    unfold Spec.People.addUser
    cases valid : checkUserInfo u with
    | error e => simp [valid] at passed
    | ok _ =>
        simp only [valid] at passed
        split at passed
        · cases passed
        · split at passed
          · cases passed
          · rename_i full taken
            simp only [if_neg full, if_neg taken]
  rw [accepted]
  refine ⟨rfl, same.keeps.register ⟨a, u, r⟩ room, ?_, ?_, ?_, ?_⟩
  · funext b
    rw [register_getRole, same.role]
    exact (Function.update_apply _ _ _ _).symm
  · exact same.agree.congr (by simp) (by simp)
  · rw [register_getGrantedPermissions]
    exact same.granted
  · rw [register_getAccessRequests]
    exact same.asked

theorem Represents.refuse (same : Represents c s) {a : AccountId} {u : UserInfo} {r : UInt8}
    {e : String} (refused : Contract.checkRegistration rolNoDefinido c.storage u r = .error e) :
    s.people.addUser a u r = (.error e, s.people) := by
  rw [same.checkRegistration] at refused
  unfold Spec.People.addUser
  cases valid : checkUserInfo u with
  | error e' =>
      simp only [valid] at refused
      cases refused
      rfl
  | ok _ =>
      simp only [valid] at refused
      split at refused
      · rename_i full
        cases refused
        simp only [if_pos full]
      · rename_i room
        split at refused
        · rename_i taken
          cases refused
          simp only [if_neg room, if_pos taken]
        · cases refused

/-- One message: the same answer, and states that still say the same. -/
theorem represents_step {m : Message} {reply : Reply} (effect : Effect c m reply c')
    (same : Represents c s) (caller : AccountId) :
    reply = (spec.step s ⟨caller, m⟩).1 ∧ Represents c' (spec.step s ⟨caller, m⟩).2 := by
  cases effect with
  | @registered a u r passed =>
      obtain ⟨accepted, next⟩ := same.register (a := a) passed
      exact ⟨congrArg Reply.result accepted.symm, next⟩
  | @notRegistered a u r e refused =>
      have unchanged := same.refuse (a := a) refused
      refine ⟨?_, ?_⟩
      · show Reply.result (.error e) = .result (s.people.addUser a u r).1
        rw [unchanged]
      · show Represents c { s with people := (s.people.addUser a u r).2 }
        rw [unchanged]
        exact same
  | @assigned a r =>
      refine ⟨rfl, ?_, ?_, same.agree.congr (by simp) (by simp), ?_, ?_⟩
      · refine same.keeps.congr (by simp) (by simp) fun b held => ?_
        rw [assign_getRole]
        split
        · rfl
        · exact held
      · funext b
        rw [assign_getRole, same.role]
        exact (Function.update_apply _ _ _ _).symm
      · rw [assign_getGrantedPermissions]
        exact same.granted
      · rw [assign_getAccessRequests]
        exact same.asked
  | @requested g e =>
      refine ⟨rfl, same.keeps.frame (by simp) (by simp) (by simp), ?_,
        same.agree.congr (by simp) (by simp), ?_, ?_⟩
      · rw [request_getRole]
        exact same.role
      · rw [request_getGrantedPermissions]
        exact same.granted
      · funext b
        rw [request_getAccessRequests, same.asked]
        exact (Function.update_apply _ _ _ _).symm
  | @granted g e off =>
      have absent : e ∉ s.access.granted g := by
        rw [← same.hasPermission, off]
        exact Bool.false_ne_true
      have accepted : s.access.grant g e = (.ok (),
          { s.access with
            granted := Function.update s.access.granted g (s.access.granted g ++ [e]) }) :=
        if_neg absent
      refine ⟨?_, ?_⟩
      · show Reply.result (.ok ()) = .result (s.access.grant g e).1
        rw [accepted]
      · show Represents (c.grant g e) { s with access := (s.access.grant g e).2 }
        rw [accepted]
        refine ⟨same.keeps.frame (by simp) (by simp) (by simp), same.role, same.agree.grant off, ?_,
          same.asked⟩
        funext b
        show _ = Function.update s.access.granted g (s.access.granted g ++ [e]) b
        rw [grant_getGrantedPermissions, same.granted, Function.update_apply]
        simp [absent]
  | @notGranted g e on =>
      have present := (same.hasPermission g e).mp on
      have refused : s.access.grant g e = (.error "Permiso ya concedido", s.access) :=
        if_pos present
      refine ⟨?_, ?_⟩
      · show Reply.result (.error "Permiso ya concedido") = .result (s.access.grant g e).1
        rw [refused]
      · show Represents c { s with access := (s.access.grant g e).2 }
        rw [refused]
        exact same
  | @revoked g e on =>
      have present := (same.hasPermission g e).mp on
      have accepted : s.access.revoke g e = (.ok (),
          { s.access with
            granted := Function.update s.access.granted g ((s.access.granted g).erase e) }) :=
        if_pos present
      refine ⟨?_, ?_⟩
      · show Reply.result (.ok ()) = .result (s.access.revoke g e).1
        rw [accepted]
      · show Represents (c.revoke g e) { s with access := (s.access.revoke g e).2 }
        rw [accepted]
        refine ⟨same.keeps.frame (by simp) (by simp) (by simp), same.role, same.agree.revoke g e,
          ?_, same.asked⟩
        funext b
        rw [revoke_getGrantedPermissions, same.granted]
        exact (Function.update_apply _ _ _ _).symm
  | @notRevoked g e off =>
      have absent : e ∉ s.access.granted g := by
        rw [← same.hasPermission, off]
        exact Bool.false_ne_true
      have refused : s.access.revoke g e = (.error "No existe permiso para revocar", s.access) :=
        if_neg absent
      refine ⟨?_, ?_⟩
      · show Reply.result (.error "No existe permiso para revocar") =
          .result (s.access.revoke g e).1
        rw [refused]
      · show Represents c { s with access := (s.access.revoke g e).2 }
        rw [refused]
        exact same

/-- Every run answers as the specification does, and ends in tables that represent its
books. -/
theorem represents_trace (calls : List Call) :
    contract.trace calls = spec.trace calls ∧ Represents (contract.run calls) (spec.run calls) :=
  contract.simulation represents_start
    (fun c _ call same => represents_step (execute_effect c call) same call.caller) calls

/-- **The contract refines its specification.**  Every run has the answers of the
specification, and every query afterwards is answered by its two books. -/
theorem contract_refines (calls : List Call) :
    contract.trace calls = spec.trace calls ∧
      let s := (contract.run calls).storage
      let books := spec.run calls
      (∀ d, s.getAccounts d = filedUnder books.people.registered d) ∧
        (∀ a, s.getUserInfo a = lastInfo books.people.registered a) ∧
        (∀ a, s.userExists a = (lastInfo books.people.registered a).isSome) ∧
        s.getRole = books.people.role ∧
        (∀ g e, s.hasPermission g e = decide (e ∈ books.access.granted g)) ∧
        s.getGrantedPermissions = books.access.granted ∧
        s.getAccessRequests = books.access.asked := by
  obtain ⟨traces, same⟩ := represents_trace calls
  refine ⟨traces, same.keeps.getAccounts, same.keeps.info, fun a => ?_, same.role, fun g e => ?_,
    same.granted, same.asked⟩
  · show ((contract.run calls).storage.getUserInfo a).isSome = _
    rw [same.keeps.info]
  · rw [Bool.eq_iff_iff, same.hasPermission, decide_eq_true_eq]

/-! ## The two books -/

/-- A message about people; the others are about access. -/
def Message.ofPeople : Message → Bool
  | .addUser _ _ _ | .assignRole _ _ => true
  | _ => false

/-- The calls of one kind. -/
def Call.kind? (people : Bool) (call : Call) : Option Call :=
  if call.message.ofPeople = people then some call else none

namespace Spec

/-- The specification on one book, with the other left as it was at the start. -/
def peopleBook : Machine People Call Reply where
  start := spec.start.people
  step p call :=
    let (reply, s) := step { people := p, access := spec.start.access } call
    (reply, s.people)

def accessBook : Machine Access Call Reply where
  start := spec.start.access
  step x call :=
    let (reply, s) := step { people := spec.start.people, access := x } call
    (reply, s.access)

/-- The book of people is a component: it sees the messages about people and nothing else. -/
def peoplePart : spec.Component peopleBook where
  view := State.people
  sel := Call.kind? true
  view_start := rfl
  selected s call k chosen := by
    obtain ⟨caller, m⟩ := call
    cases m with
    | addUser a u r | assignRole a r =>
        cases chosen
        exact ⟨rfl, rfl⟩
    | requestAccess g e | grantPermission g e | revokePermission g e => cases chosen
  other _ call ignored := by
    obtain ⟨caller, m⟩ := call
    cases m with
    | addUser a u r | assignRole a r => cases ignored
    | requestAccess g e | grantPermission g e | revokePermission g e => rfl

/-- So is the book of access. -/
def accessPart : spec.Component accessBook where
  view := State.access
  sel := Call.kind? false
  view_start := rfl
  selected s call k chosen := by
    obtain ⟨caller, m⟩ := call
    cases m with
    | addUser a u r | assignRole a r => cases chosen
    | requestAccess g e | grantPermission g e | revokePermission g e =>
        cases chosen
        exact ⟨rfl, rfl⟩
  other _ call ignored := by
    obtain ⟨caller, m⟩ := call
    cases m with
    | addUser a u r | assignRole a r => rfl
    | requestAccess g e | grantPermission g e | revokePermission g e => cases ignored

end Spec

/-- The calls of a run that are of one kind, and what they were answered. -/
def callsOf (people : Bool) (calls : List Call) : List Call := calls.filterMap (Call.kind? people)

def answersOf (people : Bool) (calls : List Call) : List Reply :=
  (contract.trace calls).filterMap fun io => (Call.kind? people io.1).map fun _ => io.2

/-- No query tells the two apart. -/
structure SameAnswers (s t : AccessControl) : Prop where
  getAccounts : s.getAccounts = t.getAccounts
  getUserInfo : s.getUserInfo = t.getUserInfo
  userExists : s.userExists = t.userExists
  getRole : s.getRole = t.getRole
  hasPermission : s.hasPermission = t.hasPermission
  getGrantedPermissions : s.getGrantedPermissions = t.getGrantedPermissions
  getAccessRequests : s.getAccessRequests = t.getAccessRequests

/-- The book of access goes by the messages about access. -/
theorem access_of_calls {calls₁ calls₂ : List Call}
    (access : callsOf false calls₁ = callsOf false calls₂) :
    (spec.run calls₁).access = (spec.run calls₂).access := by
  have left := Spec.accessPart.view_run calls₁
  have right := Spec.accessPart.view_run calls₂
  exact left.trans ((congrArg Spec.accessBook.run access).trans right.symm)

theorem people_of_calls {calls₁ calls₂ : List Call}
    (people : callsOf true calls₁ = callsOf true calls₂) :
    (spec.run calls₁).people = (spec.run calls₂).people := by
  have left := Spec.peoplePart.view_run calls₁
  have right := Spec.peoplePart.view_run calls₂
  exact left.trans ((congrArg Spec.peopleBook.run people).trans right.symm)

theorem answersOf_people (calls : List Call) :
    answersOf true calls = (Spec.peopleBook.trace (callsOf true calls)).map Prod.snd := by
  rw [answersOf, (represents_trace calls).1]
  exact Spec.peoplePart.answers_run calls

theorem answersOf_access (calls : List Call) :
    answersOf false calls = (Spec.accessBook.trace (callsOf false calls)).map Prod.snd := by
  rw [answersOf, (represents_trace calls).1]
  exact Spec.accessPart.answers_run calls

theorem Represents.sameAnswers {c c' : Env} {s : Spec.State} (left : Represents c s)
    (right : Represents c' s) : SameAnswers c.storage c'.storage where
  getAccounts := funext fun d => by rw [left.keeps.getAccounts, right.keeps.getAccounts]
  getUserInfo := funext fun a => by rw [left.keeps.info, right.keeps.info]
  userExists := funext fun a => by
    show (c.storage.getUserInfo a).isSome = (c'.storage.getUserInfo a).isSome
    rw [left.keeps.info, right.keeps.info]
  getRole := left.role.trans right.role.symm
  hasPermission := funext fun g => funext fun e => by
    rw [Bool.eq_iff_iff, left.hasPermission, right.hasPermission]
  getGrantedPermissions := left.granted.trans right.granted.symm
  getAccessRequests := left.asked.trans right.asked.symm

/-- **The kinds of message do not meet.**  Two runs with the same messages about people in
one order, and the same messages about access in one order, answer them alike and leave
every query the same, however the two kinds are interleaved. -/
theorem kinds_interleave (calls₁ calls₂ : List Call)
    (people : callsOf true calls₁ = callsOf true calls₂)
    (access : callsOf false calls₁ = callsOf false calls₂) :
    answersOf true calls₁ = answersOf true calls₂ ∧
      answersOf false calls₁ = answersOf false calls₂ ∧
      SameAnswers (contract.run calls₁).storage (contract.run calls₂).storage := by
  refine ⟨by rw [answersOf_people, answersOf_people, people],
    by rw [answersOf_access, answersOf_access, access], ?_⟩
  have books : spec.run calls₁ = spec.run calls₂ := by
    have samePeople := people_of_calls people
    have sameAccess := access_of_calls access
    cases left : spec.run calls₁
    cases right : spec.run calls₂
    rw [left, right] at samePeople sameAccess
    cases samePeople
    cases sameAccess
    rfl
  exact (represents_trace calls₁).2.sameAnswers (books ▸ (represents_trace calls₂).2)

/-- A grant before a registration, and after it. -/
theorem kinds_interleave_swapped :
    let register : Call := ⟨.from32 9, .addUser (.from32 1) alice 0⟩
    let grant : Call := ⟨.from32 1, .grantPermission (.from32 1) (.from32 2)⟩
    SameAnswers (contract.run [register, grant]).storage (contract.run [grant, register]).storage :=
  (kinds_interleave [⟨.from32 9, .addUser (.from32 1) alice 0⟩,
      ⟨.from32 1, .grantPermission (.from32 1) (.from32 2)⟩]
    [⟨.from32 1, .grantPermission (.from32 1) (.from32 2)⟩,
      ⟨.from32 9, .addUser (.from32 1) alice 0⟩] rfl rfl).2.2

end PatientAccess.Contract
