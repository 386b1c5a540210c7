/-
# Contract.Messages -- the five messages that write, and the contract as a machine

A message sees `Env`: the storage (`self`) and the events emitted so far
(`self.env()`).  It returns its value and the `Env` it leaves.  An early
`return Err(..)` leaves the `Env` it was given, so a rejected message and one the
node reverts leave the same state.

`Effect` says once what each message can do, guards included; `execute_effect`
is the only place the messages are unfolded, and every invariant is a case
analysis on `Effect`.  The writes of a successful message are named
(`Env.register`, `Env.assign`, ..) with one lemma for each query they can move.
-/
import PatientAccess.Contract.Storage
import PatientAccess.Theory.Machine

namespace PatientAccess.Contract

open PatientAccess.Theory

set_option autoImplicit false

/-- `self` and `self.env()`; the events are oldest first. -/
structure Env where
  storage : AccessControl
  events : List Event

/-! ## What a successful message writes -/

section Writes

variable (c : Env)

/-- The writes of a successful `add_user`: the first empty slot of the DNI, the
user's data, and the role. -/
def Env.register (accountId : AccountId) (userInfo : UserInfo) (role : UInt8) : Env :=
  let accounts := c.storage.slots userInfo.dni
  { storage := { c.storage with
      accounts := c.storage.accounts.insert userInfo.dni (accounts.put accountId)
      users := c.storage.users.insert accountId userInfo
      roles := c.storage.roles.insert accountId role }
    events := c.events ++ [.roleAssigned accountId role, .userAdded accountId] }

def Env.assign (accountId : AccountId) (role : UInt8) : Env :=
  { storage := { c.storage with roles := c.storage.roles.insert accountId role }
    events := c.events ++ [.roleAssigned accountId role] }

def Env.request (requester target : AccountId) : Env :=
  let requests := c.storage.accessRequests.getD requester []
  { storage := { c.storage with
      accessRequests := c.storage.accessRequests.insert requester (requests ++ [target]) }
    events := c.events ++ [.accessRequested requester target] }

/-- The writes of a successful `grant_permission`: the flag, and the granter's
list unless it already has the grantee. -/
def Env.grant (granter grantee : AccountId) : Env :=
  let granteesList := c.storage.grantees.getD granter []
  { storage := { c.storage with
      permissions := c.storage.permissions.insert (granter, grantee) true
      grantees :=
        if grantee ∈ granteesList then c.storage.grantees
        else c.storage.grantees.insert granter (granteesList ++ [grantee]) }
    events := c.events ++ [.permissionGranted granter grantee true] }

/-- The writes of a successful `revoke_permission`: the flag, and the first place
of the grantee in the granter's list if it has one. -/
def Env.revoke (granter grantee : AccountId) : Env :=
  let granteesList := c.storage.grantees.getD granter []
  { storage := { c.storage with
      permissions := c.storage.permissions.insert (granter, grantee) false
      grantees :=
        match granteesList.idxOf? grantee with
        | some pos => c.storage.grantees.insert granter (granteesList.eraseIdx pos)
        | none => c.storage.grantees }
    events := c.events ++ [.permissionGranted granter grantee false] }

end Writes

/-! ## Messages -/

/-- The data checks at the head of `add_user`; lengths are in bytes. -/
def checkUserInfo (userInfo : UserInfo) : Except String Unit :=
  if userInfo.name.isEmpty ∨ userInfo.name.utf8ByteSize > 12 then
    .error "Nombre no válido"
  else if userInfo.lastname.isEmpty ∨ userInfo.lastname.utf8ByteSize > 12 then
    .error "Apellido no válido"
  else if userInfo.dni.isEmpty ∨ userInfo.dni.utf8ByteSize ≠ 8 then
    .error "DNI no válido"
  else if userInfo.email.isEmpty ∨ '@' ∉ userInfo.email.toList then
    .error "Email no válido"
  else .ok ()

/-- The checks of `add_user` on the accounts already filed under the DNI: at most
one, and none of them with the new role.  An account without a role counts as
having `undefinedRole`. -/
def checkAccounts (undefinedRole : UInt8) (s : AccessControl) (accounts : Slots) (role : UInt8) :
    Except String Unit :=
  let accountCount := (accounts.toList.filter Option.isSome).length
  if accountCount ≥ 2 then
    .error "El DNI ya tiene dos cuentas asociadas"
  else if (accounts.toList.filterMap id).any
      fun acc => decide (s.roles.getD acc undefinedRole = role) then
    .error "Ambos account_id no pueden tener el mismo rol"
  else .ok ()

/-- All the checks of `add_user`, in its order. -/
def checkRegistration (undefinedRole : UInt8) (s : AccessControl) (userInfo : UserInfo)
    (role : UInt8) : Except String Unit :=
  match checkUserInfo userInfo with
  | .error e => .error e
  | .ok () => checkAccounts undefinedRole s (s.slots userInfo.dni) role

/-- `add_user`, with the role an account without one counts as having. -/
def addUserDefaulting (undefinedRole : UInt8) (c : Env) (accountId : AccountId)
    (userInfo : UserInfo) (role : UInt8) : Except String Unit × Env :=
  match checkRegistration undefinedRole c.storage userInfo role with
  | .error e => (.error e, c)
  | .ok () => (.ok (), c.register accountId userInfo role)

/-- The 2 of `self.roles.get(acc).unwrap_or(2)`: "2 indica rol no definido". -/
def rolNoDefinido : UInt8 := 2

def addUser (c : Env) (accountId : AccountId) (userInfo : UserInfo) (role : UInt8) :
    Except String Unit × Env :=
  addUserDefaulting rolNoDefinido c accountId userInfo role

def assignRole (c : Env) (accountId : AccountId) (role : UInt8) : String × Env :=
  (s!"Rol {role} asignado a la cuenta {accountId.debug}", c.assign accountId role)

def requestAccess (c : Env) (requester target : AccountId) : Unit × Env :=
  ((), c.request requester target)

def grantPermission (c : Env) (granter grantee : AccountId) : Except String Unit × Env :=
  if c.storage.permissions.getD (granter, grantee) false then
    (.error "Permiso ya concedido", c)
  else (.ok (), c.grant granter grantee)

def revokePermission (c : Env) (granter grantee : AccountId) : Except String Unit × Env :=
  if !c.storage.permissions.getD (granter, grantee) false then
    (.error "No existe permiso para revocar", c)
  else (.ok (), c.revoke granter grantee)

/-! ## The contract as a machine -/

inductive Message where
  | addUser (accountId : AccountId) (userInfo : UserInfo) (role : UInt8)
  | assignRole (accountId : AccountId) (role : UInt8)
  | requestAccess (requester target : AccountId)
  | grantPermission (granter grantee : AccountId)
  | revokePermission (granter grantee : AccountId)
  deriving DecidableEq

/-- What a message returns. -/
inductive Reply where
  | result (r : Except String Unit)
  | text (s : String)
  | unit
  deriving DecidableEq

/-- A message as it arrives: with the account that sends it.  No message reads
`self.env().caller()`. -/
structure Call where
  caller : AccountId
  message : Message

def execute (c : Env) (call : Call) : Reply × Env :=
  match call.message with
  | .addUser accountId userInfo role =>
      let (r, c') := addUser c accountId userInfo role
      (.result r, c')
  | .assignRole accountId role =>
      let (s, c') := assignRole c accountId role
      (.text s, c')
  | .requestAccess requester target => (.unit, (requestAccess c requester target).2)
  | .grantPermission granter grantee =>
      let (r, c') := grantPermission c granter grantee
      (.result r, c')
  | .revokePermission granter grantee =>
      let (r, c') := revokePermission c granter grantee
      (.result r, c')

/-- The contract from its constructor on. -/
def contract : Machine Env Call Reply where
  start := { storage := .default, events := [] }
  step := execute

/-! ## What one message can do -/

/-- The messages' cases: what was found, what is returned, what is left. -/
inductive Effect (c : Env) : Message → Reply → Env → Prop where
  | registered {accountId userInfo role}
      (passed : checkRegistration rolNoDefinido c.storage userInfo role = .ok ()) :
      Effect c (.addUser accountId userInfo role) (.result (.ok ()))
        (c.register accountId userInfo role)
  | notRegistered {accountId userInfo role e}
      (refused : checkRegistration rolNoDefinido c.storage userInfo role = .error e) :
      Effect c (.addUser accountId userInfo role) (.result (.error e)) c
  | assigned {accountId role} :
      Effect c (.assignRole accountId role) (.text (assignRole c accountId role).1)
        (c.assign accountId role)
  | requested {requester target} :
      Effect c (.requestAccess requester target) .unit (c.request requester target)
  | granted {granter grantee} (off : c.storage.hasPermission granter grantee = false) :
      Effect c (.grantPermission granter grantee) (.result (.ok ())) (c.grant granter grantee)
  | notGranted {granter grantee} (on : c.storage.hasPermission granter grantee = true) :
      Effect c (.grantPermission granter grantee) (.result (.error "Permiso ya concedido")) c
  | revoked {granter grantee} (on : c.storage.hasPermission granter grantee = true) :
      Effect c (.revokePermission granter grantee) (.result (.ok ())) (c.revoke granter grantee)
  | notRevoked {granter grantee} (off : c.storage.hasPermission granter grantee = false) :
      Effect c (.revokePermission granter grantee)
        (.result (.error "No existe permiso para revocar")) c

theorem checkRegistration_ok {k : UInt8} {s : AccessControl} {u : UserInfo} {r : UInt8} :
    checkRegistration k s u r = .ok () ↔
      checkUserInfo u = .ok () ∧ checkAccounts k s (s.slots u.dni) r = .ok () := by
  unfold checkRegistration
  split
  · rename_i e invalid
    simp [invalid]
  · rename_i valid
    simp [valid]

theorem addUser_effect (c : Env) (accountId : AccountId) (userInfo : UserInfo) (role : UInt8) :
    Effect c (.addUser accountId userInfo role) (.result (addUser c accountId userInfo role).1)
      (addUser c accountId userInfo role).2 := by
  unfold addUser addUserDefaulting
  split
  · rename_i refused
    exact .notRegistered refused
  · rename_i passed
    exact .registered passed

theorem grantPermission_effect (c : Env) (granter grantee : AccountId) :
    Effect c (.grantPermission granter grantee) (.result (grantPermission c granter grantee).1)
      (grantPermission c granter grantee).2 := by
  unfold grantPermission
  split
  · rename_i on
    exact .notGranted on
  · rename_i off
    exact .granted (by simpa [AccessControl.hasPermission] using off)

theorem revokePermission_effect (c : Env) (granter grantee : AccountId) :
    Effect c (.revokePermission granter grantee) (.result (revokePermission c granter grantee).1)
      (revokePermission c granter grantee).2 := by
  unfold revokePermission
  split
  · rename_i off
    exact .notRevoked (by simpa [AccessControl.hasPermission] using off)
  · rename_i on
    exact .revoked (by simpa [AccessControl.hasPermission] using on)

/-- Every step of the contract is one of the cases. -/
theorem execute_effect (c : Env) (call : Call) :
    Effect c call.message (contract.step c call).1 (contract.step c call).2 := by
  obtain ⟨caller, message⟩ := call
  cases message with
  | addUser accountId userInfo role => exact addUser_effect c accountId userInfo role
  | assignRole accountId role => exact .assigned
  | requestAccess requester target => exact .requested
  | grantPermission granter grantee => exact grantPermission_effect c granter grantee
  | revokePermission granter grantee => exact revokePermission_effect c granter grantee

/-! ## What the writes do to the queries -/

section Queries

variable (c : Env) (a b g e : AccountId) (u : UserInfo) (r : UInt8) (d : String)

@[simp] theorem register_hasPermission :
    (c.register a u r).storage.hasPermission = c.storage.hasPermission := rfl

@[simp] theorem register_getGrantedPermissions :
    (c.register a u r).storage.getGrantedPermissions = c.storage.getGrantedPermissions := rfl

@[simp] theorem register_getAccessRequests :
    (c.register a u r).storage.getAccessRequests = c.storage.getAccessRequests := rfl

@[simp] theorem register_getRole :
    (c.register a u r).storage.getRole b = if b = a then some r else c.storage.getRole b := rfl

@[simp] theorem register_getUserInfo :
    (c.register a u r).storage.getUserInfo b = if b = a then some u else c.storage.getUserInfo b :=
  rfl

@[simp] theorem register_userExists :
    (c.register a u r).storage.userExists b = (decide (b = a) || c.storage.userExists b) :=
  Mapping.contains_insert _ _ _ _

theorem register_slots :
    (c.register a u r).storage.slots d =
      if d = u.dni then (c.storage.slots u.dni).put a else c.storage.slots d :=
  Mapping.getD_insert _ _ _ _ _

@[simp] theorem assign_hasPermission :
    (c.assign a r).storage.hasPermission = c.storage.hasPermission := rfl

@[simp] theorem assign_getGrantedPermissions :
    (c.assign a r).storage.getGrantedPermissions = c.storage.getGrantedPermissions := rfl

@[simp] theorem assign_getAccessRequests :
    (c.assign a r).storage.getAccessRequests = c.storage.getAccessRequests := rfl

@[simp] theorem assign_getRole :
    (c.assign a r).storage.getRole b = if b = a then some r else c.storage.getRole b := rfl

@[simp] theorem assign_getUserInfo :
    (c.assign a r).storage.getUserInfo = c.storage.getUserInfo := rfl

@[simp] theorem assign_userExists :
    (c.assign a r).storage.userExists = c.storage.userExists := rfl

@[simp] theorem assign_slots : (c.assign a r).storage.slots = c.storage.slots := rfl

@[simp] theorem request_hasPermission :
    (c.request g e).storage.hasPermission = c.storage.hasPermission := rfl

@[simp] theorem request_getGrantedPermissions :
    (c.request g e).storage.getGrantedPermissions = c.storage.getGrantedPermissions := rfl

@[simp] theorem request_getAccessRequests :
    (c.request g e).storage.getAccessRequests b =
      if b = g then c.storage.getAccessRequests g ++ [e] else c.storage.getAccessRequests b :=
  Mapping.getD_insert _ _ _ _ _

@[simp] theorem request_getRole : (c.request g e).storage.getRole = c.storage.getRole := rfl

@[simp] theorem request_getUserInfo :
    (c.request g e).storage.getUserInfo = c.storage.getUserInfo := rfl

@[simp] theorem request_userExists :
    (c.request g e).storage.userExists = c.storage.userExists := rfl

@[simp] theorem request_slots : (c.request g e).storage.slots = c.storage.slots := rfl

@[simp] theorem grant_hasPermission :
    (c.grant g e).storage.hasPermission a b =
      if (a, b) = (g, e) then true else c.storage.hasPermission a b :=
  Mapping.getD_insert _ _ _ _ _

theorem grant_getGrantedPermissions :
    (c.grant g e).storage.getGrantedPermissions a =
      if a = g ∧ e ∉ c.storage.getGrantedPermissions g then
        c.storage.getGrantedPermissions g ++ [e]
      else c.storage.getGrantedPermissions a := by
  simp only [Env.grant, AccessControl.getGrantedPermissions]
  by_cases listed : e ∈ c.storage.grantees.getD g [] <;> simp [listed, Mapping.getD_insert]

@[simp] theorem grant_getAccessRequests :
    (c.grant g e).storage.getAccessRequests = c.storage.getAccessRequests := rfl

@[simp] theorem grant_getRole : (c.grant g e).storage.getRole = c.storage.getRole := rfl

@[simp] theorem grant_getUserInfo :
    (c.grant g e).storage.getUserInfo = c.storage.getUserInfo := rfl

@[simp] theorem grant_userExists : (c.grant g e).storage.userExists = c.storage.userExists := rfl

@[simp] theorem grant_slots : (c.grant g e).storage.slots = c.storage.slots := rfl

@[simp] theorem revoke_hasPermission :
    (c.revoke g e).storage.hasPermission a b =
      if (a, b) = (g, e) then false else c.storage.hasPermission a b :=
  Mapping.getD_insert _ _ _ _ _

/-- Removing at the first position found is `List.erase`. -/
theorem revoke_getGrantedPermissions :
    (c.revoke g e).storage.getGrantedPermissions a =
      if a = g then (c.storage.getGrantedPermissions g).erase e
      else c.storage.getGrantedPermissions a := by
  simp only [Env.revoke, AccessControl.getGrantedPermissions, List.erase_eq_eraseIdx]
  by_cases same : a = g
  · subst same
    cases (c.storage.grantees.getD a []).idxOf? e <;> simp [Mapping.getD_insert]
  · cases (c.storage.grantees.getD g []).idxOf? e <;> simp [Mapping.getD_insert, same]

@[simp] theorem revoke_getAccessRequests :
    (c.revoke g e).storage.getAccessRequests = c.storage.getAccessRequests := rfl

@[simp] theorem revoke_getRole : (c.revoke g e).storage.getRole = c.storage.getRole := rfl

@[simp] theorem revoke_getUserInfo :
    (c.revoke g e).storage.getUserInfo = c.storage.getUserInfo := rfl

@[simp] theorem revoke_userExists :
    (c.revoke g e).storage.userExists = c.storage.userExists := rfl

@[simp] theorem revoke_slots : (c.revoke g e).storage.slots = c.storage.slots := rfl

end Queries

end PatientAccess.Contract
