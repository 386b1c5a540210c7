/-
# Contract.Storage -- what the contract stores, and its queries

The storage is six tables.  An account's permissions are stored twice: as a flag
for each (granter, grantee) pair in `permissions`, and as the granter's list in
`grantees`.  A DNI (identity card number) has two slots for accounts, and what an
account says about itself is in `users` and `roles`.

The queries only read; a key that was never written reads as the default the
source names at that place (`[None, None]`, the empty list, `false`).
-/
import PatientAccess.Theory.Mapping
import Mathlib.Data.List.Basic

namespace PatientAccess.Contract

open PatientAccess.Theory

set_option autoImplicit false

/-- An account: 32 bytes. -/
structure AccountId where
  bytes : Vector UInt8 32
  deriving DecidableEq

/-- `AccountId::from([byte; 32])`. -/
def AccountId.from32 (byte : UInt8) : AccountId := ⟨Vector.replicate 32 byte⟩

/-- `{:?}` of an account: the derived form of a tuple struct with one field. -/
def AccountId.debug (a : AccountId) : String :=
  "AccountId([" ++ ", ".intercalate (a.bytes.toList.map toString) ++ "])"

structure UserInfo where
  name : String
  lastname : String
  dni : String
  email : String
  deriving DecidableEq

/-- The users of the contract's own tests. -/
def alice : UserInfo := ⟨"Alice", "Doe", "12345678", "alice@example.com"⟩

def bob : UserInfo := ⟨"Bob", "Smith", "87654321", "bob@example.com"⟩

inductive Event where
  | log (message : String)
  | userAdded (account : AccountId)
  | roleAssigned (account : AccountId) (role : UInt8)
  | permissionGranted (granter grantee : AccountId) (state : Bool)
  | accessRequested (requester target : AccountId)
  deriving DecidableEq

/-- `[Option<AccountId>; 2]`. -/
abbrev Slots := Vector (Option AccountId) 2

namespace Slots

def first (v : Slots) : Option AccountId := v[0]

def second (v : Slots) : Option AccountId := v[1]

/-- Write into the first empty slot; with none empty the second is overwritten. -/
def put (v : Slots) (accountId : AccountId) : Slots :=
  if v[0].isNone then v.set 0 (some accountId) else v.set 1 (some accountId)

end Slots

/-- The storage struct.  Roles: 1 for a doctor, 0 for a patient. -/
structure AccessControl where
  accounts : Mapping String Slots
  users : Mapping AccountId UserInfo
  roles : Mapping AccountId UInt8
  permissions : Mapping (AccountId × AccountId) Bool
  grantees : Mapping AccountId (List AccountId)
  accessRequests : Mapping AccountId (List AccountId)

namespace AccessControl

/-- The constructor: every table empty. -/
def default : AccessControl :=
  { accounts := .empty, users := .empty, roles := .empty
    permissions := .empty, grantees := .empty, accessRequests := .empty }

/-- `self.accounts.get(&dni).unwrap_or([None, None])`. -/
def slots (s : AccessControl) (dni : String) : Slots :=
  s.accounts.getD dni #v[none, none]

/-! ## Queries -/

def getAccounts (s : AccessControl) (dni : String) : List AccountId :=
  (s.slots dni).toList.filterMap id

def getUserInfo (s : AccessControl) (accountId : AccountId) : Option UserInfo :=
  s.users.get accountId

def getAccessRequests (s : AccessControl) (requester : AccountId) : List AccountId :=
  s.accessRequests.getD requester []

def getGrantedPermissions (s : AccessControl) (granter : AccountId) : List AccountId :=
  s.grantees.getD granter []

def hasPermission (s : AccessControl) (granter grantee : AccountId) : Bool :=
  s.permissions.getD (granter, grantee) false

def getRole (s : AccessControl) (accountId : AccountId) : Option UInt8 :=
  s.roles.get accountId

def userExists (s : AccessControl) (accountId : AccountId) : Bool :=
  s.users.contains accountId

end AccessControl

/-- Two slots read as a list. -/
theorem toList_slots (v : Slots) : v.toList = [v.first, v.second] := by
  rcases v with ⟨⟨l⟩, size⟩
  match l, size with
  | [a, b], _ => rfl

end PatientAccess.Contract
