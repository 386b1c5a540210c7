/-
# Contract.Roles -- who may have which role

Two rules about roles, and what keeps them.  The accounts of one DNI have different
roles (`RolesApart`), and only users have one (`RolesRegistered`).

`add_user` refuses a registration that would give a DNI two accounts with one role
("Ambos account_id no pueden tener el mismo rol").  It looks at the DNI being
registered and at nothing else; roles are stored by account, and two writes of a
role escape the check: `assign_role`, which has none, and the registration of an
account that another DNI already lists.

`KeepsRolesApart` is the exact condition on one step, over the state before it,
and `rolesApart_step` says that it is exact; `rolesApart_always_iff` carries it
along a run.  `assign_role` does not look at `users` either: `AssignsToUser` is the
condition for the second rule, and `rolesRegistered_always_iff` its run.
-/
import PatientAccess.Contract.Registry

namespace PatientAccess.Contract

open PatientAccess.Theory

set_option autoImplicit false

/-- No DNI lists two accounts with one role. -/
def RolesApart (s : AccessControl) : Prop :=
  ∀ d a b, a ∈ s.getAccounts d → b ∈ s.getAccounts d → a ≠ b → s.getRole a ≠ s.getRole b

/-- The role a message writes, and to which account: `assign_role` always,
`add_user` when its own checks pass. -/
def roleWritten (s : AccessControl) : Message → Option (AccountId × UInt8)
  | .assignRole accountId role => some (accountId, role)
  | .addUser accountId userInfo role =>
      if checkRegistration rolNoDefinido s userInfo role = .ok () then some (accountId, role)
      else none
  | _ => none

/-- No DNI that lists the account being written lists another with the new role. -/
def KeepsRolesApart (c : Env) (call : Call) : Prop :=
  ∀ a r, roleWritten c.storage call.message = some (a, r) →
    ∀ d b, a ∈ c.storage.getAccounts d → b ∈ c.storage.getAccounts d → b ≠ a →
      c.storage.getRole b ≠ some r

theorem rolesApart_default : RolesApart .default := by
  intro d a b listed
  simp [AccessControl.getAccounts, AccessControl.slots, AccessControl.default] at listed

/-! ## One step -/

/-- Only the slots and the roles matter. -/
theorem RolesApart.congr {s t : AccessControl} (apart : RolesApart s) (slots : t.slots = s.slots)
    (roles : t.getRole = s.getRole) : RolesApart t := by
  have accounts : t.getAccounts = s.getAccounts := by
    funext d
    rw [AccessControl.getAccounts, AccessControl.getAccounts, slots]
  rw [RolesApart, accounts, roles]
  exact apart

/-- Where `assign_role` writes: the lists of accounts stay, one role moves. -/
theorem rolesApart_assign {c : Env} (apart : RolesApart c.storage) (a : AccountId) (r : UInt8) :
    RolesApart (c.assign a r).storage ↔
      ∀ d b, a ∈ c.storage.getAccounts d → b ∈ c.storage.getAccounts d → b ≠ a →
        c.storage.getRole b ≠ some r := by
  constructor
  · intro after d b here there ne
    have := after d b a there here ne
    rwa [assign_getRole, assign_getRole, if_neg ne, if_pos rfl] at this
  · intro free d x y here there ne
    rw [assign_getRole, assign_getRole]
    by_cases first : x = a
    · subst first
      rw [if_pos rfl, if_neg (Ne.symm ne)]
      exact (free d y here there (Ne.symm ne)).symm
    · rw [if_neg first]
      by_cases second : y = a
      · subst second
        rw [if_pos rfl]
        exact free d x there here ne
      · rw [if_neg second]
        exact apart d x y here there ne

/-- Where `add_user` writes, its checks passed: under the DNI being registered the
check keeps the roles apart, under any other DNI nothing does. -/
theorem rolesApart_register {c : Env} {l : List Registration} (keeps : Keeps c.storage l)
    (apart : RolesApart c.storage) {a : AccountId} {u : UserInfo} {r : UInt8}
    (passed : checkRegistration rolNoDefinido c.storage u r = .ok ()) :
    RolesApart (c.register a u r).storage ↔
      ∀ d b, a ∈ c.storage.getAccounts d → b ∈ c.storage.getAccounts d → b ≠ a →
        c.storage.getRole b ≠ some r := by
  obtain ⟨room, untaken⟩ := checkAccounts_ok.mp (checkRegistration_ok.mp passed).2
  have accounts := getAccounts_register keeps room (a := a) (r := r)
  have grown : ∀ {d x}, x ∈ c.storage.getAccounts d →
      x ∈ (c.register a u r).storage.getAccounts d := by
    intro d x member
    rw [accounts]
    split
    · exact List.mem_append_left _ member
    · exact member
  -- an account already listed under the DNI has a role, and the check saw it
  have checked : ∀ b ∈ c.storage.getAccounts u.dni, c.storage.getRole b ≠ some r := by
    intro b member same
    have := untaken b member
    rw [same] at this
    exact this rfl
  constructor
  · intro after d b here there ne
    have := after d b a (grown there) (grown here) ne
    rwa [register_getRole, register_getRole, if_neg ne, if_pos rfl] at this
  · intro elsewhere
    -- whatever is listed next to `a` afterwards does not have its role
    have beside : ∀ d y, a ∈ (c.register a u r).storage.getAccounts d →
        y ∈ (c.register a u r).storage.getAccounts d → y ≠ a → c.storage.getRole y ≠ some r := by
      intro d y here there ne
      rw [accounts] at here there
      by_cases same : d = u.dni
      · subst same
        rw [if_pos rfl, List.mem_append, List.mem_singleton] at there
        exact checked y (there.resolve_right ne)
      · rw [if_neg same] at here there
        exact elsewhere d y here there ne
    intro d x y here there ne
    rw [register_getRole, register_getRole]
    by_cases first : x = a
    · subst first
      rw [if_pos rfl, if_neg (Ne.symm ne)]
      exact (beside d y here there (Ne.symm ne)).symm
    · rw [if_neg first]
      by_cases second : y = a
      · subst second
        rw [if_pos rfl]
        exact beside d x there here ne
      · rw [if_neg second]
        have old : ∀ z ∈ (c.register a u r).storage.getAccounts d, z ≠ a →
            z ∈ c.storage.getAccounts d := by
          intro z member other
          rw [accounts] at member
          split at member
          · exact (List.mem_append.mp member).resolve_right
              fun last => other (List.mem_singleton.mp last)
          · exact member
        exact apart d x y (old x here first) (old y there second) ne

theorem keepsRolesApart_iff {c : Env} {caller : AccountId} {m : Message} {a : AccountId}
    {r : UInt8} (written : roleWritten c.storage m = some (a, r)) :
    KeepsRolesApart c ⟨caller, m⟩ ↔
      ∀ d b, a ∈ c.storage.getAccounts d → b ∈ c.storage.getAccounts d → b ≠ a →
        c.storage.getRole b ≠ some r := by
  constructor
  · intro keeps
    exact keeps a r written
  · intro free a' r' written'
    rw [written] at written'
    cases written'
    exact free

theorem keepsRolesApart_of_none {c : Env} {call : Call}
    (quiet : roleWritten c.storage call.message = none) : KeepsRolesApart c call := by
  intro a r written
  rw [quiet] at written
  cases written

/-- One step keeps the roles apart exactly under `KeepsRolesApart`. -/
theorem rolesApart_step {c c' : Env} {m : Message} {reply : Reply} (effect : Effect c m reply c')
    {l : List Registration} (keeps : Keeps c.storage l) (apart : RolesApart c.storage)
    (caller : AccountId) : RolesApart c'.storage ↔ KeepsRolesApart c ⟨caller, m⟩ := by
  cases effect with
  | @registered a u r passed =>
      have written : roleWritten c.storage (.addUser a u r) = some (a, r) := if_pos passed
      exact (rolesApart_register keeps apart passed).trans (keepsRolesApart_iff written).symm
  | @assigned a r =>
      have written : roleWritten c.storage (.assignRole a r) = some (a, r) := rfl
      exact (rolesApart_assign apart a r).trans (keepsRolesApart_iff written).symm
  | notRegistered refused =>
      exact iff_of_true apart (keepsRolesApart_of_none (by simp [roleWritten, refused]))
  | requested =>
      exact iff_of_true (apart.congr (by simp) (by simp)) (keepsRolesApart_of_none rfl)
  | granted off =>
      exact iff_of_true (apart.congr (by simp) (by simp)) (keepsRolesApart_of_none rfl)
  | notGranted on => exact iff_of_true apart (keepsRolesApart_of_none rfl)
  | revoked on =>
      exact iff_of_true (apart.congr (by simp) (by simp)) (keepsRolesApart_of_none rfl)
  | notRevoked off => exact iff_of_true apart (keepsRolesApart_of_none rfl)

/-! ## Runs -/

/-- **Roles apart, exactly.**  A run keeps the accounts of every DNI at different
roles throughout exactly when none of its steps writes an account a role that
another account of one of its DNIs has. -/
theorem rolesApart_always_iff (calls : List Call) :
    contract.Always (fun c => RolesApart c.storage) calls ↔
      contract.AllSteps KeepsRolesApart calls := by
  refine contract.always_iff_allSteps rolesApart_default (fun c call reached apart => ?_) calls
  obtain ⟨before, rfl⟩ := reached
  exact rolesApart_step (execute_effect _ call) (keeps_run before) apart call.caller

/-- `assign_role` gives the two accounts of a DNI one role. -/
theorem assignRole_breaks_rolesApart :
    ¬ ∀ calls, RolesApart (contract.run calls).storage := by
  intro claim
  have := claim [⟨.from32 9, .addUser (.from32 1) alice 0⟩,
    ⟨.from32 9, .addUser (.from32 2) alice 1⟩, ⟨.from32 9, .assignRole (.from32 2) 0⟩]
  exact this "12345678" (.from32 1) (.from32 2) (by decide) (by decide) (by decide) (by decide)

/-! ## Roles and users -/

/-- An account has a role exactly if it is a user. -/
def RolesRegistered (s : AccessControl) : Prop :=
  ∀ a, (s.getRole a).isSome = true ↔ s.userExists a = true

/-- A role is assigned to a user only. -/
def AssignsToUser (c : Env) (call : Call) : Prop :=
  ∀ a r, call.message = .assignRole a r → c.storage.userExists a = true

/-- Only the roles and the users matter. -/
theorem RolesRegistered.congr {s t : AccessControl} (registered : RolesRegistered s)
    (roles : t.getRole = s.getRole) (users : t.userExists = s.userExists) : RolesRegistered t := by
  intro a
  rw [roles, users]
  exact registered a

theorem assignsToUser_of_ne {c : Env} {caller : AccountId} {m : Message}
    (other : ∀ a r, m ≠ .assignRole a r) : AssignsToUser c ⟨caller, m⟩ :=
  fun a r same => absurd same (other a r)

/-- `add_user` writes a role and a user, to one account. -/
theorem RolesRegistered.register {c : Env} (registered : RolesRegistered c.storage)
    (a : AccountId) (u : UserInfo) (r : UInt8) : RolesRegistered (c.register a u r).storage := by
  intro b
  rw [register_getRole, register_userExists]
  by_cases here : b = a
  · simp [here]
  · simpa [here] using registered b

/-- `assign_role` writes a role and no user. -/
theorem rolesRegistered_assign {c : Env} (registered : RolesRegistered c.storage) (a : AccountId)
    (r : UInt8) : RolesRegistered (c.assign a r).storage ↔ c.storage.userExists a = true := by
  constructor
  · intro after
    have same := after a
    rw [assign_getRole, if_pos rfl, assign_userExists] at same
    exact same.mp rfl
  · intro known b
    rw [assign_getRole, assign_userExists]
    by_cases here : b = a
    · simp [here, known]
    · rw [if_neg here]
      exact registered b

theorem rolesRegistered_step {c c' : Env} {m : Message} {reply : Reply}
    (effect : Effect c m reply c') (registered : RolesRegistered c.storage) (caller : AccountId) :
    RolesRegistered c'.storage ↔ AssignsToUser c ⟨caller, m⟩ := by
  cases effect with
  | @assigned a r =>
      refine (rolesRegistered_assign registered a r).trans ⟨fun known b q same => ?_, fun only => ?_⟩
      · cases same
        exact known
      · exact only a r rfl
  | registered passed =>
      exact iff_of_true (registered.register _ _ _) (assignsToUser_of_ne (by simp))
  | requested =>
      exact iff_of_true (registered.congr (by simp) (by simp)) (assignsToUser_of_ne (by simp))
  | granted off =>
      exact iff_of_true (registered.congr (by simp) (by simp)) (assignsToUser_of_ne (by simp))
  | revoked on =>
      exact iff_of_true (registered.congr (by simp) (by simp)) (assignsToUser_of_ne (by simp))
  | notRegistered refused => exact iff_of_true registered (assignsToUser_of_ne (by simp))
  | notGranted on => exact iff_of_true registered (assignsToUser_of_ne (by simp))
  | notRevoked off => exact iff_of_true registered (assignsToUser_of_ne (by simp))

/-- **Roles of users only, exactly.**  In every state of a run the accounts with a role are
the users, exactly when the run assigns roles to users only. -/
theorem rolesRegistered_always_iff (calls : List Call) :
    contract.Always (fun c => RolesRegistered c.storage) calls ↔
      contract.AllSteps AssignsToUser calls := by
  have start : RolesRegistered contract.start.storage := by
    intro a
    show (none : Option UInt8).isSome = true ↔ false = true
    simp
  refine contract.always_iff_allSteps start (fun c call _ registered => ?_) calls
  exact rolesRegistered_step (execute_effect c call) registered call.caller

/-- An account nobody registered becomes a doctor. -/
theorem assignRole_to_a_stranger :
    ¬ ∀ calls, RolesRegistered (contract.run calls).storage := by
  intro claim
  have registered := claim [⟨.from32 9, .assignRole (.from32 1) 1⟩]
  exact absurd ((registered (.from32 1)).mp (by decide)) (by decide)

end PatientAccess.Contract
