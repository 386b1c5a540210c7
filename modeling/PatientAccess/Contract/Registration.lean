/-
# Contract.Registration -- what add_user accepts, and what it leaves alone

The checks of `add_user` read the tables through a default: an account without a
role counts as having role 2.  No account that is listed is without a role
(`Keeps.role_of_listed`), so the default is never used (`defaultRole_unused`), and
what `add_user` accepts can be said of the answers to queries alone
(`addUser_exact`).

Two registrations of different accounts under different DNIs write apart, but one
reads what the other writes: the role of an account that both DNIs list.
`addUser_comm_iff` says that this is the only way in which their order matters.
-/
import PatientAccess.Contract.Registry

namespace PatientAccess.Contract

open PatientAccess.Theory

set_option autoImplicit false

/-! ## The default role is not used -/

theorem Keeps.userExists_of_listed {s : AccessControl} {l : List Registration} (keeps : Keeps s l)
    {d : String} {a : AccountId} (listed : a ∈ s.getAccounts d) : s.userExists a = true := by
  obtain ⟨reg, -, info⟩ := lastInfo_of_listed keeps listed
  show (s.getUserInfo a).isSome = true
  rw [info]
  rfl

/-- Where the listed accounts have roles, the default plays no part. -/
theorem checkAccounts_default {s : AccessControl} {d : String}
    (held : ∀ a ∈ s.getAccounts d, (s.getRole a).isSome) (k k' r : UInt8) :
    checkAccounts k s (s.slots d) r = checkAccounts k' s (s.slots d) r := by
  have same : ∀ a ∈ s.getAccounts d, (s.getRole a).getD k = (s.getRole a).getD k' := by
    intro a listed
    obtain ⟨role, found⟩ := Option.isSome_iff_exists.mp (held a listed)
    rw [found]
    rfl
  have taken : (s.getAccounts d).any (fun a => decide ((s.getRole a).getD k = r)) =
      (s.getAccounts d).any fun a => decide ((s.getRole a).getD k' = r) := by
    rw [Bool.eq_iff_iff, List.any_eq_true, List.any_eq_true]
    constructor
    · rintro ⟨a, listed, equal⟩
      exact ⟨a, listed, by rw [← same a listed]; exact equal⟩
    · rintro ⟨a, listed, equal⟩
      exact ⟨a, listed, by rw [same a listed]; exact equal⟩
  rw [checkAccounts_eq, checkAccounts_eq, taken]

/-- The role check refuses only for a role that a listed account has. -/
theorem checkAccounts_taken {s : AccessControl} {d : String}
    (held : ∀ a ∈ s.getAccounts d, (s.getRole a).isSome) {k r : UInt8}
    (refused : checkAccounts k s (s.slots d) r =
      .error "Ambos account_id no pueden tener el mismo rol") :
    ∃ a ∈ s.getAccounts d, s.getRole a = some r := by
  rw [checkAccounts_eq] at refused
  by_cases full : (s.getAccounts d).length ≥ 2
  · rw [if_pos full] at refused
    simp at refused
  · rw [if_neg full] at refused
    by_cases taken : (s.getAccounts d).any (fun a => decide ((s.getRole a).getD k = r))
    · obtain ⟨a, listed, equal⟩ := List.any_eq_true.mp taken
      obtain ⟨role, found⟩ := Option.isSome_iff_exists.mp (held a listed)
      have equal : (s.getRole a).getD k = r := of_decide_eq_true equal
      rw [found] at equal
      exact ⟨a, listed, found.trans (congrArg some equal)⟩
    · rw [if_neg taken] at refused
      cases refused

theorem checkUserInfo_ne_taken (u : UserInfo) :
    checkUserInfo u ≠ .error "Ambos account_id no pueden tener el mismo rol" := by
  unfold checkUserInfo
  repeat' split
  all_goals simp

/-- **The default role is not used.**  After any run every account in a slot has a role
and data; so `add_user` does the same whatever an account without a role counts as
having, and refuses a role only where a listed account has it. -/
theorem defaultRole_unused (calls : List Call) :
    let c := contract.run calls
    (∀ d a, some a ∈ (c.storage.slots d).toList →
        (c.storage.roles.get a).isSome = true ∧ (c.storage.users.get a).isSome = true) ∧
      (∀ k a u r, addUserDefaulting k c a u r = addUser c a u r) ∧
      ∀ a u r, (addUser c a u r).1 = .error "Ambos account_id no pueden tener el mismo rol" →
        ∃ b ∈ c.storage.getAccounts u.dni, c.storage.getRole b = some r := by
  intro c
  have keeps := keeps_run calls
  have held : ∀ d, ∀ a ∈ c.storage.getAccounts d, (c.storage.getRole a).isSome = true :=
    fun d a listed => keeps.role_of_listed listed
  refine ⟨fun d a filled => ?_, fun k a u r => ?_, fun a u r refused => ?_⟩
  · have listed : a ∈ c.storage.getAccounts d := List.mem_filterMap.mpr ⟨some a, filled, rfl⟩
    exact ⟨held d a listed, keeps.userExists_of_listed listed⟩
  · have same : checkRegistration k c.storage u r = checkRegistration rolNoDefinido c.storage u r := by
      unfold checkRegistration
      rw [checkAccounts_default (held u.dni) k rolNoDefinido r]
    rw [addUser, addUserDefaulting, addUserDefaulting, same]
  · unfold addUser addUserDefaulting at refused
    split at refused
    · rename_i e failed
      obtain rfl : e = _ := Except.error.inj refused
      unfold checkRegistration at failed
      split at failed
      · rename_i invalid
        cases failed
        exact absurd invalid (checkUserInfo_ne_taken u)
      · exact checkAccounts_taken (held u.dni) failed
    · cases refused

/-! ## What a registration needs and does -/

/-- The lengths and the `@` that `add_user` asks for; lengths are in bytes. -/
structure WellFormed (u : UserInfo) : Prop where
  name : 1 ≤ u.name.utf8ByteSize ∧ u.name.utf8ByteSize ≤ 12
  lastname : 1 ≤ u.lastname.utf8ByteSize ∧ u.lastname.utf8ByteSize ≤ 12
  dni : u.dni.utf8ByteSize = 8
  email : '@' ∈ u.email.toList

theorem checkUserInfo_ok (u : UserInfo) : checkUserInfo u = .ok () ↔ WellFormed u := by
  have mailed : '@' ∈ u.email.toList → u.email.utf8ByteSize ≠ 0 := by
    intro member empty
    rw [String.utf8ByteSize_eq_zero_iff.mp empty] at member
    simp at member
  unfold checkUserInfo
  simp only [String.isEmpty_iff_utf8ByteSize_eq_zero]
  constructor
  · intro passed
    split at passed <;> try cases passed
    split at passed <;> try cases passed
    split at passed <;> try cases passed
    split at passed <;> try cases passed
    rename_i name lastname dni email
    exact ⟨by omega, by omega, by omega, not_not.mp fun absent => email (.inr absent)⟩
  · rintro ⟨name, lastname, dni, email⟩
    have nonempty := mailed email
    rw [if_neg (by omega), if_neg (by omega), if_neg (by omega), if_neg]
    rintro (empty | absent)
    · exact nonempty empty
    · exact absent email

/-- The registration of `a` as `u` with role `r`, and nothing else: what is left of `c`. -/
structure RegistersOnly (c c' : Env) (a : AccountId) (u : UserInfo) (r : UInt8) : Prop where
  appended : c'.storage.getAccounts u.dni = c.storage.getAccounts u.dni ++ [a]
  info : c'.storage.getUserInfo a = some u
  role : c'.storage.getRole a = some r
  otherDnis : ∀ d, d ≠ u.dni → c'.storage.accounts.get d = c.storage.accounts.get d
  otherInfo : ∀ b, b ≠ a → c'.storage.users.get b = c.storage.users.get b
  otherRoles : ∀ b, b ≠ a → c'.storage.roles.get b = c.storage.roles.get b
  permissions : c'.storage.permissions = c.storage.permissions
  grantees : c'.storage.grantees = c.storage.grantees
  accessRequests : c'.storage.accessRequests = c.storage.accessRequests
  events : c'.events = c.events ++ [.roleAssigned a r, .userAdded a]

theorem register_registersOnly {c : Env} {l : List Registration} (keeps : Keeps c.storage l)
    {a : AccountId} {u : UserInfo} {r : UInt8} (room : (c.storage.getAccounts u.dni).length < 2) :
    RegistersOnly c (c.register a u r) a u r where
  appended := by rw [getAccounts_register keeps room, if_pos rfl]
  info := by rw [register_getUserInfo, if_pos rfl]
  role := by rw [register_getRole, if_pos rfl]
  otherDnis d ne := Mapping.get_insert_of_ne _ _ ne
  otherInfo b ne := Mapping.get_insert_of_ne _ _ ne
  otherRoles b ne := Mapping.get_insert_of_ne _ _ ne
  permissions := rfl
  grantees := rfl
  accessRequests := rfl
  events := rfl

/-- What `add_user` can do, by its checks. -/
theorem addUser_cases (c : Env) (a : AccountId) (u : UserInfo) (r : UInt8) :
    (checkRegistration rolNoDefinido c.storage u r = .ok () ∧
        addUser c a u r = (.ok (), c.register a u r)) ∨
      ∃ e, checkRegistration rolNoDefinido c.storage u r = .error e ∧
        addUser c a u r = (.error e, c) := by
  unfold addUser addUserDefaulting
  cases checked : checkRegistration rolNoDefinido c.storage u r with
  | ok _ => exact .inl ⟨rfl, rfl⟩
  | error e => exact .inr ⟨e, rfl, rfl⟩

/-- **What `add_user` accepts, and what it changes.**  It accepts well-formed data for a
DNI with room where no listed account has the role.  A refusal changes nothing; a
registration changes the DNI's list, the account's data and its role, and nothing
else. -/
theorem addUser_exact (calls : List Call) (a : AccountId) (u : UserInfo) (r : UInt8) :
    let c := contract.run calls
    let out := addUser c a u r
    (out.1 = .ok () ↔ WellFormed u ∧ (c.storage.getAccounts u.dni).length < 2 ∧
        ¬ ∃ b ∈ c.storage.getAccounts u.dni, c.storage.getRole b = some r) ∧
      (∀ e, out.1 = .error e → out.2 = c) ∧
      (out.1 = .ok () → RegistersOnly c out.2 a u r) := by
  intro c out
  have keeps := keeps_run calls
  have roles : (∀ b ∈ c.storage.getAccounts u.dni, (c.storage.getRole b).getD rolNoDefinido ≠ r) ↔
      ¬ ∃ b ∈ c.storage.getAccounts u.dni, c.storage.getRole b = some r := by
    rw [not_exists]
    refine forall_congr' fun b => ?_
    rw [not_and]
    refine imp_congr_right fun listed => ?_
    obtain ⟨role, found⟩ := Option.isSome_iff_exists.mp (keeps.role_of_listed listed)
    show (c.storage.getRole b).getD rolNoDefinido ≠ r ↔ ¬ c.storage.getRole b = some r
    have found : c.storage.getRole b = some role := found
    rw [found, Option.getD_some, Option.some.injEq]
  have accepts : out.1 = .ok () ↔ checkRegistration rolNoDefinido c.storage u r = .ok () := by
    rcases addUser_cases c a u r with ⟨passed, done⟩ | ⟨e, refused, done⟩
    · simp only [out, done, passed]
    · simp only [out, done, refused, reduceCtorEq]
  refine ⟨?_, fun e refused => ?_, fun accepted => ?_⟩
  · rw [accepts, checkRegistration_ok, checkUserInfo_ok, checkAccounts_ok, roles]
  · rcases addUser_cases c a u r with ⟨-, done⟩ | ⟨e', -, done⟩
    · simp only [out, done, reduceCtorEq] at refused
    · simp only [out, done]
  · have room := (checkAccounts_ok.mp (checkRegistration_ok.mp (accepts.mp accepted)).2).1
    rcases addUser_cases c a u r with ⟨-, done⟩ | ⟨e, -, done⟩
    · simp only [out, done]
      exact register_registersOnly keeps room
    · simp only [out, done, reduceCtorEq] at accepted

/-! ## Two registrations -/

/-- The registration of `a` leaves the verdict on `v` with role `q` alone: if it is accepted,
and `a` is the one account listed for `v`, its role is `q` afterwards only if it was before. -/
def Undisturbed (s : AccessControl) (a : AccountId) (u : UserInfo) (r : UInt8) (v : UserInfo)
    (q : UInt8) : Prop :=
  checkRegistration rolNoDefinido s u r = .ok () → WellFormed v → s.getAccounts v.dni = [a] →
    (s.getRole a = some q ↔ r = q)

/-- Either order gives each registration the same result, and leaves the same tables. -/
structure Commute (c : Env) (a : AccountId) (u : UserInfo) (r : UInt8) (b : AccountId)
    (v : UserInfo) (q : UInt8) : Prop where
  first : (addUser (addUser c b v q).2 a u r).1 = (addUser c a u r).1
  second : (addUser (addUser c a u r).2 b v q).1 = (addUser c b v q).1
  accounts : (addUser (addUser c a u r).2 b v q).2.storage.accounts =
    (addUser (addUser c b v q).2 a u r).2.storage.accounts
  users : (addUser (addUser c a u r).2 b v q).2.storage.users =
    (addUser (addUser c b v q).2 a u r).2.storage.users
  roles : (addUser (addUser c a u r).2 b v q).2.storage.roles =
    (addUser (addUser c b v q).2 a u r).2.storage.roles

theorem addUser_fst (c : Env) (a : AccountId) (u : UserInfo) (r : UInt8) :
    (addUser c a u r).1 = checkRegistration rolNoDefinido c.storage u r := by
  rcases addUser_cases c a u r with ⟨passed, done⟩ | ⟨e, refused, done⟩
  · rw [done, passed]
  · rw [done, refused]

theorem addUser_snd (c : Env) (a : AccountId) (u : UserInfo) (r : UInt8) :
    (addUser c a u r).2 = if (addUser c a u r).1 = .ok () then c.register a u r else c := by
  rcases addUser_cases c a u r with ⟨-, done⟩ | ⟨e, -, done⟩
  · simp [done]
  · simp [done]

/-- After a registration under another DNI, the checks on `v` see the same accounts, of which
one may have a new role. -/
theorem checkRegistration_register {c : Env} {l : List Registration} (keeps : Keeps c.storage l)
    {a : AccountId} {u v : UserInfo} {r q : UInt8}
    (room : (c.storage.getAccounts u.dni).length < 2) (other : v.dni ≠ u.dni) :
    checkRegistration rolNoDefinido (c.register a u r).storage v q =
        checkRegistration rolNoDefinido c.storage v q ↔
      (WellFormed v → c.storage.getAccounts v.dni = [a] → (c.storage.getRole a = some q ↔ r = q)) := by
  have same : (c.register a u r).storage.getAccounts v.dni = c.storage.getAccounts v.dni := by
    rw [getAccounts_register keeps room, if_neg other]
  have held : ∀ x ∈ c.storage.getAccounts v.dni, (c.storage.getRole x).isSome :=
    fun x listed => keeps.role_of_listed listed
  unfold checkRegistration
  cases checked : checkUserInfo v with
  | error e =>
      have malformed : ¬ WellFormed v := by
        rw [← checkUserInfo_ok, checked]
        simp
      exact iff_of_true rfl fun wellFormed => absurd wellFormed malformed
  | ok _ =>
      have wellFormed := (checkUserInfo_ok v).mp checked
      simp only [wellFormed, true_imp_iff, checkAccounts_eq, same]
      match listed : c.storage.getAccounts v.dni with
      | [] => simp
      | x :: y :: rest => simp
      | [x] =>
          obtain ⟨role, found⟩ := Option.isSome_iff_exists.mp (held x (by simp [listed]))
          have found : c.storage.getRole x = some role := found
          by_cases here : x = a
          · subst here
            by_cases new : r = q <;> by_cases old : role = q <;> simp [found, new, old]
          · simp [here]

/-- One registration leaves the result of the other alone exactly where it is undisturbed. -/
theorem addUser_addUser_fst {c : Env} {l : List Registration} (keeps : Keeps c.storage l)
    (a b : AccountId) {u v : UserInfo} (r q : UInt8) (other : v.dni ≠ u.dni) :
    (addUser (addUser c a u r).2 b v q).1 = (addUser c b v q).1 ↔
      Undisturbed c.storage a u r v q := by
  rw [addUser_fst, addUser_fst, Undisturbed]
  rcases addUser_cases c a u r with ⟨passed, done⟩ | ⟨e, refused, done⟩
  · have room := (checkAccounts_ok.mp (checkRegistration_ok.mp passed).2).1
    rw [done, checkRegistration_register keeps room other]
    simp only [passed, true_imp_iff]
  · rw [done, refused]
    exact iff_of_true rfl fun impossible => by cases impossible

/-- Registrations of different accounts under different DNIs write apart. -/
theorem register_comm (c : Env) {a b : AccountId} {u v : UserInfo} (r q : UInt8)
    (accounts : a ≠ b) (dnis : u.dni ≠ v.dni) :
    ((c.register a u r).register b v q).storage = ((c.register b v q).register a u r).storage := by
  have there : (c.register a u r).storage.slots v.dni = c.storage.slots v.dni := by
    rw [register_slots, if_neg (Ne.symm dnis)]
  have here : (c.register b v q).storage.slots u.dni = c.storage.slots u.dni := by
    rw [register_slots, if_neg dnis]
  have index := c.storage.accounts.insert_comm ((c.storage.slots u.dni).put a)
    ((c.storage.slots v.dni).put b) dnis
  have users := c.storage.users.insert_comm u v accounts
  have roles := c.storage.roles.insert_comm r q accounts
  unfold Env.register at there here ⊢
  simp only [there, here, index, users, roles]

/-- **When the order of two registrations matters.**  Different accounts under different
DNIs commute exactly when neither registration changes the role of the account that the
other's check reads. -/
theorem addUser_comm_iff (calls : List Call) (a b : AccountId) (u v : UserInfo) (r q : UInt8)
    (accounts : a ≠ b) (dnis : u.dni ≠ v.dni) :
    Commute (contract.run calls) a u r b v q ↔
      Undisturbed (contract.run calls).storage a u r v q ∧
        Undisturbed (contract.run calls).storage b v q u r := by
  have keeps := keeps_run calls
  generalize contract.run calls = c at keeps ⊢
  have second := addUser_addUser_fst keeps a b r q (Ne.symm dnis)
  have first := addUser_addUser_fst keeps b a q r dnis
  constructor
  · intro commute
    exact ⟨second.mp commute.second, first.mp commute.first⟩
  · rintro ⟨free, free'⟩
    have second := second.mpr free
    have first := first.mpr free'
    have tables : (addUser (addUser c a u r).2 b v q).2.storage =
        (addUser (addUser c b v q).2 a u r).2.storage := by
      rw [addUser_snd (addUser c a u r).2, second, addUser_snd (addUser c b v q).2, first,
        addUser_snd c a u r, addUser_snd c b v q]
      by_cases one : (addUser c a u r).1 = .ok () <;> by_cases two : (addUser c b v q).1 = .ok ()
      · simp only [if_pos one, if_pos two, register_comm c r q accounts dnis]
      · simp only [if_pos one, if_neg two]
      · simp only [if_neg one, if_pos two]
      · simp only [if_neg one, if_neg two]
    exact ⟨first, second, congrArg AccessControl.accounts tables,
      congrArg AccessControl.users tables, congrArg AccessControl.roles tables⟩

/-- Account 1 is listed for Alice with role 0.  Registered again, for Bob with the same role, it
does not disturb the registration of account 2 for Alice with role 1. -/
theorem addUser_comm_iff_listed :
    Commute (contract.run [⟨.from32 9, .addUser (.from32 1) alice 0⟩]) (.from32 1) bob 0
      (.from32 2) alice 1 := by
  refine (addUser_comm_iff [⟨.from32 9, .addUser (.from32 1) alice 0⟩] _ _ bob alice 0 1 (by decide)
    (by decide)).mpr ⟨fun _ _ _ => ?_, fun _ _ listed => ?_⟩
  · exact iff_of_false (by decide) (by decide)
  · exact absurd listed (by decide)

/-- Account 1 is listed for Alice with role 0.  Registered again, for Bob with role 1, it
makes room for another account of Alice with role 0. -/
theorem registration_order_matters :
    ¬ ∀ calls a b u v r q, a ≠ b → u.dni ≠ v.dni → Commute (contract.run calls) a u r b v q := by
  intro claim
  have commute := claim [⟨.from32 9, .addUser (.from32 1) alice 0⟩] (.from32 1) (.from32 2) bob alice
    1 0 (by decide) (by decide)
  exact absurd commute.second (by decide)

end PatientAccess.Contract
