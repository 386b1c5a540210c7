/-
# Contract.Distinct -- what the registry keeps when accounts are new

The registry of the contract can be spoilt in two ways: an account is registered twice,
or `assign_role` writes a role nobody checks.  A client that does neither, that registers
accounts it has just created and never assigns a role, keeps it sound whatever its
registrations say and whatever is done about permissions: `Sound` collects what holds
then, and `sound_of_distinct` is the induction, one call at a time.
-/
import PatientAccess.Contract.Roles
import Mathlib.Data.List.Nodup

namespace PatientAccess.Contract

open PatientAccess.Theory

set_option autoImplicit false

/-- The account a message asks to register. -/
def Message.registers? : Message → Option AccountId
  | .addUser accountId _ _ => some accountId
  | _ => none

def Message.isAssignRole : Message → Bool
  | .assignRole _ _ => true
  | _ => false

/-- The accounts that calls ask to register, in order. -/
def registering (calls : List Call) : List AccountId :=
  calls.filterMap fun call => call.message.registers?

/-- The tables are those of a registry in which every account was registered once. -/
structure Sound (s : AccessControl) (l : List Registration) : Prop where
  /-- Who has data is listed under the DNI they name, and nowhere else. -/
  listed_iff : ∀ d a, a ∈ s.getAccounts d ↔ ∃ u, s.getUserInfo a = some u ∧ u.dni = d
  oneSlot : ∀ a, AtMostOneSlot s a
  /-- Everybody is in the role of their registration. -/
  role_iff : ∀ a r, s.getRole a = some r ↔ ∃ reg ∈ l, reg.accountId = a ∧ reg.role = r
  rolesApart : RolesApart s
  rolesRegistered : RolesRegistered s

/-! ## One call -/

theorem mem_registering_of_ledger {calls : List Call} {reg : Registration}
    (member : reg ∈ registrations (contract.trace calls)) :
    reg.accountId ∈ registering calls := by
  obtain ⟨⟨call, reply⟩, inTrace, registered⟩ := List.mem_filterMap.mp member
  have isCall : call ∈ calls := by
    rw [← contract.map_fst_trace calls]
    exact List.mem_map_of_mem inTrace
  refine List.mem_filterMap.mpr ⟨call, isCall, ?_⟩
  unfold registration? at registered
  split at registered
  · split at registered
    · rename_i asks
      cases registered
      rw [asks]
      rfl
    · cases registered
  · cases registered

theorem registering_concat (calls : List Call) (call : Call) :
    registering (calls ++ [call]) = registering calls ++ call.message.registers?.toList := by
  rw [registering, List.filterMap_append]
  rfl

/-- The accounts of the ledger are among those asked to be registered, in order. -/
theorem ledger_sublist (calls : List Call) :
    ((registrations (contract.trace calls)).map Registration.accountId).Sublist
      (registering calls) := by
  induction calls using List.reverseRecOn with
  | nil => exact List.Sublist.refl _
  | append_singleton calls call ih =>
      rw [contract.trace_concat, registrations_concat, registering_concat, List.map_append]
      refine ih.append ?_
      unfold registration?
      split
      · split
        · rename_i asks
          rw [asks]
          exact List.Sublist.refl _
        · exact List.nil_sublist _
      · exact List.nil_sublist _

/-- What the induction carries: the roles, and what follows of them. -/
structure RolesKept (s : AccessControl) (l : List Registration) : Prop where
  role_iff : ∀ a r, s.getRole a = some r ↔ ∃ reg ∈ l, reg.accountId = a ∧ reg.role = r
  rolesApart : RolesApart s
  rolesRegistered : RolesRegistered s

theorem RolesKept.congr {s t : AccessControl} {l : List Registration} (kept : RolesKept s l)
    (roles : t.getRole = s.getRole) (slots : t.slots = s.slots)
    (users : t.userExists = s.userExists) : RolesKept t l where
  role_iff a r := by rw [roles]; exact kept.role_iff a r
  rolesApart := kept.rolesApart.congr slots roles
  rolesRegistered := kept.rolesRegistered.congr roles users

/-- A registration of an account that is not listed keeps the roles. -/
theorem RolesKept.register {c : Env} {l : List Registration} (kept : RolesKept c.storage l)
    (keeps : Keeps c.storage l) {a : AccountId} {u : UserInfo} {r : UInt8}
    (new : ∀ reg ∈ l, reg.accountId ≠ a)
    (passed : checkRegistration rolNoDefinido c.storage u r = .ok ()) :
    RolesKept (c.register a u r).storage (l ++ [⟨a, u, r⟩]) where
  role_iff b q := by
    rw [register_getRole]
    by_cases same : b = a
    · subst same
      rw [if_pos rfl, Option.some.injEq]
      constructor
      · rintro rfl
        exact ⟨_, List.mem_append_right _ (List.mem_singleton_self _), rfl, rfl⟩
      · rintro ⟨reg, member, isIt, rfl⟩
        rcases List.mem_append.mp member with old | last
        · exact absurd isIt (new reg old)
        · rw [List.mem_singleton.mp last]
    · rw [if_neg same, kept.role_iff]
      constructor
      · rintro ⟨reg, member, isIt, role⟩
        exact ⟨reg, List.mem_append_left _ member, isIt, role⟩
      · rintro ⟨reg, member, isIt, role⟩
        rcases List.mem_append.mp member with old | last
        · exact ⟨reg, old, isIt, role⟩
        · rw [List.mem_singleton.mp last] at isIt
          exact absurd isIt.symm same
  rolesApart := by
    refine (rolesApart_register keeps kept.rolesApart passed).mpr fun d b here => ?_
    rw [keeps.getAccounts, mem_filedUnder] at here
    obtain ⟨reg, member, -⟩ := here
    obtain ⟨inLedger, same⟩ := List.mem_filter.mp member
    exact absurd (of_decide_eq_true same) (new reg inLedger)
  rolesRegistered := kept.rolesRegistered.register a u r

theorem rolesKept_step {c c' : Env} {m : Message} {reply : Reply} (effect : Effect c m reply c')
    {l : List Registration} (keeps : Keeps c.storage l) (kept : RolesKept c.storage l)
    (noRole : m.isAssignRole = false) (new : ∀ a, m.registers? = some a → ∀ reg ∈ l, reg.accountId ≠ a)
    (caller : AccountId) :
    RolesKept c'.storage (l ++ (registration? ⟨caller, m⟩ reply).toList) := by
  cases effect with
  | @registered a u r passed => exact kept.register keeps (new a rfl) passed
  | assigned => cases noRole
  | notRegistered refused | notGranted on | notRevoked off =>
      rw [show registration? _ _ = none from rfl, Option.toList_none, List.append_nil]
      exact kept
  | requested | granted off | revoked on =>
      rw [show registration? _ _ = none from rfl, Option.toList_none, List.append_nil]
      exact kept.congr (by simp) (by simp) (by simp)

/-! ## Runs -/

theorem rolesKept_run (calls : List Call) (noRole : ∀ call ∈ calls, call.message.isAssignRole = false)
    (distinct : (registering calls).Nodup) :
    RolesKept (contract.run calls).storage (registrations (contract.trace calls)) := by
  induction calls using List.reverseRecOn with
  | nil =>
      refine ⟨fun a r => ?_, rolesApart_default, fun a => ?_⟩
      · show (none : Option UInt8) = some r ↔ ∃ reg ∈ ([] : List Registration), _
        simp
      · show (none : Option UInt8).isSome = true ↔ false = true
        simp
  | append_singleton calls call ih =>
      rw [registering_concat, List.nodup_append] at distinct
      obtain ⟨before, -, apart⟩ := distinct
      have kept := ih (fun call member => noRole call (List.mem_append_left _ member)) before
      rw [contract.run_concat, contract.trace_concat, registrations_concat]
      refine rolesKept_step (execute_effect _ call) (keeps_run calls) kept
        (noRole call (List.mem_append_right _ (List.mem_singleton_self _))) ?_ call.caller
      intro a asks reg member same
      have old := mem_registering_of_ledger member
      rw [same] at old
      exact apart a old a (by rw [asks]; exact List.mem_singleton_self a) rfl

/-- **A sound registry.**  In a run that registers no account twice and assigns no role,
whatever else is called, every account is listed exactly under the DNI of its data, in one
slot, in the role it was registered in; and no DNI lists two accounts in one role. -/
theorem sound_of_distinct (calls : List Call)
    (noRole : ∀ call ∈ calls, call.message.isAssignRole = false)
    (distinct : (registering calls).Nodup) :
    Sound (contract.run calls).storage (registrations (contract.trace calls)) := by
  have keeps := keeps_run calls
  have kept := rolesKept_run calls noRole distinct
  have once : ∀ a, (registrationsOf (registrations (contract.trace calls)) a).length ≤ 1 := by
    intro a
    have nodup := distinct.sublist (ledger_sublist calls)
    have count := List.nodup_iff_count_le_one.mp nodup a
    rw [List.count_eq_countP, List.countP_map, List.countP_eq_length_filter] at count
    have same : (fun reg : Registration => decide (reg.accountId = a)) =
        (fun x => x == a) ∘ Registration.accountId := by
      funext reg
      exact (beq_eq_decide reg.accountId a).symm
    rw [registrationsOf, same]
    exact count
  refine ⟨fun d a => ?_, fun a => (atMostOneSlot_iff keeps a).mpr (once a), kept.role_iff,
    kept.rolesApart, kept.rolesRegistered⟩
  rw [keeps.getAccounts, mem_filedUnder, keeps.info, lastInfo]
  rcases Nat.le_one_iff_eq_zero_or_eq_one.mp (once a) with none_ | one
  · rw [List.length_eq_zero_iff.mp none_]
    simp
  · obtain ⟨reg, only⟩ := List.length_eq_one_iff.mp one
    rw [only]
    simp

end PatientAccess.Contract
