/-
# Contract.Registry -- the accounts and users tables are views of a ledger

What `add_user` is for: to keep a ledger of accepted registrations.  The contract
stores no ledger; it stores, for each DNI, two slots, and for each account the
data of one user.  `Keeps` says that these are two views of the ledger:

* the slots of a DNI hold the accounts registered under it, in call order, from
  slot 0 on (`Keeps.slots`) -- there are never more than two (`Keeps.atMostTwo`);
* an account's data is that of its last registration (`Keeps.info`), because a
  registration looks at the slots of its DNI and never at `users`.

`keeps_run` is the induction, over the history of the run; the rest reads the two
tables off the ledger.  An account registered once has one slot and its own data;
one registered again has two slots, and its data are replaced.
-/
import PatientAccess.Contract.Messages
import Mathlib.Data.List.Count

namespace PatientAccess.Contract

open PatientAccess.Theory

set_option autoImplicit false

/-! ## The ledger -/

/-- The arguments of an accepted `add_user`. -/
structure Registration where
  accountId : AccountId
  userInfo : UserInfo
  role : UInt8

/-- What a call and its reply add to the ledger. -/
def registration? (call : Call) : Reply → Option Registration
  | .result (.ok ()) =>
      match call.message with
      | .addUser accountId userInfo role => some ⟨accountId, userInfo, role⟩
      | _ => none
  | _ => none

/-- The accepted registrations of a history, in call order. -/
def registrations (h : List (Call × Reply)) : List Registration :=
  h.filterMap fun io => registration? io.1 io.2

/-- The accounts registered under a DNI, in order. -/
def filedUnder (l : List Registration) (dni : String) : List AccountId :=
  (l.filter fun reg => decide (reg.userInfo.dni = dni)).map Registration.accountId

/-- The registrations of an account, in order. -/
def registrationsOf (l : List Registration) (a : AccountId) : List Registration :=
  l.filter fun reg => decide (reg.accountId = a)

/-- The data an account was last registered with. -/
def lastInfo (l : List Registration) (a : AccountId) : Option UserInfo :=
  (registrationsOf l a).getLast?.map Registration.userInfo

theorem registrations_append (h k : List (Call × Reply)) :
    registrations (h ++ k) = registrations h ++ registrations k :=
  List.filterMap_append

theorem registrations_concat (h : List (Call × Reply)) (call : Call) (reply : Reply) :
    registrations (h ++ [(call, reply)]) =
      registrations h ++ (registration? call reply).toList := by
  rw [registrations_append]
  rfl

theorem filedUnder_concat (l : List Registration) (reg : Registration) (d : String) :
    filedUnder (l ++ [reg]) d =
      if d = reg.userInfo.dni then filedUnder l d ++ [reg.accountId] else filedUnder l d := by
  by_cases here : reg.userInfo.dni = d
  · simp [filedUnder, List.filter_append, here]
  · simp [filedUnder, List.filter_append, here, Ne.symm here]

theorem filedUnder_append (l k : List Registration) (d : String) :
    filedUnder (l ++ k) d = filedUnder l d ++ filedUnder k d := by
  simp [filedUnder, List.filter_append]

theorem lastInfo_append (l k : List Registration) (a : AccountId) :
    lastInfo (l ++ k) a = (lastInfo k a).or (lastInfo l a) := by
  simp only [lastInfo, registrationsOf, List.filter_append, List.getLast?_append]
  cases (k.filter fun reg => decide (reg.accountId = a)).getLast? <;> rfl

theorem mem_filedUnder {l : List Registration} {d : String} {a : AccountId} :
    a ∈ filedUnder l d ↔ ∃ reg ∈ registrationsOf l a, reg.userInfo.dni = d := by
  simp only [filedUnder, registrationsOf, List.mem_map, List.mem_filter, decide_eq_true_eq]
  constructor
  · rintro ⟨reg, ⟨member, rfl⟩, rfl⟩
    exact ⟨reg, ⟨member, rfl⟩, rfl⟩
  · rintro ⟨reg, ⟨member, rfl⟩, rfl⟩
    exact ⟨reg, ⟨member, rfl⟩, rfl⟩

/-! ## The checks of a registration, on the accounts listed -/

theorem count_slots (v : Slots) :
    (v.toList.filter Option.isSome).length = (v.toList.filterMap id).length := by
  rw [toList_slots]
  cases v.first <;> cases v.second <;> rfl

/-- The checks, said of the accounts listed. -/
theorem checkAccounts_eq (k : UInt8) (s : AccessControl) (d : String) (r : UInt8) :
    checkAccounts k s (s.slots d) r =
      if (s.getAccounts d).length ≥ 2 then .error "El DNI ya tiene dos cuentas asociadas"
      else if (s.getAccounts d).any (fun a => decide ((s.getRole a).getD k = r)) then
        .error "Ambos account_id no pueden tener el mismo rol"
      else .ok () := by
  unfold checkAccounts
  simp only [count_slots]
  rfl

/-- The checks pass exactly when one slot is free and no account listed has the role. -/
theorem checkAccounts_ok {k : UInt8} {s : AccessControl} {d : String} {r : UInt8} :
    checkAccounts k s (s.slots d) r = .ok () ↔
      (s.getAccounts d).length < 2 ∧ ∀ a ∈ s.getAccounts d, (s.getRole a).getD k ≠ r := by
  rw [checkAccounts_eq]
  by_cases full : (s.getAccounts d).length ≥ 2
  · have notFree : ¬ (s.getAccounts d).length < 2 := by omega
    simp only [if_pos full, notFree, false_and, reduceCtorEq]
  · by_cases taken : (s.getAccounts d).any (fun acc => decide ((s.getRole acc).getD k = r))
    · simp only [if_neg full, if_pos taken, reduceCtorEq, false_iff, not_and]
      simpa using fun _ => taken
    · simp only [if_neg full, if_neg taken, true_iff]
      exact ⟨by omega, by simpa using taken⟩

/-! ## The tables keep the ledger -/

/-- The tables of a contract whose accepted registrations are `l`. -/
structure Keeps (s : AccessControl) (l : List Registration) : Prop where
  slots : ∀ d, s.slots d = #v[(filedUnder l d)[0]?, (filedUnder l d)[1]?]
  atMostTwo : ∀ d, (filedUnder l d).length ≤ 2
  info : ∀ a, s.getUserInfo a = lastInfo l a
  roles : ∀ reg ∈ l, (s.getRole reg.accountId).isSome

theorem filterMap_two {l : List AccountId} (short : l.length ≤ 2) :
    [l[0]?, l[1]?].filterMap id = l := by
  match l, short with
  | [], _ => rfl
  | [_], _ => rfl
  | [_, _], _ => rfl

theorem Keeps.getAccounts {s : AccessControl} {l : List Registration} (keeps : Keeps s l)
    (d : String) : s.getAccounts d = filedUnder l d := by
  rw [AccessControl.getAccounts, keeps.slots]
  exact filterMap_two (keeps.atMostTwo d)

/-- An account that is listed has a role. -/
theorem Keeps.role_of_listed {s : AccessControl} {l : List Registration} (keeps : Keeps s l)
    {d : String} {a : AccountId} (listed : a ∈ s.getAccounts d) : (s.getRole a).isSome := by
  rw [keeps.getAccounts, mem_filedUnder] at listed
  obtain ⟨reg, member, -⟩ := listed
  obtain ⟨member, same⟩ := List.mem_filter.mp member
  rw [← of_decide_eq_true same]
  exact keeps.roles reg member

/-- Only `slots`, `getUserInfo` and the presence of roles matter. -/
theorem Keeps.congr {s t : AccessControl} {l : List Registration} (keeps : Keeps s l)
    (slots : t.slots = s.slots) (info : t.getUserInfo = s.getUserInfo)
    (roles : ∀ a, (s.getRole a).isSome → (t.getRole a).isSome) : Keeps t l where
  slots d := by rw [slots]; exact keeps.slots d
  atMostTwo := keeps.atMostTwo
  info a := by rw [info]; exact keeps.info a
  roles reg member := roles _ (keeps.roles reg member)

theorem Keeps.frame {s t : AccessControl} {l : List Registration} (keeps : Keeps s l)
    (slots : t.slots = s.slots) (info : t.getUserInfo = s.getUserInfo)
    (roles : t.getRole = s.getRole) : Keeps t l :=
  keeps.congr slots info fun a held => by rw [roles]; exact held

theorem keeps_default : Keeps .default [] where
  slots d := rfl
  atMostTwo d := by simp [filedUnder]
  info a := rfl
  roles reg member := by simp at member

/-- Two slots filled from the first hold one account more after the next is filled. -/
theorem put_slots {v : Slots} {l : List AccountId} (holds : v = #v[l[0]?, l[1]?])
    (room : l.length < 2) (a : AccountId) :
    v.put a = #v[(l ++ [a])[0]?, (l ++ [a])[1]?] := by
  subst holds
  match l, room with
  | [], _ => rfl
  | [_], _ => rfl

/-- A registration that passed its checks goes into the first empty slot. -/
theorem Keeps.register {c : Env} {l : List Registration} (keeps : Keeps c.storage l)
    (reg : Registration) (room : (c.storage.getAccounts reg.userInfo.dni).length < 2) :
    Keeps (c.register reg.accountId reg.userInfo reg.role).storage (l ++ [reg]) := by
  rw [keeps.getAccounts] at room
  constructor
  · intro d
    rw [register_slots, filedUnder_concat]
    by_cases here : d = reg.userInfo.dni
    · subst here
      rw [if_pos rfl, if_pos rfl]
      exact put_slots (keeps.slots _) room reg.accountId
    · rw [if_neg here, if_neg here]
      exact keeps.slots d
  · intro d
    rw [filedUnder_concat]
    by_cases here : d = reg.userInfo.dni
    · subst here
      rw [if_pos rfl, List.length_append, List.length_singleton]
      omega
    · rw [if_neg here]
      exact keeps.atMostTwo d
  · intro a
    rw [register_getUserInfo, lastInfo_append, keeps.info]
    by_cases same : a = reg.accountId
    · subst same
      simp [lastInfo, registrationsOf]
    · simp [lastInfo, registrationsOf, same, Ne.symm same]
  · intro reg' member
    rw [register_getRole]
    by_cases same : reg'.accountId = reg.accountId
    · simp [same]
    · rw [if_neg same]
      rcases List.mem_append.mp member with old | new
      · exact keeps.roles reg' old
      · rw [List.mem_singleton.mp new] at same
        exact absurd rfl same

theorem getAccounts_register {c : Env} {l : List Registration} (keeps : Keeps c.storage l)
    {a : AccountId} {u : UserInfo} {r : UInt8} (room : (c.storage.getAccounts u.dni).length < 2)
    (d : String) :
    (c.register a u r).storage.getAccounts d =
      if d = u.dni then c.storage.getAccounts d ++ [a] else c.storage.getAccounts d := by
  rw [(keeps.register ⟨a, u, r⟩ room).getAccounts, filedUnder_concat, keeps.getAccounts]

/-- A call that registers nothing adds nothing to the ledger. -/
theorem Keeps.quiet {s : AccessControl} {l : List Registration} {call : Call} {reply : Reply}
    (keeps : Keeps s l) (quiet : registration? call reply = none) :
    Keeps s (l ++ (registration? call reply).toList) := by
  simpa [quiet] using keeps

theorem keeps_step {c c' : Env} {m : Message} {reply : Reply} (effect : Effect c m reply c')
    {l : List Registration} (keeps : Keeps c.storage l) (caller : AccountId) :
    Keeps c'.storage (l ++ (registration? ⟨caller, m⟩ reply).toList) := by
  cases effect with
  | @registered a u r passed =>
      have room := (checkAccounts_ok.mp (checkRegistration_ok.mp passed).2).1
      exact keeps.register ⟨a, u, r⟩ room
  | notRegistered refused => exact keeps.quiet rfl
  | @assigned a r =>
      refine Keeps.quiet (keeps.congr (by simp) (by simp) fun b held => ?_) rfl
      rw [assign_getRole]
      split
      · rfl
      · exact held
  | requested => exact Keeps.quiet (keeps.frame (by simp) (by simp) (by simp)) rfl
  | granted off => exact Keeps.quiet (keeps.frame (by simp) (by simp) (by simp)) rfl
  | notGranted on => exact keeps.quiet rfl
  | revoked on => exact Keeps.quiet (keeps.frame (by simp) (by simp) (by simp)) rfl
  | notRevoked off => exact keeps.quiet rfl

/-- **The tables of a run keep its ledger.** -/
theorem keeps_run (calls : List Call) :
    Keeps (contract.run calls).storage (registrations (contract.trace calls)) :=
  contract.history_induct (R := fun c h => Keeps c.storage (registrations h)) keeps_default
    (fun c h call keeps => by
      rw [registrations_concat]
      exact keeps_step (execute_effect c call) keeps call.caller) calls

/-- The ledger of a longer run starts with the ledger of the shorter one. -/
theorem registrations_run_append (calls more : List Call) :
    registrations (contract.trace (calls ++ more)) =
      registrations (contract.trace calls) ++
        registrations (contract.traceFrom (contract.run calls) more) := by
  rw [contract.trace_append, registrations_append]

theorem getUserInfo_run_append (calls more : List Call) (a : AccountId) :
    (contract.run (calls ++ more)).storage.getUserInfo a =
      (lastInfo (registrations (contract.traceFrom (contract.run calls) more)) a).or
        ((contract.run calls).storage.getUserInfo a) := by
  rw [(keeps_run _).info, (keeps_run _).info, registrations_run_append, lastInfo_append]

theorem slots_getElem {s : AccessControl} {l : List Registration} (keeps : Keeps s l) (d : String)
    (i : Fin 2) : (s.slots d)[i] = (filedUnder l d)[i.val]? := by
  rw [keeps.slots]
  match i with
  | 0 => rfl
  | 1 => rfl

/-! ## The registry is its history -/

/-- **Nothing lost, reordered or invented.**  A DNI lists the accounts registered
under it, in call order: at most two, from slot 0 on, and a filled slot is never
written again.  An account's data are those of its last registration. -/
theorem registry_is_its_history (calls : List Call) :
    (∀ d, (contract.run calls).storage.getAccounts d =
        filedUnder (registrations (contract.trace calls)) d) ∧
      (∀ d, ((contract.run calls).storage.getAccounts d).length ≤ 2) ∧
      (∀ d, ((contract.run calls).storage.slots d).first = none →
        ((contract.run calls).storage.slots d).second = none) ∧
      (∀ more d (i : Fin 2) a, ((contract.run calls).storage.slots d)[i] = some a →
        ((contract.run (calls ++ more)).storage.slots d)[i] = some a) ∧
      ∀ a, (contract.run calls).storage.getUserInfo a =
        lastInfo (registrations (contract.trace calls)) a := by
  have keeps := keeps_run calls
  refine ⟨keeps.getAccounts, fun d => ?_, fun d first => ?_, fun more d i a filled => ?_,
    keeps.info⟩
  · rw [keeps.getAccounts]
    exact keeps.atMostTwo d
  · have second := slots_getElem keeps d 1
    have empty : filedUnder (registrations (contract.trace calls)) d = [] := by
      simpa using (slots_getElem keeps d 0).symm.trans first
    rw [empty] at second
    exact second
  · rw [slots_getElem (keeps_run (calls ++ more)), registrations_run_append, filedUnder_append]
    rw [slots_getElem keeps] at filled
    exact List.getElem?_append_left (List.getElem?_eq_some_iff.mp filled).1 ▸ filled

/-! ## A registered account -/

/-- **What becomes of a registered account's data.**  They are never removed, and
replaced only by a later accepted registration of the same account. -/
theorem getUserInfo_stays_until_registered (calls more : List Call) (a : AccountId) (u : UserInfo)
    (registered : (contract.run calls).storage.getUserInfo a = some u) :
    (contract.run (calls ++ more)).storage.getUserInfo a =
        some ((lastInfo (registrations (contract.traceFrom (contract.run calls) more)) a).getD u) ∧
      ((∀ reg ∈ registrations (contract.traceFrom (contract.run calls) more), reg.accountId ≠ a) →
        (contract.run (calls ++ more)).storage.getUserInfo a = some u) := by
  have after : (contract.run (calls ++ more)).storage.getUserInfo a =
      some ((lastInfo (registrations (contract.traceFrom (contract.run calls) more)) a).getD u) := by
    rw [getUserInfo_run_append, registered]
    cases lastInfo (registrations (contract.traceFrom (contract.run calls) more)) a <;> rfl
  refine ⟨after, fun others => ?_⟩
  have none_ : registrationsOf (registrations (contract.traceFrom (contract.run calls) more)) a = [] :=
    List.filter_eq_nil_iff.mpr fun reg member => by simpa using others reg member
  rw [after, lastInfo, none_]
  rfl

theorem getUserInfo_stays_until_registered_alice :
    let calls : List Call := [⟨.from32 9, .addUser (.from32 1) alice 0⟩]
    let more : List Call :=
      [⟨.from32 9, .addUser (.from32 2) alice 1⟩, ⟨.from32 9, .assignRole (.from32 1) 1⟩]
    (contract.run (calls ++ more)).storage.getUserInfo (.from32 1) = some alice :=
  (getUserInfo_stays_until_registered [⟨.from32 9, .addUser (.from32 1) alice 0⟩] _ _ alice
    (by decide)).2 (by decide)

/-- Registering an account a second time replaces its data. -/
theorem registered_data_are_replaced :
    ¬ ∀ calls more a u, (contract.run calls).storage.getUserInfo a = some u →
      (contract.run (calls ++ more)).storage.getUserInfo a = some u := by
  intro claim
  have := claim [⟨.from32 9, .addUser (.from32 1) alice 0⟩]
    [⟨.from32 9, .addUser (.from32 1) bob 0⟩] (.from32 1) alice (by decide)
  exact absurd this (by decide)

/-- The account is in no two slots: not in both of one DNI, not under two DNIs. -/
def AtMostOneSlot (s : AccessControl) (a : AccountId) : Prop :=
  (∀ d, ¬ ((s.slots d).first = some a ∧ (s.slots d).second = some a)) ∧
    ∀ d d', a ∈ s.getAccounts d → a ∈ s.getAccounts d' → d = d'

theorem count_filedUnder (l : List Registration) (d : String) (a : AccountId) :
    (filedUnder l d).count a =
      ((registrationsOf l a).filter fun reg => decide (reg.userInfo.dni = d)).length := by
  rw [filedUnder, List.count_eq_countP, List.countP_map, List.countP_filter,
    List.countP_eq_length_filter, registrationsOf, List.filter_filter]
  congr 1
  refine List.filter_congr fun reg _ => ?_
  rw [Bool.and_comm, ← beq_eq_decide reg.accountId a]
  rfl

theorem two_le_count_iff {l : List AccountId} (short : l.length ≤ 2) (a : AccountId) :
    2 ≤ l.count a ↔ l[0]? = some a ∧ l[1]? = some a := by
  match l, short with
  | [], _ => simp
  | [x], _ =>
      have := List.count_le_length (a := a) (l := [x])
      simp only [List.length_singleton] at this
      simp only [List.getElem?_cons_succ, List.getElem?_nil, reduceCtorEq, and_false, iff_false]
      omega
  | [x, y], _ =>
      by_cases first : x = a <;> by_cases second : y = a <;> simp [first, second]

theorem atMostOneSlot_iff {s : AccessControl} {l : List Registration} (keeps : Keeps s l)
    (a : AccountId) : AtMostOneSlot s a ↔ (registrationsOf l a).length ≤ 1 := by
  have both : ∀ d, ((s.slots d).first = some a ∧ (s.slots d).second = some a) ↔
      2 ≤ ((registrationsOf l a).filter fun reg => decide (reg.userInfo.dni = d)).length := by
    intro d
    rw [← count_filedUnder, two_le_count_iff (keeps.atMostTwo d), keeps.slots]
    rfl
  constructor
  · rintro ⟨notBoth, oneDni⟩
    by_contra more
    match regs : registrationsOf l a with
    | [] => simp [regs] at more
    | [_] => simp [regs] at more
    | x :: y :: rest =>
        -- two registrations under one DNI fill its two slots
        have listed : ∀ reg ∈ registrationsOf l a, a ∈ s.getAccounts reg.userInfo.dni := by
          intro reg member
          rw [keeps.getAccounts, mem_filedUnder]
          exact ⟨reg, member, rfl⟩
        have same := oneDni _ _ (listed x (by simp [regs])) (listed y (by simp [regs]))
        refine notBoth x.userInfo.dni ((both _).mpr ?_)
        simp [regs, same]
  · intro once
    refine ⟨fun d filled => ?_, fun d d' here there => ?_⟩
    · have twice := (both d).mp filled
      have := List.length_filter_le (fun reg => decide (reg.userInfo.dni = d))
        (registrationsOf l a)
      omega
    · rw [keeps.getAccounts, mem_filedUnder] at here there
      obtain ⟨reg, member, rfl⟩ := here
      obtain ⟨reg', member', rfl⟩ := there
      match registrationsOf l a, once, member, member' with
      | [x], _, member, member' =>
          rw [List.mem_singleton.mp member, List.mem_singleton.mp member']

/-- The data of a listed account are those of one of its registrations. -/
theorem lastInfo_of_listed {s : AccessControl} {l : List Registration} (keeps : Keeps s l)
    {d : String} {a : AccountId} (listed : a ∈ s.getAccounts d) :
    ∃ reg ∈ registrationsOf l a, s.getUserInfo a = some reg.userInfo := by
  rw [keeps.getAccounts, mem_filedUnder] at listed
  obtain ⟨reg, member, -⟩ := listed
  have nonempty := List.ne_nil_of_mem member
  refine ⟨_, List.getLast_mem nonempty, ?_⟩
  rw [keeps.info, lastInfo, List.getLast?_eq_some_getLast nonempty]
  rfl

/-- **The DNI index against the user table.**  An account has at most one slot
exactly when it was registered at most once.  A listed account always has data,
and its data name a DNI that lists it; they name every DNI that lists it exactly
when all its registrations were under one DNI. -/
theorem index_agrees_with_registrations (calls : List Call) (a : AccountId) :
    let s := (contract.run calls).storage
    let regs := registrationsOf (registrations (contract.trace calls)) a
    (AtMostOneSlot s a ↔ regs.length ≤ 1) ∧
      (∀ d, a ∈ s.getAccounts d → ∃ u, s.getUserInfo a = some u ∧ a ∈ s.getAccounts u.dni) ∧
      ((∀ d, a ∈ s.getAccounts d → ∃ u, s.getUserInfo a = some u ∧ u.dni = d) ↔
        ∀ reg ∈ regs, ∀ reg' ∈ regs, reg.userInfo.dni = reg'.userInfo.dni) := by
  intro s regs
  have keeps := keeps_run calls
  have listed : ∀ reg ∈ regs, a ∈ s.getAccounts reg.userInfo.dni := by
    intro reg member
    rw [keeps.getAccounts, mem_filedUnder]
    exact ⟨reg, member, rfl⟩
  refine ⟨atMostOneSlot_iff keeps a, fun d here => ?_, fun agree => ?_, fun oneDni d here => ?_⟩
  · obtain ⟨reg, member, info⟩ := lastInfo_of_listed keeps here
    exact ⟨reg.userInfo, info, listed reg member⟩
  · intro reg member reg' member'
    obtain ⟨u, info, dni⟩ := agree _ (listed reg member)
    obtain ⟨u', info', dni'⟩ := agree _ (listed reg' member')
    rw [info] at info'
    cases info'
    exact dni.symm.trans dni'
  · obtain ⟨reg, member, info⟩ := lastInfo_of_listed keeps here
    rw [keeps.getAccounts, mem_filedUnder] at here
    obtain ⟨reg', member', dni⟩ := here
    exact ⟨reg.userInfo, info, (oneDni reg member reg' member').trans dni⟩

/-- One account in both slots of a DNI: registered with each of two roles. -/
theorem index_holds_an_account_twice :
    ¬ ∀ calls a, AtMostOneSlot (contract.run calls).storage a ∧
      ∀ d, a ∈ (contract.run calls).storage.getAccounts d →
        ∃ u, (contract.run calls).storage.getUserInfo a = some u ∧ u.dni = d := by
  intro claim
  have := claim [⟨.from32 9, .addUser (.from32 1) alice 0⟩,
    ⟨.from32 9, .addUser (.from32 1) alice 1⟩] (.from32 1)
  exact this.1.1 "12345678" (by decide)

end PatientAccess.Contract
