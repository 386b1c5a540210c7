/-
# Contract.Permissions -- the two copies of a permission, and who moves it

`grant_permission` and `revoke_permission` write a permission twice, each copy
behind its own guard: the flag of the pair, and the granter's list.

* `PermissionsAgree` is the invariant of the two copies.  It has to say that the
  list has no duplicates, because a revocation removes only the first place found.
* `permissionSwitch` is what a permission is for: a switch that starts off, that
  grants when off and revokes when on.  `pairSwitch` shows the contract to be, for
  every pair of accounts, one such switch next to everything else, so a pair sees
  of a run only its own messages.
* No message reads its caller, so the switch answers to every account.
-/
import PatientAccess.Contract.Messages
import Mathlib.Data.List.Perm.Lattice

namespace PatientAccess.Contract

open PatientAccess.Theory

set_option autoImplicit false

/-! ## The two copies agree -/

structure PermissionsAgree (s : AccessControl) : Prop where
  listed : ∀ g e, e ∈ s.getGrantedPermissions g ↔ s.hasPermission g e = true
  nodup : ∀ g, (s.getGrantedPermissions g).Nodup

theorem permissionsAgree_default : PermissionsAgree .default where
  listed g e := by
    show e ∈ ([] : List AccountId) ↔ false = true
    simp
  nodup g := List.nodup_nil

/-- Agreement only looks at the two permission queries. -/
theorem PermissionsAgree.congr {s t : AccessControl} (agree : PermissionsAgree s)
    (flags : t.hasPermission = s.hasPermission)
    (lists : t.getGrantedPermissions = s.getGrantedPermissions) : PermissionsAgree t where
  listed g e := by rw [flags, lists]; exact agree.listed g e
  nodup g := by rw [lists]; exact agree.nodup g

/-- A permission that is off is not listed. -/
theorem PermissionsAgree.notMem {s : AccessControl} (agree : PermissionsAgree s) {g e : AccountId}
    (off : s.hasPermission g e = false) : e ∉ s.getGrantedPermissions g := by
  rw [agree.listed, off]
  exact Bool.false_ne_true

theorem PermissionsAgree.grant {c : Env} (agree : PermissionsAgree c.storage) {g e : AccountId}
    (off : c.storage.hasPermission g e = false) : PermissionsAgree (c.grant g e).storage := by
  have absent := agree.notMem off
  constructor
  · intro a b
    rw [grant_getGrantedPermissions, grant_hasPermission]
    by_cases here : a = g
    · subst here
      by_cases added : b = e <;> simp [absent, added, agree.listed]
    · simp [here, agree.listed]
  · intro a
    rw [grant_getGrantedPermissions]
    by_cases here : a = g
    · subst here
      rw [if_pos ⟨rfl, absent⟩, ← List.concat_eq_append]
      exact (agree.nodup a).concat absent
    · simpa [here] using agree.nodup a

theorem PermissionsAgree.revoke {c : Env} (agree : PermissionsAgree c.storage)
    (g e : AccountId) : PermissionsAgree (c.revoke g e).storage := by
  constructor
  · intro a b
    rw [revoke_getGrantedPermissions, revoke_hasPermission]
    by_cases here : a = g
    · subst here
      -- the list has no second place of `e`, so erasing the first removes it
      by_cases removed : b = e <;> simp [removed, (agree.nodup a).mem_erase_iff, agree.listed]
    · simp [here, agree.listed]
  · intro a
    rw [revoke_getGrantedPermissions]
    by_cases here : a = g
    · subst here
      simpa using (agree.nodup a).erase e
    · simpa [here] using agree.nodup a

theorem permissionsAgree_step {c c' : Env} {m : Message} {r : Reply} (effect : Effect c m r c')
    (agree : PermissionsAgree c.storage) : PermissionsAgree c'.storage := by
  cases effect with
  | registered passed => exact agree.congr (by simp) (by simp)
  | assigned => exact agree.congr (by simp) (by simp)
  | requested => exact agree.congr (by simp) (by simp)
  | granted off => exact agree.grant off
  | revoked on => exact agree.revoke _ _
  | notRegistered refused => exact agree
  | notGranted on => exact agree
  | notRevoked off => exact agree

theorem permissionsAgree_reachable {c : Env} (reached : contract.Reachable c) :
    PermissionsAgree c.storage :=
  reached.induct (I := fun c => PermissionsAgree c.storage) permissionsAgree_default
    fun c call agree => permissionsAgree_step (execute_effect c call) agree

/-- **One permission, two copies.**  After any run, an account has a permission
exactly when the granter's list has it, and it is there once. -/
theorem hasPermission_iff_listed (calls : List Call) (g e : AccountId) :
    ((contract.run calls).storage.hasPermission g e = true ↔
      e ∈ (contract.run calls).storage.getGrantedPermissions g) ∧
      ((contract.run calls).storage.getGrantedPermissions g).Nodup := by
  have agree := permissionsAgree_reachable (contract.reachable_run calls)
  exact ⟨(agree.listed g e).symm, agree.nodup g⟩

/-! ## A permission is a switch -/

inductive Turn where
  | grant
  | revoke

/-- What a permission is for: off at first, turned on only when off and off only
when on. -/
def permissionSwitch : Machine Bool Turn Reply where
  start := false
  step
    | false, .grant => (.result (.ok ()), true)
    | true, .grant => (.result (.error "Permiso ya concedido"), true)
    | true, .revoke => (.result (.ok ()), false)
    | false, .revoke => (.result (.error "No existe permiso para revocar"), false)

/-- What a message asks of the pair (g, e). -/
def turn? (g e : AccountId) : Message → Option Turn
  | .grantPermission g' e' => if (g', e') = (g, e) then some .grant else none
  | .revokePermission g' e' => if (g', e') = (g, e) then some .revoke else none
  | _ => none

/-- The message is a `grant_permission` or a `revoke_permission` on (g, e). -/
def Message.onPair (m : Message) (g e : AccountId) : Bool := (turn? g e m).isSome

theorem hasPermission_other {c c' : Env} {m : Message} {r : Reply} (effect : Effect c m r c')
    {g e : AccountId} (other : turn? g e m = none) :
    c'.storage.hasPermission g e = c.storage.hasPermission g e := by
  cases effect with
  | @granted g' e' off =>
      have ne : (g, e) ≠ (g', e') := fun same => by simp [turn?, same] at other
      rw [grant_hasPermission, if_neg ne]
  | @revoked g' e' on =>
      have ne : (g, e) ≠ (g', e') := fun same => by simp [turn?, same] at other
      rw [revoke_hasPermission, if_neg ne]
  | _ => rfl

theorem hasPermission_selected {c c' : Env} {m : Message} {r : Reply} (effect : Effect c m r c')
    {g e : AccountId} {t : Turn} (chosen : turn? g e m = some t) :
    r = (permissionSwitch.step (c.storage.hasPermission g e) t).1 ∧
      c'.storage.hasPermission g e = (permissionSwitch.step (c.storage.hasPermission g e) t).2 := by
  cases effect with
  | granted off =>
      simp only [turn?, Option.ite_none_right_eq_some, Prod.mk.injEq, Option.some.injEq] at chosen
      obtain ⟨⟨rfl, rfl⟩, rfl⟩ := chosen
      simp [permissionSwitch, off]
  | notGranted on =>
      simp only [turn?, Option.ite_none_right_eq_some, Prod.mk.injEq, Option.some.injEq] at chosen
      obtain ⟨⟨rfl, rfl⟩, rfl⟩ := chosen
      simp [permissionSwitch, on]
  | revoked on =>
      simp only [turn?, Option.ite_none_right_eq_some, Prod.mk.injEq, Option.some.injEq] at chosen
      obtain ⟨⟨rfl, rfl⟩, rfl⟩ := chosen
      simp [permissionSwitch, on]
  | notRevoked off =>
      simp only [turn?, Option.ite_none_right_eq_some, Prod.mk.injEq, Option.some.injEq] at chosen
      obtain ⟨⟨rfl, rfl⟩, rfl⟩ := chosen
      simp [permissionSwitch, off]
  | _ => simp [turn?] at chosen

/-- The contract, seen by one pair of accounts, is a permission switch. -/
def pairSwitch (g e : AccountId) : contract.Component permissionSwitch where
  view c := c.storage.hasPermission g e
  sel call := turn? g e call.message
  view_start := rfl
  selected c call _ chosen := hasPermission_selected (execute_effect c call) chosen
  other c call other := hasPermission_other (execute_effect c call) other

/-! ## Pairs are independent -/

/-- The messages of a run on the pair (g, e), in order. -/
def pairMessages (g e : AccountId) (calls : List Call) : List Message :=
  (calls.map Call.message).filter fun m => m.onPair g e

/-- What a run returned to its messages on the pair (g, e), in order. -/
def pairReplies (g e : AccountId) (calls : List Call) : List Reply :=
  ((contract.trace calls).filter fun io => io.1.message.onPair g e).map Prod.snd

theorem turn?_of_not_onPair {g e : AccountId} {m : Message} (off : ¬ m.onPair g e = true) :
    turn? g e m = none := by
  simpa [Message.onPair] using off

theorem turn?_of_onPair {g e : AccountId} {m : Message} (on : m.onPair g e = true) :
    ∃ t, turn? g e m = some t :=
  Option.isSome_iff_exists.mp on

theorem turns_eq_filterMap (g e : AccountId) (calls : List Call) :
    calls.filterMap (pairSwitch g e).sel = (pairMessages g e calls).filterMap (turn? g e) := by
  rw [pairMessages, List.filterMap_filter, List.filterMap_map]
  refine List.filterMap_congr fun call _ => ?_
  by_cases on : call.message.onPair g e = true
  · exact (if_pos on).symm
  · exact (turn?_of_not_onPair on).trans (if_neg on).symm

theorem pairReplies_eq_answers (g e : AccountId) (calls : List Call) :
    pairReplies g e calls = (pairSwitch g e).answers (contract.trace calls) := by
  rw [pairReplies, Machine.Component.answers, ← List.filterMap_eq_map, List.filterMap_filter]
  refine List.filterMap_congr fun io _ => ?_
  by_cases on : io.1.message.onPair g e = true
  · obtain ⟨t, chosen⟩ := turn?_of_onPair on
    simp [pairSwitch, on, chosen]
  · simp [pairSwitch, on, turn?_of_not_onPair on]

/-- **Pairs are independent.**  Two runs that send every pair of accounts the same
permission messages in the same order answer them alike, and end with the same
permissions; the granters' lists may differ in order only. -/
theorem runs_agree_of_pairMessages (calls₁ calls₂ : List Call)
    (same : ∀ g e, pairMessages g e calls₁ = pairMessages g e calls₂) :
    (∀ g e, pairReplies g e calls₁ = pairReplies g e calls₂) ∧
      (∀ g e, (contract.run calls₁).storage.hasPermission g e =
        (contract.run calls₂).storage.hasPermission g e) ∧
      ∀ g, ((contract.run calls₁).storage.getGrantedPermissions g).Perm
        ((contract.run calls₂).storage.getGrantedPermissions g) := by
  have turns : ∀ g e, calls₁.filterMap (pairSwitch g e).sel =
      calls₂.filterMap (pairSwitch g e).sel := by
    intro g e
    rw [turns_eq_filterMap, turns_eq_filterMap, same]
  have flags : ∀ g e, (contract.run calls₁).storage.hasPermission g e =
      (contract.run calls₂).storage.hasPermission g e := by
    intro g e
    have left := (pairSwitch g e).view_run calls₁
    rw [turns, ← (pairSwitch g e).view_run calls₂] at left
    exact left
  refine ⟨fun g e => ?_, flags, fun g => ?_⟩
  · rw [pairReplies_eq_answers, pairReplies_eq_answers, (pairSwitch g e).answers_run,
      (pairSwitch g e).answers_run, turns]
  · have agree₁ := permissionsAgree_reachable (contract.reachable_run calls₁)
    have agree₂ := permissionsAgree_reachable (contract.reachable_run calls₂)
    rw [List.perm_ext_iff_of_nodup (agree₁.nodup g) (agree₂.nodup g)]
    intro e
    rw [agree₁.listed, agree₂.listed, flags]

/-- Two granters' messages, put in the two possible orders among each other. -/
theorem runs_agree_of_pairMessages_swapped :
    let calls₁ : List Call :=
      [⟨.from32 9, .grantPermission (.from32 1) (.from32 2)⟩,
        ⟨.from32 9, .grantPermission (.from32 1) (.from32 3)⟩]
    let calls₂ : List Call :=
      [⟨.from32 9, .grantPermission (.from32 1) (.from32 3)⟩,
        ⟨.from32 9, .assignRole (.from32 1) 1⟩,
        ⟨.from32 9, .grantPermission (.from32 1) (.from32 2)⟩]
    ((contract.run calls₁).storage.getGrantedPermissions (.from32 1)).Perm
        ((contract.run calls₂).storage.getGrantedPermissions (.from32 1)) ∧
      (contract.run calls₁).storage.getGrantedPermissions (.from32 1) ≠
        (contract.run calls₂).storage.getGrantedPermissions (.from32 1) := by
  refine ⟨(runs_agree_of_pairMessages _ _ fun g e => ?_).2.2 _, by decide⟩
  by_cases two : (AccountId.from32 1, AccountId.from32 2) = (g, e)
  · obtain ⟨rfl, rfl⟩ := Prod.mk.inj two
    decide
  · by_cases three : (AccountId.from32 1, AccountId.from32 3) = (g, e)
    · obtain ⟨rfl, rfl⟩ := Prod.mk.inj three
      decide
    · have off₂ : Message.onPair (.grantPermission (.from32 1) (.from32 2)) g e = false := by
        simp only [Message.onPair, turn?, if_neg two, Option.isSome_none]
      have off₃ : Message.onPair (.grantPermission (.from32 1) (.from32 3)) g e = false := by
        simp only [Message.onPair, turn?, if_neg three, Option.isSome_none]
      have off : Message.onPair (.assignRole (.from32 1) 1) g e = false := rfl
      simp [pairMessages, List.filter, off₂, off₃, off]

/-! ## Who moves a permission -/

/-- The caller of a message is not read. -/
theorem step_caller (c : Env) (caller caller' : AccountId) (m : Message) :
    contract.step c ⟨caller, m⟩ = contract.step c ⟨caller', m⟩ := rfl

theorem runFrom_callers (calls₁ calls₂ : List Call) (c : Env)
    (same : calls₁.map Call.message = calls₂.map Call.message) :
    contract.runFrom c calls₁ = contract.runFrom c calls₂ ∧
      (contract.traceFrom c calls₁).map Prod.snd = (contract.traceFrom c calls₂).map Prod.snd := by
  induction calls₁ generalizing calls₂ c with
  | nil =>
      cases List.map_eq_nil_iff.mp same.symm
      exact ⟨rfl, rfl⟩
  | cons call₁ calls₁ ih =>
      cases calls₂ with
      | nil => simp at same
      | cons call₂ calls₂ =>
          obtain ⟨caller₁, m⟩ := call₁
          obtain ⟨caller₂, m'⟩ := call₂
          simp only [List.map_cons, List.cons.injEq] at same
          obtain ⟨rfl, rest⟩ := same
          obtain ⟨runs, replies⟩ := ih calls₂ (contract.step c ⟨caller₁, m⟩).2 rest
          rw [step_caller c caller₁ caller₂] at runs replies
          simp only [Machine.runFrom, Machine.traceFrom, List.map_cons, step_caller c caller₁ caller₂,
            runs, replies, and_self]

/-- A step moves a switch only by a turn it accepts. -/
theorem permissionSwitch_moves (on : Bool) (t : Turn)
    (moved : (permissionSwitch.step on t).2 ≠ on) :
    (permissionSwitch.step on t).1 = .result (.ok ()) := by
  cases on <;> cases t <;> first | rfl | exact absurd rfl moved

/-- **Who moves a permission.**  A permission changes only at an accepted message
on its own pair.  Whose message it is plays no part: the same messages sent by
other accounts return the same and leave the same. -/
theorem permission_moves_only_on_pair :
    (∀ calls call g e,
      (contract.run (calls ++ [call])).storage.hasPermission g e ≠
          (contract.run calls).storage.hasPermission g e →
        call.message.onPair g e = true ∧
          (contract.step (contract.run calls) call).1 = .result (.ok ())) ∧
      ∀ calls₁ calls₂ : List Call, calls₁.map Call.message = calls₂.map Call.message →
        contract.run calls₁ = contract.run calls₂ ∧
          (contract.trace calls₁).map Prod.snd = (contract.trace calls₂).map Prod.snd := by
  refine ⟨fun calls call g e moved => ?_, fun calls₁ calls₂ same => runFrom_callers _ _ _ same⟩
  rw [Machine.run_concat] at moved
  have effect := execute_effect (contract.run calls) call
  cases chosen : turn? g e call.message with
  | none => exact absurd (hasPermission_other effect chosen) moved
  | some t =>
      obtain ⟨reply, flag⟩ := hasPermission_selected effect chosen
      rw [flag] at moved
      exact ⟨by rw [Message.onPair, chosen]; rfl,
        reply.trans (permissionSwitch_moves _ _ moved)⟩

/-- A third account gives itself access: the caller is neither granter nor checked. -/
theorem not_only_granter_moves_permission :
    ¬ ∀ calls call g e,
      (contract.run (calls ++ [call])).storage.hasPermission g e ≠
          (contract.run calls).storage.hasPermission g e →
        call.message.onPair g e = true ∧ call.caller = g := by
  intro claim
  have := claim [] ⟨.from32 2, .grantPermission (.from32 1) (.from32 2)⟩ (.from32 1) (.from32 2)
    (by decide)
  exact absurd this.2 (by decide)

/-! ## Granting and revoking undo each other -/

/-- Every query answers `t` as `s`, but for the list of `g`, which is `list`. -/
structure SameAnswersBut (s t : AccessControl) (g : AccountId) (list : List AccountId) : Prop where
  accounts : t.getAccounts = s.getAccounts
  info : t.getUserInfo = s.getUserInfo
  requests : t.getAccessRequests = s.getAccessRequests
  granted : ∀ a, t.getGrantedPermissions a = if a = g then list else s.getGrantedPermissions a
  permission : ∀ a b, t.hasPermission a b = s.hasPermission a b
  role : t.getRole = s.getRole
  exists_ : t.userExists = s.userExists

theorem grantPermission_of_off {c : Env} {g e : AccountId}
    (off : c.storage.hasPermission g e = false) :
    grantPermission c g e = (.ok (), c.grant g e) := by
  have off : c.storage.permissions.getD (g, e) false = false := off
  simp [grantPermission, off]

theorem grantPermission_of_on {c : Env} {g e : AccountId}
    (on : c.storage.hasPermission g e = true) :
    grantPermission c g e = (.error "Permiso ya concedido", c) := by
  have on : c.storage.permissions.getD (g, e) false = true := on
  simp [grantPermission, on]

theorem revokePermission_of_on {c : Env} {g e : AccountId}
    (on : c.storage.hasPermission g e = true) :
    revokePermission c g e = (.ok (), c.revoke g e) := by
  have on : c.storage.permissions.getD (g, e) false = true := on
  simp [revokePermission, on]

theorem revokePermission_of_off {c : Env} {g e : AccountId}
    (off : c.storage.hasPermission g e = false) :
    revokePermission c g e = (.error "No existe permiso para revocar", c) := by
  have off : c.storage.permissions.getD (g, e) false = false := off
  simp [revokePermission, off]

/-- A grant appends to a list without the grantee, and the revocation removes it there. -/
theorem revoke_grant {c : Env} (agree : PermissionsAgree c.storage) {g e : AccountId}
    (off : c.storage.hasPermission g e = false) :
    SameAnswersBut c.storage ((c.grant g e).revoke g e).storage g
      (c.storage.getGrantedPermissions g) where
  accounts := rfl
  info := rfl
  requests := rfl
  granted a := by
    have absent := agree.notMem off
    rw [revoke_getGrantedPermissions, grant_getGrantedPermissions, grant_getGrantedPermissions]
    by_cases here : a = g
    · have appended := List.erase_append_right [e] absent
      simp [here, absent, appended]
    · simp [here]
  permission a b := by
    rw [revoke_hasPermission, grant_hasPermission]
    by_cases pair : (a, b) = (g, e)
    · obtain ⟨rfl, rfl⟩ := Prod.mk.inj pair
      rw [if_pos rfl, off]
    · rw [if_neg pair, if_neg pair]
  role := rfl
  exists_ := rfl

/-- A revocation removes the one place of the grantee, and the grant appends it. -/
theorem grant_revoke {c : Env} (agree : PermissionsAgree c.storage) {g e : AccountId}
    (on : c.storage.hasPermission g e = true) :
    SameAnswersBut c.storage ((c.revoke g e).grant g e).storage g
      ((c.storage.getGrantedPermissions g).erase e ++ [e]) where
  accounts := rfl
  info := rfl
  requests := rfl
  granted a := by
    have removed : e ∉ (c.storage.getGrantedPermissions g).erase e := (agree.nodup g).not_mem_erase
    rw [grant_getGrantedPermissions, revoke_getGrantedPermissions, revoke_getGrantedPermissions]
    by_cases here : a = g
    · simp [here, removed]
    · simp [here]
  permission a b := by
    rw [grant_hasPermission, revoke_hasPermission]
    by_cases pair : (a, b) = (g, e)
    · obtain ⟨rfl, rfl⟩ := Prod.mk.inj pair
      rw [if_pos rfl, on]
    · rw [if_neg pair, if_neg pair]
  role := rfl
  exists_ := rfl

/-- **Granting and revoking undo each other.**  After any run exactly one of the two
succeeds, and the other changes nothing.  A grant revoked leaves every answer as it was; a
revocation granted again moves the grantee to the end of the granter's list. -/
theorem grant_and_revoke_undo (calls : List Call) (g e : AccountId) :
    let c := contract.run calls
    let granted := grantPermission c g e
    let revoked := revokePermission c g e
    (granted.1 = .ok () ∧ (∃ text, revoked.1 = .error text) ∧ revoked.2 = c ∨
        revoked.1 = .ok () ∧ (∃ text, granted.1 = .error text) ∧ granted.2 = c) ∧
      (granted.1 = .ok () →
        (revokePermission granted.2 g e).1 = .ok () ∧
          SameAnswersBut c.storage (revokePermission granted.2 g e).2.storage g
            (c.storage.getGrantedPermissions g)) ∧
      (revoked.1 = .ok () →
        (grantPermission revoked.2 g e).1 = .ok () ∧
          SameAnswersBut c.storage (grantPermission revoked.2 g e).2.storage g
            ((c.storage.getGrantedPermissions g).erase e ++ [e])) := by
  intro c granted revoked
  have agree := permissionsAgree_reachable (contract.reachable_run calls)
  cases held : c.storage.hasPermission g e with
  | false =>
      have grants : granted = (.ok (), c.grant g e) := grantPermission_of_off held
      have refuses : revoked = (.error "No existe permiso para revocar", c) :=
        revokePermission_of_off held
      have on : (c.grant g e).storage.hasPermission g e = true := by
        rw [grant_hasPermission, if_pos rfl]
      refine ⟨.inl ⟨by rw [grants], ⟨_, by rw [refuses]⟩, by rw [refuses]⟩, fun _ => ?_,
        fun succeeded => ?_⟩
      · rw [grants, revokePermission_of_on on]
        exact ⟨rfl, revoke_grant agree held⟩
      · rw [refuses] at succeeded
        cases succeeded
  | true =>
      have refuses : granted = (.error "Permiso ya concedido", c) := grantPermission_of_on held
      have revokes : revoked = (.ok (), c.revoke g e) := revokePermission_of_on held
      have off : (c.revoke g e).storage.hasPermission g e = false := by
        rw [revoke_hasPermission, if_pos rfl]
      refine ⟨.inr ⟨by rw [revokes], ⟨_, by rw [refuses]⟩, by rw [refuses]⟩, fun succeeded => ?_,
        fun _ => ?_⟩
      · rw [refuses] at succeeded
        cases succeeded
      · rw [revokes, grantPermission_of_off off]
        exact ⟨rfl, grant_revoke agree held⟩

end PatientAccess.Contract
