/-
# Stress.Registrations -- which registrations the test modes send

`generateTestData` makes data that the contract accepts, whatever faker draws
(`valid_generateTestData`).  The sequential and the concurrent test send it; the batch
test sends a pair of accounts instead, as it does for every endpoint, so its first
registration is wrong already (`batch_first`).
-/
import PatientAccess.Stress.Modes
import Mathlib.Data.String.Basic

namespace PatientAccess.Stress

open PatientAccess.Theory PatientAccess.Log PatientAccess.Contract

set_option autoImplicit false

/-! ## Objects -/

theorem lookup_map_of_ne {name : String} {value : Json} {key : Utf16}
    (other : key ≠ Utf16.ofText name.toList) (data : List (Utf16 × Json)) :
    (data.map fun f => if f.1 = Utf16.ofText name.toList then field name value else f).lookup key =
      data.lookup key := by
  have miss : (key == Utf16.ofText name.toList) = false := beq_eq_false_iff_ne.mpr other
  induction data with
  | nil => rfl
  | cons f data ih =>
      obtain ⟨k, v⟩ := f
      rw [List.map_cons]
      by_cases here : k = Utf16.ofText name.toList
      · subst here
        simp only [if_pos, field, List.lookup_cons, miss]
        exact ih
      · rw [if_neg here, List.lookup_cons, List.lookup_cons, ih]

/-- An assignment leaves the other properties. -/
theorem property_assign {name other : String} (ne : Utf16.ofText other.toList ≠ Utf16.ofText name.toList)
    (value : Json) (data : List (Utf16 × Json)) :
    property other (.obj (assign name value data)) = property other (.obj data) := by
  have miss : (Utf16.ofText other.toList == Utf16.ofText name.toList) = false :=
    beq_eq_false_iff_ne.mpr ne
  unfold property assign
  dsimp only
  split
  · exact lookup_map_of_ne ne data
  · simp only [List.lookup_append, field, List.lookup_cons, miss, List.lookup_nil, Option.or_none]

/-- What is posted has the properties of the data but for those that are assigned. -/
theorem property_posted {settings : Settings} {mode : String} {inputs : Inputs} {name : String}
    (ne : ∀ assigned ∈ ["groupID", "totalTransactions", "requestNumber", "testType"],
      Utf16.ofText name.toList ≠ Utf16.ofText assigned.toList)
    (n : Nat) (data : List (Utf16 × Json)) :
    property name (.obj (assign "testType" (text mode) (numbered settings mode inputs n data))) =
      property name (.obj data) := by
  simp only [List.forall_mem_cons] at ne
  obtain ⟨group, total, number, test, -⟩ := ne
  rw [numbered, property_assign test, property_assign test, property_assign number,
    property_assign total, property_assign group]

/-! ## Valid registrations -/

/-- The body has data that passes the checks of `add_user`, and a role that there is. -/
def ValidRegistration (body : Json) : Prop :=
  ∃ (u : UserInfo) (role : Nat),
    property "name" body = some (text u.name) ∧
      property "lastname" body = some (text u.lastname) ∧
      property "dni" body = some (text u.dni) ∧
      property "email" body = some (text u.email) ∧
      property "role" body = some (.num (.ofNat role)) ∧
      checkUserInfo u = .ok () ∧ (role = 0 ∨ role = 1)

theorem utf8ByteSize_ofList_ascii {s : List Char} (ascii : ∀ c ∈ s, c.val ≤ 127) :
    (String.ofList s).utf8ByteSize = s.length := by
  rw [String.utf8ByteSize_ofList]
  induction s with
  | nil => rfl
  | cons c s ih =>
      rw [List.forall_mem_cons] at ascii
      rw [String.utf8Len_cons, ih ascii.2, Char.utf8Size_eq_one_iff.mpr ascii.1, List.length_cons]

theorem isLower_ascii {c : Char} (lower : c.isLower = true) : c.val ≤ 127 := by
  have inRange : (c.val ≥ 'a'.val && c.val ≤ 'z'.val) = true := lower
  simp [UInt32.le_iff_toNat_le] at inRange ⊢
  omega

theorem isDigit_ascii {c : Char} (digit : c.isDigit = true) : c.val ≤ 127 := by
  simp [Char.isDigit, UInt32.le_iff_toNat_le] at digit ⊢
  omega

theorem length_digits {n : Nat} (range : 10000000 ≤ n ∧ n ≤ 99999999) : (digits n).length = 8 := by
  have upper : (digits n).length ≤ 8 := (Nat.length_toDigits_le_iff (by decide) (by decide)).mpr (by omega)
  have lower : ¬ (digits n).length ≤ 7 := fun short => by
    have := (Nat.length_toDigits_le_iff (by decide) (by decide)).mp short
    omega
  omega

theorem chars_eq (s : List Char) : chars s = text (String.ofList s) := by
  rw [chars, text, String.toList_ofList]

theorem valid_generateTestData {settings : Settings} {mode : String} {inputs : Inputs} (n : Nat)
    (fake : Fake) :
    ValidRegistration (.obj (assign "testType" (text mode)
      (numbered settings mode inputs n (generateTestData fake)))) := by
  have name := utf8ByteSize_ofList_ascii fun c h => isLower_ascii (fake.name.chars c h)
  have lastname := utf8ByteSize_ofList_ascii fun c h => isLower_ascii (fake.lastname.chars c h)
  have dni : (String.ofList (digits fake.dni)).utf8ByteSize = (digits fake.dni).length :=
    utf8ByteSize_ofList_ascii fun c h =>
      isDigit_ascii (Nat.isDigit_of_mem_toDigits (by decide) (by decide) h)
  refine ⟨⟨.ofList fake.name.text, .ofList fake.lastname.text, .ofList (digits fake.dni),
    .ofList (fake.email.text ++ "12@gmail.com".toList)⟩, fake.role, ?_, ?_, ?_, ?_, ?_, ?_, ?_⟩
  · rw [property_posted (by decide), ← chars_eq]
    rfl
  · rw [property_posted (by decide), ← chars_eq]
    rfl
  · rw [property_posted (by decide), ← chars_eq]
    rfl
  · rw [property_posted (by decide), ← chars_eq]
    rfl
  · rw [property_posted (by decide)]
    rfl
  · rw [checkUserInfo_ok]
    refine ⟨?_, ?_, ?_, ?_⟩
    · rw [name, fake.name.length]
      decide
    · rw [lastname, fake.lastname.length]
      decide
    · rw [dni, length_digits fake.dniInRange]
    · rw [String.toList_ofList]
      exact List.mem_append_right _ (by decide)
  · have range := fake.roleInRange
    omega

/-! ## What the tests send -/

/-- A registration among the actions is valid. -/
def Action.Valid : Action → Prop
  | .request (.createUserWithDynamicGas body) => ValidRegistration body
  | _ => True

/-- All registrations a test sends are valid. -/
def AllValid (run : TestRun Unit) : Prop := ∀ action ∈ run.actions, action.Valid

section Tests

variable (settings : Settings) (mode : String) (inputs : Inputs)

theorem valid_createUser (n : Nat) (fake : Fake) :
    ∀ action ∈ (createUserWithDynamicGas mode
      (numbered settings mode inputs n (generateTestData fake))).actions, action.Valid := by
  intro action member
  rw [createUserWithDynamicGas, Run.act, List.mem_singleton] at member
  subst member
  exact valid_generateTestData n fake

theorem sequential_valid (endpoint : Endpoint) :
    AllValid (runSequentialTest settings mode inputs endpoint) := by
  refine Run.forall_bind (forall_forLoop (fun i n => ?_) 0 0) fun _ => List.forall_mem_nil _
  cases endpoint with
  | createUserWithDynamicGas =>
      refine Run.forall_bind (valid_createUser settings mode inputs _ _) fun _ => ?_
      simp [Action.Valid]
  | getRole => simp [sequentialTurn, getRole, Action.Valid]
  | hasPermission => simp [sequentialTurn]

theorem permissionTestData_actions (turn : Nat) : (permissionTestData inputs turn).actions = [] := by
  unfold permissionTestData
  split <;> rfl

theorem permissionTurn_valid (n : Nat) :
    ∀ action ∈ (permissionTurn settings mode inputs n).actions, action.Valid := by
  refine Run.forall_bind ?_ fun data => ?_
  · rw [permissionTestData_actions]
    exact List.forall_mem_nil _
  · simp [hasPermission, Action.Valid]

theorem concurrent_valid (endpoint : Endpoint) :
    AllValid (runConcurrentTest settings mode inputs endpoint) := by
  refine Run.forall_bind (forall_forLoop (fun i n => ?_) 0 0) fun _ => ?_
  · cases endpoint with
    | createUserWithDynamicGas =>
        exact Run.forall_bind (valid_createUser settings mode inputs _ _) fun _ =>
          List.forall_mem_nil _
    | getRole =>
        unfold concurrentTurn
        dsimp only
        split
        · split <;> simp [getRole, Action.Valid]
        · exact List.forall_mem_nil _
    | hasPermission => exact permissionTurn_valid settings mode inputs n
  · simp [Run.act, Action.Valid]

/-! ### In batches -/

variable {settings mode inputs}

theorem permissionTestData_of_pair {turn : Nat} {granter grantee : List Char}
    (found : generatePermissionTestData (inputs.files turn) (inputs.draws turn) =
      .pair granter grantee) :
    permissionTestData inputs turn = ⟨[], .ok (granter, grantee)⟩ := by
  rw [permissionTestData, found]
  rfl

theorem permissionTestData_of_none {turn : Nat}
    (none : ¬ DrawsPair (inputs.files turn) (inputs.draws turn)) :
    ∃ halt, permissionTestData inputs turn = ⟨[], .error halt⟩ := by
  unfold permissionTestData
  cases result : generatePermissionTestData (inputs.files turn) (inputs.draws turn) with
  | null => exact ⟨.returned, rfl⟩
  | drawing => exact ⟨.drawing, rfl⟩
  | pair granter grantee => exact absurd (generate_pair_iff.mp ⟨granter, grantee, result⟩) none

theorem first_of_pos (some : 0 < settings.totalRequests) (batchSize : ℕ+) :
    0 < (batchSize : Nat) ∧ decide (0 + 0 < settings.totalRequests) = true :=
  ⟨batchSize.pos, by simpa using some⟩

/-- The first turn of the batches is made, if there are requests. -/
theorem mem_inBatches (some : 0 < settings.totalRequests) (batchSize : ℕ+) {turn : Nat → TestRun Nat}
    {action : Action} (done : action ∈ (turn 0).actions) :
    action ∈ (inBatches settings turn batchSize).actions := by
  refine mem_forLoop ⟨some, rfl⟩ (Run.mem_bind_of_mem ?_ _)
  exact mem_forLoop (first_of_pos some batchSize) done

/-- If it stops, there is nothing else. -/
theorem inBatches_of_stop (some : 0 < settings.totalRequests) (batchSize : ℕ+)
    {turn : Nat → TestRun Nat} {halt : Halt} (stops : turn 0 = ⟨[], .error halt⟩) :
    inBatches settings turn batchSize = ⟨[], .error halt⟩ := by
  refine forLoop_of_stop ⟨some, rfl⟩ ?_
  rw [batch, forLoop_of_stop (first_of_pos some batchSize) stops, Run.error_bind]

/-- A pair of accounts is no registration. -/
theorem not_valid_pair (n : Nat) (granter grantee : List Char) :
    ¬ ValidRegistration (.obj (assign "testType" (text mode) (numbered settings mode inputs n
      [field "granter" (chars granter), field "grantee" (chars grantee)]))) := by
  rintro ⟨u, role, name, -⟩
  rw [property_posted (by decide)] at name
  cases name

/-- The first registration of a batch test is wrong, once there is data for it. -/
theorem batch_first (some : 0 < settings.totalRequests) (batchSize : ℕ+)
    (pair : DrawsPair (inputs.files 0) (inputs.draws 0)) :
    ¬ AllValid (runBatchTest settings mode inputs batchSize .createUserWithDynamicGas) := by
  obtain ⟨granter, grantee, found⟩ := generate_pair_iff.mpr pair
  have sent : Action.request (.createUserWithDynamicGas (.obj (assign "testType" (text mode)
      (numbered settings mode inputs 1
        [field "granter" (chars granter), field "grantee" (chars grantee)])))) ∈
      (batchTurn settings mode inputs .createUserWithDynamicGas 0).actions := by
    rw [batchTurn, permissionTestData_of_pair found]
    exact List.mem_singleton_self _
  intro valid
  exact not_valid_pair 1 granter grantee
    (valid _ (Run.mem_bind_of_mem (mem_inBatches some batchSize sent) _))

theorem batch_valid_of_none (batchSize : ℕ+) (endpoint : Endpoint)
    (none : settings.totalRequests = 0 ∨ ¬ DrawsPair (inputs.files 0) (inputs.draws 0)) :
    AllValid (runBatchTest settings mode inputs batchSize endpoint) := by
  refine Run.forall_bind ?_ fun _ => List.forall_mem_nil _
  by_cases some : 0 < settings.totalRequests
  · have noPair := none.resolve_left (Nat.ne_of_gt some)
    obtain ⟨halt, stops⟩ := permissionTestData_of_none noPair
    have turn : batchTurn settings mode inputs endpoint 0 = ⟨[], .error halt⟩ := by
      rw [batchTurn, stops, Run.error_bind]
    rw [inBatches_of_stop some batchSize turn]
    exact List.forall_mem_nil _
  · rw [inBatches, forLoop_of_done (fun more => some more.1)]
    exact List.forall_mem_nil _

end Tests

/-- The modes a test has. -/
inductive TestMode where
  | sequential
  | concurrent
  | batch

/-- The test a mode is for; each hands its `mode` on to the server. -/
def TestMode.run (settings : Settings) (mode : String) (inputs : Inputs) (batchSize : ℕ+)
    (endpoint : Endpoint) : TestMode → TestRun Unit
  | .sequential => runSequentialTest settings mode inputs endpoint
  | .concurrent => runConcurrentTest settings mode inputs endpoint
  | .batch => runBatchTest settings mode inputs batchSize endpoint

/-- **Which modes send valid registrations.**  The sequential and the concurrent test always
do; the batch test does exactly if it sends none: there are no requests, or there is no pair
of accounts for its first. -/
theorem registrations_valid_iff (settings : Settings) (mode : String) (inputs : Inputs)
    (batchSize : ℕ+) (test : TestMode) :
    AllValid (test.run settings mode inputs batchSize .createUserWithDynamicGas) ↔
      test = .sequential ∨ test = .concurrent ∨
        test = .batch ∧
          (settings.totalRequests = 0 ∨ ¬ DrawsPair (inputs.files 0) (inputs.draws 0)) := by
  cases test with
  | sequential => exact iff_of_true (sequential_valid settings mode inputs _) (.inl rfl)
  | concurrent => exact iff_of_true (concurrent_valid settings mode inputs _) (.inr (.inl rfl))
  | batch =>
      constructor
      · intro valid
        refine .inr (.inr ⟨rfl, ?_⟩)
        by_contra some
        rw [not_or, not_not] at some
        exact batch_first (Nat.pos_of_ne_zero some.1) batchSize some.2 valid
      · rintro (other | other | ⟨-, none⟩)
        · cases other
        · cases other
        · exact batch_valid_of_none batchSize _ none

/-- A user as faker may draw it. -/
def someFake : Fake :=
  { name := ⟨"alice".toList, rfl, List.all_eq_true.mp rfl⟩
    lastname := ⟨"miller".toList, rfl, List.all_eq_true.mp rfl⟩
    dni := 12345678
    dniInRange := by decide
    email := ⟨"abcdefgh12".toList, rfl, List.all_eq_true.mp rfl⟩
    role := 0
    roleInRange := by decide }

/-- Two accounts in the file, and one drawn after the other. -/
def twoAccounts : Inputs :=
  { groupID := "9b1d"
    fakes := fun _ => someFake
    firstFile := some "5Grw\n5FHn\n".toList
    files := fun _ => some "5Grw\n5FHn\n".toList
    draws := fun _ => [.ofIndex 0, .ofIndex 1] }

theorem batch_sends_accounts_for_a_user :
    ¬ AllValid (runBatchTest ⟨1, 10⟩ "batch" twoAccounts 10 .createUserWithDynamicGas) := by
  refine batch_first Nat.one_pos 10 (generate_pair_iff.mp ⟨"5Grw".toList, "5FHn".toList, ?_⟩)
  rfl

end PatientAccess.Stress
