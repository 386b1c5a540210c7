/-
# Stress.Modes -- the test modes, as programs that start requests

A test starts numbered requests, one after the other, all at once, or in batches.  It is
a `Run`: the requests it starts and where it waits, and whether it came to its end,
returned before it, or is still drawing.  What it has no say in is in `Inputs`: the file
as each turn finds it, and what is drawn for each.

The answers are no part of this: every call catches what goes wrong with its request, and
a wait is over when there is an answer.
-/
import PatientAccess.Theory.Loops
import PatientAccess.Stress.Accounts
import PatientAccess.Contract.Registration

namespace PatientAccess.Stress

open PatientAccess.Theory PatientAccess.Log PatientAccess.Contract

set_option autoImplicit false

/-! ## Data -/

/-- `parseInt(TOTAL_REQUESTS)` and `SIMULTANEOUS_REQUESTS`. -/
structure Settings where
  totalRequests : Nat
  simultaneousRequests : ℕ+ := 10

/-- What `faker.random` returns: `count` characters of those that are asked for. -/
structure FakeText (count : Nat) (asked : Char → Bool) where
  text : List Char
  length : text.length = count
  chars : ∀ c ∈ text, asked c = true

def isLowerAlphanum (c : Char) : Bool := c.isLower || c.isDigit

/-- What faker draws for one user, in the order of the calls. -/
structure Fake where
  name : FakeText 5 Char.isLower
  lastname : FakeText 6 Char.isLower
  dni : Nat
  dniInRange : 10000000 ≤ dni ∧ dni ≤ 99999999
  email : FakeText 10 isLowerAlphanum
  role : Nat
  roleInRange : role ≤ 1

def field (name : String) (value : Json) : Utf16 × Json := (Utf16.ofText name.toList, value)

/-- `data.name = value`. -/
def assign (name : String) (value : Json) (data : List (Utf16 × Json)) : List (Utf16 × Json) :=
  if (data.lookup (Utf16.ofText name.toList)).isSome then
    data.map fun f => if f.1 = Utf16.ofText name.toList then field name value else f
  else data ++ [field name value]

/-- `${v}`, where `v` may be undefined. -/
def template : Option Json → List Char
  | some v => display v
  | none => "undefined".toList

def generateTestData (fake : Fake) : List (Utf16 × Json) :=
  [field "name" (chars fake.name.text),
    field "lastname" (chars fake.lastname.text),
    field "dni" (chars (digits fake.dni)),
    field "email" (chars (fake.email.text ++ "12@gmail.com".toList)),
    field "role" (.num (.ofNat fake.role))]

/-! ## Requests -/

/-- The query of a `GET`. -/
structure Params where
  groupID : String
  requestNumber : Nat
  totalTransactions : Nat
  testType : String
  deriving DecidableEq

inductive Request where
  | createUserWithDynamicGas (body : Json)
  | getRole (publicAddress : List Char) (params : Params)
  | hasPermission (granter grantee : List Char) (params : Params)

inductive Endpoint where
  | createUserWithDynamicGas
  | getRole
  | hasPermission

/-- A request is started, all that were started are awaited, or there is a pause. -/
inductive Action where
  | request (r : Request)
  | awaitAll
  | pause

/-- Why a test did not come to its end. -/
inductive Halt where
  | returned
  | drawing

abbrev TestRun := Run Action Halt

/-- `uuidv4()`, and for each turn what faker draws, the file that is read and what is drawn
for the accounts; `firstFile` is what is read before the turns. -/
structure Inputs where
  groupID : String
  fakes : Nat → Fake
  firstFile : Option (List Char)
  files : Nat → Option (List Char)
  draws : Nat → List Draw

section Tests

variable (settings : Settings) (mode : String) (inputs : Inputs)

def params (requestNumber : Nat) : Params :=
  ⟨inputs.groupID, requestNumber, settings.totalRequests, mode⟩

/-- The four assignments every test makes to its data. -/
def numbered (requestNumber : Nat) (data : List (Utf16 × Json)) : List (Utf16 × Json) :=
  assign "testType" (text mode) <|
    assign "requestNumber" (.num (.ofNat requestNumber)) <|
      assign "totalTransactions" (.num (.ofNat settings.totalRequests)) <|
        assign "groupID" (text inputs.groupID) data

/-- `axios.post` of `{ ...data, testType: mode }`. -/
def createUserWithDynamicGas (data : List (Utf16 × Json)) : TestRun Unit :=
  .act (.request (.createUserWithDynamicGas (.obj (assign "testType" (text mode) data))))

def getRole (publicAddress : List Char) (requestNumber : Nat) : TestRun Unit :=
  .act (.request (.getRole publicAddress (params settings mode inputs requestNumber)))

def hasPermission (granter grantee : List Char) (requestNumber : Nat) : TestRun Unit :=
  .act (.request (.hasPermission granter grantee (params settings mode inputs requestNumber)))

/-- `generatePermissionTestData()` and `if (!data) return`, in the turn after `turn` others. -/
def permissionTestData (turn : Nat) : TestRun (List Char × List Char) :=
  match generatePermissionTestData (inputs.files turn) (inputs.draws turn) with
  | .null => .stop .returned
  | .drawing => .stop .drawing
  | .pair granter grantee => pure (granter, grantee)

/-! ## The tests -/

/-- A turn of `runSequentialTest`; it hands on `requestNumber`. -/
def sequentialTurn (endpoint : Endpoint) (requestNumber : Nat) : TestRun Nat := do
  let data := generateTestData (inputs.fakes requestNumber)
  let data := numbered settings mode inputs (requestNumber + 1) data
  match endpoint with
  | .createUserWithDynamicGas =>
      createUserWithDynamicGas mode data
      .act .awaitAll
  | .getRole =>
      getRole settings mode inputs (template (property "dni" (.obj data))) (requestNumber + 1)
      .act .awaitAll
  | .hasPermission => pure ()
  pure (requestNumber + 1)

def runSequentialTest (endpoint : Endpoint) : TestRun Unit := do
  let _ ← forLoop settings.totalRequests 1 (fun _ => true)
    (fun _ requestNumber => sequentialTurn settings mode inputs endpoint requestNumber) 0 0
  pure ()

/-- A turn of the concurrent test of `has_permission`, and of `runHasPermissionTest`. -/
def permissionTurn (requestNumber : Nat) : TestRun Nat := do
  let data ← permissionTestData inputs requestNumber
  hasPermission settings mode inputs data.1 data.2 (requestNumber + 1)
  pure (requestNumber + 1)

def concurrentTurn (endpoint : Endpoint) (requestNumber : Nat) : TestRun Nat :=
  match endpoint with
  | .createUserWithDynamicGas => do
      let data := generateTestData (inputs.fakes requestNumber)
      createUserWithDynamicGas mode (numbered settings mode inputs (requestNumber + 1) data)
      pure (requestNumber + 1)
  | .getRole =>
      let accounts := getUserAccountsFromFile (inputs.files requestNumber)
      if nonempty : 0 < accounts.length then
        match inputs.draws requestNumber with
        | [] => .stop .drawing
        | d :: _ => do
            getRole settings mode inputs (pick accounts nonempty d) (requestNumber + 1)
            pure (requestNumber + 1)
      else .stop .returned
  | .hasPermission => permissionTurn settings mode inputs requestNumber

def runConcurrentTest (endpoint : Endpoint) : TestRun Unit := do
  let _ ← forLoop settings.totalRequests 1 (fun _ => true)
    (fun _ requestNumber => concurrentTurn settings mode inputs endpoint requestNumber) 0 0
  .act .awaitAll

/-- A turn of `runBatchTest`: the data is two accounts, whatever the endpoint. -/
def batchTurn (endpoint : Endpoint) (requestNumber : Nat) : TestRun Nat := do
  let data ← permissionTestData inputs requestNumber
  let fields := numbered settings mode inputs (requestNumber + 1)
    [field "granter" (chars data.1), field "grantee" (chars data.2)]
  match endpoint with
  | .createUserWithDynamicGas => createUserWithDynamicGas mode fields
  | .getRole =>
      getRole settings mode inputs (template (property "dni" (.obj fields))) (requestNumber + 1)
  | .hasPermission => hasPermission settings mode inputs data.1 data.2 (requestNumber + 1)
  pure (requestNumber + 1)

/-- A turn whose request is awaited. -/
def awaited (turn : Nat → TestRun Nat) (requestNumber : Nat) : TestRun Nat := do
  let requestNumber ← turn requestNumber
  .act .awaitAll
  pure requestNumber

/-- One batch, from the counter `i` of the outer loop on: the inner loop around `turn`, and
what follows it. -/
def batch (turn : Nat → TestRun Nat) (batchSize : ℕ+) (i requestNumber : Nat) : TestRun Nat := do
  let requestNumber ← forLoop batchSize 1 (fun j => decide (i + j < settings.totalRequests))
    (fun _ requestNumber => turn requestNumber) 0 requestNumber
  .act .awaitAll
  .act .pause
  pure requestNumber

/-- The two nested loops of the batch modes, around the turn that each makes. -/
def inBatches (turn : Nat → TestRun Nat) (batchSize : ℕ+) : TestRun Nat :=
  forLoop settings.totalRequests batchSize (fun _ => true) (batch settings turn batchSize) 0 0

def runBatchTest (batchSize : ℕ+) (endpoint : Endpoint) : TestRun Unit := do
  let _ ← inBatches settings (batchTurn settings mode inputs endpoint) batchSize
  pure ()

def runHasPermissionTest : TestRun Unit :=
  if (getUserAccountsFromFile inputs.firstFile).length < 2 then .stop .returned
  else if mode = "sequential" then do
    let _ ← forLoop settings.totalRequests 1 (fun _ => true)
      (fun _ requestNumber => awaited (permissionTurn settings mode inputs) requestNumber) 0 0
    pure ()
  else if mode = "concurrent" then do
    let _ ← forLoop settings.totalRequests 1 (fun _ => true)
      (fun _ requestNumber => permissionTurn settings mode inputs requestNumber) 0 0
    .act .awaitAll
  else if mode = "batch" then do
    let _ ← inBatches settings (permissionTurn settings mode inputs) settings.simultaneousRequests
    pure ()
  else pure ()

end Tests

end PatientAccess.Stress
