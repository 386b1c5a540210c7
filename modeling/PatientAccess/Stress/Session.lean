/-
# Stress.Session -- a session of the stress test, from the console on

The console asks for an endpoint; with that and the environment `main` runs one test, or
one for each endpoint and mode, one after the other.  A test that returns early does not
keep the next from its turn, but one that keeps drawing does.

What a session sends is what its tests send, in their order (`main_requests`), and each of
them numbers its requests from 1 on, under the one group, total and mode it has
(`numbered_runTest`).  So the server reads it, whether it comes in a body, as numbers, or in
a query, as text (`isRequest_posted`, `isRequest_query`).
-/
import PatientAccess.Stress.Registrations
import PatientAccess.Theory.Numbers
import Mathlib.Data.List.Nodup

namespace PatientAccess.Stress

open PatientAccess.Theory PatientAccess.Log

set_option autoImplicit false

/-! ## The source -/

/-- What the console is answered. -/
inductive Choice where
  | endpoint (e : Endpoint)
  | all

def promptUserForEndpoint (answer : String) : Choice :=
  if answer = "1" then .endpoint .createUserWithDynamicGas
  else if answer = "2" then .endpoint .getRole
  else if answer = "3" then .endpoint .hasPermission
  else if answer = "4" then .all
  else .endpoint .createUserWithDynamicGas

/-- `ALL_TESTS` and `MODE`, which is never empty, and the answer at the console. -/
structure Console where
  allTests : Bool
  mode : String
  modeGiven : mode ≠ ""
  answer : String

/-- `endpoints`. -/
def Choice.list : Choice → List Endpoint
  | .endpoint ep => [ep]
  | .all => [.createUserWithDynamicGas, .getRole, .hasPermission]

/-- `testModes`. -/
def Console.modes (console : Console) : List String :=
  if console.allTests then ["sequential", "concurrent", "batch"] else [console.mode]

/-- A turn of `runGetRoleTest`, which has a list of `total` accounts. -/
def roleTurn (mode : String) (inputs : Inputs) (total : Nat) (accountId : List Char)
    (requestNumber : Nat) : TestRun Nat := do
  .act (.request (.getRole accountId ⟨inputs.groupID, requestNumber + 1, total, mode⟩))
  .act .awaitAll
  pure (requestNumber + 1)

def runGetRoleTest (mode : String) (inputs : Inputs) : TestRun Unit :=
  let accounts := getUserAccountsFromFile inputs.firstFile
  if accounts.length = 0 then .stop .returned
  else do
    let _ ← forOf (roleTurn mode inputs accounts.length) accounts 0
    pure ()

section Main

variable (settings : Settings)

/-- The test of an endpoint in a mode. -/
def runTest (mode : String) (inputs : Inputs) : Endpoint → TestRun Unit
  | .getRole => runGetRoleTest mode inputs
  | .hasPermission => runHasPermissionTest settings mode inputs
  | .createUserWithDynamicGas =>
      if mode = "sequential" then runSequentialTest settings mode inputs .createUserWithDynamicGas
      else if mode = "concurrent" then
        runConcurrentTest settings mode inputs .createUserWithDynamicGas
      else if mode = "batch" then
        runBatchTest settings mode inputs settings.simultaneousRequests .createUserWithDynamicGas
      else pure ()

/-- A test that returned is over as well as one that came to its end. -/
def concluded (test : TestRun Unit) : TestRun Unit :=
  match test.ending with
  | .error .drawing => test
  | _ => ⟨test.actions, .ok ()⟩

/-- The test of the turn after `k` others, and the pause that follows it. -/
def testTurn (inputs : Nat → Inputs) (ep : Endpoint) (mode : String) (k : Nat) : TestRun Nat := do
  concluded (runTest settings mode (inputs k) ep)
  .act .pause
  pure (k + 1)

/-- `main`, with the inputs of each test. -/
def main (console : Console) (inputs : Nat → Inputs) : TestRun Unit :=
  match promptUserForEndpoint console.answer, console.allTests with
  | .endpoint ep, false => concluded (runTest settings console.mode (inputs 0) ep)
  | endpoint, _ => do
      let _ ← forOf (fun ep k =>
        forOf (fun mode k => testTurn settings inputs ep mode k) console.modes k) endpoint.list 0
      pure ()

end Main

/-! ## Requests on their way -/

def Request.endpoint : Request → Endpoint
  | .createUserWithDynamicGas _ => .createUserWithDynamicGas
  | .getRole _ _ => .getRole
  | .hasPermission _ _ _ => .hasPermission

/-- The path that is asked for; the accounts are written into it as they are. -/
def Request.path : Request → List Char
  | .createUserWithDynamicGas _ => "/create_user_with_dynamic_gas".toList
  | .getRole publicAddress _ => "/role/".toList ++ publicAddress
  | .hasPermission granter grantee _ =>
      "/has_permission/".toList ++ granter ++ '/' :: grantee

/-- The `params` that go with it. -/
def Request.params? : Request → Option Params
  | .createUserWithDynamicGas _ => none
  | .getRole _ params | .hasPermission _ _ params => some params

/-- The accounts in the path. -/
def Request.accounts : Request → List (List Char)
  | .createUserWithDynamicGas _ => []
  | .getRole publicAddress _ => [publicAddress]
  | .hasPermission granter grantee _ => [granter, grantee]

/-- The parameters as a query: all of it is text. -/
def Params.query (params : Params) : Json :=
  .obj [field "groupID" (text params.groupID),
    field "requestNumber" (chars (digits params.requestNumber)),
    field "totalTransactions" (chars (digits params.totalTransactions)),
    field "testType" (text params.testType)]

def PlainChar (c : Char) : Prop := c.isAlphanum = true ∨ c = '/' ∨ c = '_'

/-- A path from the root, of letters, digits, slashes and underscores. -/
structure PlainPath (path : List Char) : Prop where
  rooted : path.head? = some '/'
  plain : ∀ c ∈ path, PlainChar c

/-- Letters and digits, as accounts are written. -/
def PlainAccount (account : List Char) : Prop := ∀ c ∈ account, c.isAlphanum = true

/-- How a URL comes to the server: axios adds the parameters to the path that is written, and
Express reads what it receives.  A path with a `?` of its own, say, brings a query of its
own; of plain paths it is known what comes of them. -/
structure Wire where
  /-- `req.originalUrl`. -/
  originalUrl : List Char → Option Params → List Char
  /-- `req.query`. -/
  query : List Char → Option Params → Json
  path_plain : ∀ {path}, PlainPath path → ∀ params,
    (originalUrl path params).takeWhile (· ≠ '?') = path
  query_plain : ∀ {path}, PlainPath path → ∀ params,
    query path params = (params.map Params.query).getD (.obj [])

/-! ## What the server reads of a request -/

namespace Request

def body : Request → Json
  | .createUserWithDynamicGas body => body
  | .getRole _ _ | .hasPermission _ _ _ => .obj []

variable (wire : Wire) (q : Request)

def query : Json := wire.query q.path q.params?

def groupID : Json := firstTruthy [property "groupID" q.body, property "groupID" (q.query wire)]

def requestNumber : Json :=
  firstTruthy [property "requestNumber" (q.query wire), property "requestNumber" q.body]

def totalTransactions : Json :=
  firstTruthy [property "totalTransactions" q.body, property "totalTransactions" (q.query wire)]

def testType : Json := firstTruthy [property "testType" q.body, property "testType" (q.query wire)]

end Request

/-- A number, or its text. -/
def Shows (n : Nat) (v : Json) : Prop := v = .num (.ofNat n) ∨ v = chars (digits n)

/-- A line of a file that a test reads. -/
def Inputs.Reads (inputs : Inputs) (account : List Char) : Prop :=
  account ∈ getUserAccountsFromFile inputs.firstFile ∨
    ∃ k, account ∈ getUserAccountsFromFile (inputs.files k)

/-- The files have accounts of letters and digits. -/
def Inputs.PlainAccounts (inputs : Inputs) : Prop :=
  ∀ account, inputs.Reads account → PlainAccount account

/-- The request `number` of a test, as the server reads it. -/
structure IsRequest (wire : Wire) (ep : Endpoint) (mode : String) (inputs : Inputs)
    (total number : Nat) (q : Request) : Prop where
  endpoint : q.endpoint = ep
  groupID : q.groupID wire = text inputs.groupID
  requestNumber : Shows number (q.requestNumber wire)
  totalTransactions : Shows total (q.totalTransactions wire)
  testType : q.testType wire = text mode
  accounts : ∀ account ∈ q.accounts, inputs.Reads account

/-- Plain accounts make a plain path. -/
theorem plainPath_of_accounts {q : Request} (plain : ∀ account ∈ q.accounts, PlainAccount account) :
    PlainPath q.path := by
  have rooted : q.path.head? = some '/' := by
    cases q with
    | createUserWithDynamicGas body =>
        show "/create_user_with_dynamic_gas".toList.head? = some '/'
        decide
    | getRole publicAddress params => rfl
    | hasPermission granter grantee params => rfl
  have name : ∀ s : List Char, s.all (fun c => c.isAlphanum || c = '/' || c = '_') = true →
      ∀ c ∈ s, PlainChar c := by
    intro s all c member
    have isPlain := List.all_eq_true.mp all c member
    simp only [Bool.or_eq_true, decide_eq_true_eq] at isPlain
    exact or_assoc.mp isPlain
  have written : ∀ account ∈ q.accounts, ∀ c ∈ account, PlainChar c :=
    fun account isAccount c member => .inl (plain account isAccount c member)
  refine ⟨rooted, ?_⟩
  cases q with
  | createUserWithDynamicGas body =>
      exact name "/create_user_with_dynamic_gas".toList (by decide)
  | getRole publicAddress params =>
      exact List.forall_mem_append.mpr
        ⟨name "/role/".toList (by decide), written _ (List.mem_singleton_self _)⟩
  | hasPermission granter grantee params =>
      exact List.forall_mem_append.mpr ⟨List.forall_mem_append.mpr
          ⟨name "/has_permission/".toList (by decide), written _ List.mem_cons_self⟩,
        List.forall_mem_cons.mpr ⟨.inr (.inl rfl),
          written _ (List.mem_cons_of_mem _ (List.mem_singleton_self _))⟩⟩

theorem Shows.display {n : Nat} {v : Json} (shows : Shows n v) : display v = digits n := by
  rcases shows with rfl | rfl
  · rfl
  · exact Utf16.toText_ofText _

theorem lookup_map_self {name : String} (value : Json) {data : List (Utf16 × Json)}
    (present : (data.lookup (Utf16.ofText name.toList)).isSome = true) :
    (data.map fun f => if f.1 = Utf16.ofText name.toList then field name value else f).lookup
      (Utf16.ofText name.toList) = some value := by
  induction data with
  | nil => cases present
  | cons f data ih =>
      obtain ⟨k, v⟩ := f
      rw [List.map_cons]
      by_cases here : k = Utf16.ofText name.toList
      · rw [if_pos here, field, List.lookup_cons_self]
      · have miss : (Utf16.ofText name.toList == k) = false := beq_eq_false_iff_ne.mpr (Ne.symm here)
        rw [List.lookup_cons, miss] at present
        rw [if_neg here, List.lookup_cons, miss]
        exact ih present

/-- What is assigned is there. -/
theorem property_assign_self (name : String) (value : Json) (data : List (Utf16 × Json)) :
    property name (.obj (assign name value data)) = some value := by
  unfold property assign
  dsimp only
  split
  · next present => exact lookup_map_self value present
  · next absent =>
    rw [Option.not_isSome_iff_eq_none] at absent
    rw [List.lookup_append, absent, field, List.lookup_cons_self]
    rfl

theorem truthy_text {s : String} (given : s ≠ "") : truthy (text s) = true := by
  have nonempty : Utf16.ofText s.toList ≠ [] := by
    intro empty
    have same : Utf16.toText (Utf16.ofText s.toList) = [] := by rw [empty]; rfl
    rw [Utf16.toText_ofText] at same
    exact given (String.toList_eq_nil_iff.mp same)
  simpa [truthy, text] using nonempty

theorem display_text (s : String) : display (text s) = s.toList := Utf16.toText_ofText _

/-- A number that is not zero counts as given. -/
theorem truthy_number {n : Nat} (positive : n ≠ 0) : truthy (.num (.ofNat n)) = true := by
  have digit := (Numbers.digits_toDigits n).all
  have whole : (Nat.toDigits 10 n).takeWhile (fun c => c ≠ 'e' && c ≠ 'E') = Nat.toDigits 10 n := by
    rw [List.takeWhile_eq_self_iff]
    intro c member
    have other : ∀ e : Char, e.isDigit = false → c ≠ e := by
      rintro e no rfl
      rw [digit c member] at no
      cases no
    simp [other 'e' (by decide), other 'E' (by decide)]
  have nonzero : isZero (.ofNat n) = false := by
    rw [isZero, Numeral.ofNat]
    dsimp only
    rw [whole, List.all_eq_false]
    by_contra zeros
    push Not at zeros
    have all : Nat.toDigits 10 n = List.replicate (Nat.toDigits 10 n).length '0' := by
      rw [List.eq_replicate_iff]
      refine ⟨rfl, fun c member => ?_⟩
      have isZero := of_decide_eq_true (zeros c member)
      simp only [List.mem_cons, List.not_mem_nil, or_false] at isZero
      rcases isZero with rfl | rfl | rfl
      · exact absurd (digit _ member) (by decide)
      · rfl
      · exact absurd (digit _ member) (by decide)
    have value := Nat.ofDigitChars_ten_toDigits (n := n)
    rw [all, Nat.ofDigitChars_replicate_zero] at value
    exact positive value.symm
  rw [truthy, nonzero]
  rfl

theorem firstTruthy_cons {v : Json} (given : truthy v = true) (vs : List (Option Json)) :
    firstTruthy (some v :: vs) = v := if_pos given

section Requests

variable (wire : Wire) {settings : Settings} {mode : String} {inputs : Inputs} {total number : Nat}

/-- What a query says, where the path is plain. -/
theorem isRequest_query {ep : Endpoint} {q : Request} (endpoint : q.endpoint = ep)
    (body : q.body = .obj []) (params : q.params? = some ⟨inputs.groupID, number, total, mode⟩)
    (group : inputs.groupID ≠ "") (test : mode ≠ "") (plain : inputs.PlainAccounts)
    (accounts : ∀ account ∈ q.accounts, inputs.Reads account) :
    IsRequest wire ep mode inputs total number q := by
  have query : q.query wire = Params.query ⟨inputs.groupID, number, total, mode⟩ := by
    rw [Request.query, params,
      wire.query_plain (plainPath_of_accounts fun account here => plain account (accounts account here))]
    rfl
  have given : ∀ n, truthy (chars (digits n)) = true := by
    intro n
    rw [chars_eq]
    refine truthy_text fun empty => (Numbers.digits_toDigits n).nonempty ?_
    exact String.ofList_eq_empty_iff.mp empty
  have groupID : property "groupID" (q.query wire) = some (text inputs.groupID) := by rw [query]; rfl
  have requestNumber : property "requestNumber" (q.query wire) = some (chars (digits number)) := by
    rw [query]
    rfl
  have totalTransactions : property "totalTransactions" (q.query wire) = some (chars (digits total)) := by
    rw [query]
    rfl
  have testType : property "testType" (q.query wire) = some (text mode) := by rw [query]; rfl
  have absent : ∀ name, property name q.body = none := fun _ => by rw [body]; rfl
  refine ⟨endpoint, ?_, .inr ?_, .inr ?_, ?_, accounts⟩
  · rw [Request.groupID, absent, firstTruthy, groupID, firstTruthy_cons (truthy_text group)]
  · rw [Request.requestNumber, requestNumber, firstTruthy_cons (given number)]
  · rw [Request.totalTransactions, absent, firstTruthy, totalTransactions,
      firstTruthy_cons (given total)]
  · rw [Request.testType, absent, firstTruthy, testType, firstTruthy_cons (truthy_text test)]

/-- What is posted says the same, with numbers for texts. -/
theorem isRequest_posted (group : inputs.groupID ≠ "") (test : mode ≠ "")
    (some : settings.totalRequests ≠ 0) (n : Nat) (data : List (Utf16 × Json)) :
    IsRequest wire .createUserWithDynamicGas mode inputs settings.totalRequests (n + 1)
      (.createUserWithDynamicGas (.obj (assign "testType" (text mode)
        (numbered settings mode inputs (n + 1) data)))) := by
  let body : Json := .obj (assign "testType" (text mode) (numbered settings mode inputs (n + 1) data))
  have testType : property "testType" body = Option.some (text mode) := property_assign_self _ _ _
  have requestNumber : property "requestNumber" body = Option.some (.num (.ofNat (n + 1))) := by
    rw [property_assign (by decide), numbered, property_assign (by decide), property_assign_self]
  have totalTransactions : property "totalTransactions" body =
      Option.some (.num (.ofNat settings.totalRequests)) := by
    rw [property_assign (by decide), numbered, property_assign (by decide),
      property_assign (by decide), property_assign_self]
  have groupID : property "groupID" body = Option.some (text inputs.groupID) := by
    rw [property_assign (by decide), numbered, property_assign (by decide),
      property_assign (by decide), property_assign (by decide), property_assign_self]
  refine ⟨rfl, ?_, .inl ?_, .inl ?_, ?_, List.forall_mem_nil _⟩
  · show firstTruthy [property "groupID" body, _] = _
    rw [groupID, firstTruthy_cons (truthy_text group)]
  · have query : (Request.createUserWithDynamicGas body).query wire = .obj [] :=
      wire.query_plain (plainPath_of_accounts (List.forall_mem_nil _)) none
    rw [Request.requestNumber, query]
    show firstTruthy [none, property "requestNumber" body] = _
    rw [firstTruthy, requestNumber, firstTruthy_cons (truthy_number (Nat.succ_ne_zero n))]
  · show firstTruthy [property "totalTransactions" body, _] = _
    rw [totalTransactions, firstTruthy_cons (truthy_number some)]
  · show firstTruthy [property "testType" body, _] = _
    rw [testType, firstTruthy_cons (truthy_text test)]

end Requests

/-! ## The numbers of a test -/

def Action.request? : Action → Option Request
  | .request q => some q
  | .awaitAll | .pause => none

def requestsOf (actions : List Action) : List Request := actions.filterMap Action.request?

theorem requestsOf_append (ks ks' : List Action) :
    requestsOf (ks ++ ks') = requestsOf ks ++ requestsOf ks' := List.filterMap_append

/-- Each turn starts one request, the next one, and counts it, or stops without. -/
def Counts (IsNext : Nat → Request → Prop) (total : Nat) (turn : Nat → TestRun Nat) : Prop :=
  ∀ n < total, (turn n).Satisfies
    (fun ks m => m = n + 1 ∧ ∃ q, requestsOf ks = [q] ∧ IsNext (n + 1) q)
    fun ks => requestsOf ks = []

/-- The requests so far are those with the numbers from 1 to `n`. -/
def Sent (IsNext : Nat → Request → Prop) (total n : Nat) (ks : List Action) : Prop :=
  n ≤ total ∧ List.Forall₂ IsNext (List.range' 1 n) (requestsOf ks)

/-- The requests have the numbers from 1 on, and all up to `total` if the run ends. -/
def Numbered {α : Type} (IsNext : Nat → Request → Prop) (total : Nat) (run : TestRun α) : Prop :=
  run.Satisfies (fun ks _ => Sent IsNext total total ks) fun ks => ∃ n, Sent IsNext total n ks

section Numbers

variable {IsNext : Nat → Request → Prop} {settings : Settings} {total n : Nat}
  {turn : Nat → TestRun Nat} {ks ks' : List Action}

theorem Sent.nil : Sent IsNext total 0 [] := ⟨Nat.zero_le _, .nil⟩

theorem Sent.next (sent : Sent IsNext total n ks) (inside : n < total)
    (next : ∃ q, requestsOf ks' = [q] ∧ IsNext (n + 1) q) :
    Sent IsNext total (n + 1) (ks ++ ks') := by
  obtain ⟨q, single, isNext⟩ := next
  refine ⟨inside, ?_⟩
  rw [requestsOf_append, single, List.range'_1_concat, Nat.add_comm 1 n]
  exact List.rel_append sent.2 (.cons isNext .nil)

theorem Sent.silent (sent : Sent IsNext total n ks) (none : requestsOf ks' = []) :
    Sent IsNext total n (ks ++ ks') := by
  refine ⟨sent.1, ?_⟩
  rw [requestsOf_append, none, List.append_nil]
  exact sent.2

/-- Something that starts no request may follow. -/
theorem Numbered.before {α β : Type} {run : TestRun α} (numbered : Numbered IsNext total run)
    {next : α → TestRun β} (silent : ∀ a, (next a).Satisfies (fun ks _ => requestsOf ks = []) fun _ => False) :
    Numbered IsNext total (run >>= next) := by
  refine numbered.bind fun ks a all => ?_
  exact (silent a).imp (fun ks' b none => all.silent none) fun _ => False.elim

theorem Counts.awaited (counts : Counts IsNext total turn) : Counts IsNext total (awaited turn) := by
  intro n inside
  refine (counts n inside).bind fun ks m here => ?_
  obtain ⟨counted, q, single, isNext⟩ := here
  refine ⟨counted, q, ?_, isNext⟩
  show requestsOf (ks ++ [.awaitAll]) = [q]
  rw [requestsOf_append, single]
  rfl

/-- A turn with the counter in step. -/
theorem Counts.sends (counts : Counts IsNext total turn) (inside : n < total)
    (sent : Sent IsNext total n ks) :
    (turn n).Satisfies (fun ks' m => m = n + 1 ∧ Sent IsNext total (n + 1) (ks ++ ks'))
      fun ks' => ∃ n, Sent IsNext total n (ks ++ ks') := by
  refine (counts n inside).imp (fun ks' m next => ?_) fun ks' none => ⟨n, sent.silent none⟩
  exact ⟨next.1, sent.next inside next.2⟩

/-- One turn after the other. -/
theorem numbered_forLoop (counts : Counts IsNext total turn) :
    Numbered IsNext total
      (forLoop total 1 (fun _ => true) (fun _ requestNumber => turn requestNumber) 0 0) := by
  have loop : (forLoop total 1 (fun _ => true) (fun _ requestNumber => turn requestNumber) 0 0).Satisfies
      _ _ :=
    forLoop_invariant (fun i n ks => n = i ∧ Sent IsNext total i ks) (fun ks => ∃ n, Sent IsNext total n ks)
      (fun i n ks more here => ?_) [] ⟨rfl, .nil⟩
  · refine loop.imp (fun ks n done => ?_) fun ks stopped => stopped
    obtain ⟨i, last, -, sent⟩ := done
    have all : i = total := by
      have below := sent.1
      simp only [and_true, not_lt] at last
      omega
    exact all ▸ sent
  · obtain ⟨rfl, sent⟩ := here
    exact counts.sends more.1 sent

/-- One batch, from the request after the first `i` on. -/
theorem batch_sends {batchSize : ℕ+} (counts : Counts IsNext settings.totalRequests turn) {i : Nat}
    (sent : Sent IsNext settings.totalRequests i ks) :
    (batch settings turn batchSize i i).Satisfies
      (fun ks' m => m = min (i + batchSize) settings.totalRequests ∧
        Sent IsNext settings.totalRequests m (ks ++ ks'))
      fun ks' => ∃ n, Sent IsNext settings.totalRequests n (ks ++ ks') := by
  have loop : (forLoop batchSize 1 (fun j => decide (i + j < settings.totalRequests))
      (fun _ requestNumber => turn requestNumber) 0 i).Satisfies _ _ :=
    forLoop_invariant
      (fun j n ks => n = i + j ∧ j ≤ batchSize ∧ Sent IsNext settings.totalRequests n ks)
      (fun ks => ∃ n, Sent IsNext settings.totalRequests n ks) (fun j n ks more here => ?_) ks
      ⟨rfl, Nat.zero_le _, sent⟩
  · refine loop.bind fun ks' n done => ?_
    obtain ⟨j, last, here, inside, sent'⟩ := done
    have exact : n = min (i + batchSize) settings.totalRequests := by
      have below := sent'.1
      simp only [decide_eq_true_eq, not_and, not_lt] at last
      omega
    refine ⟨exact, ?_⟩
    show Sent IsNext settings.totalRequests n (ks ++ (ks' ++ [.awaitAll, .pause]))
    rw [← List.append_assoc]
    exact sent'.silent rfl
  · obtain ⟨rfl, inside, sent'⟩ := here
    refine (counts.sends (of_decide_eq_true more.2) sent').imp (fun ks' m next => ?_) fun _ stopped => stopped
    exact ⟨next.1, more.1, next.1 ▸ next.2⟩

theorem numbered_inBatches (batchSize : ℕ+) (counts : Counts IsNext settings.totalRequests turn) :
    Numbered IsNext settings.totalRequests (inBatches settings turn batchSize) := by
  have loop : (inBatches settings turn batchSize).Satisfies _ _ :=
    forLoop_invariant
      (fun i n ks => n = min i settings.totalRequests ∧ Sent IsNext settings.totalRequests n ks)
      (fun ks => ∃ n, Sent IsNext settings.totalRequests n ks) (fun i n ks more here => ?_) []
      ⟨(Nat.zero_min _).symm, .nil⟩
  · refine loop.imp (fun ks n done => ?_) fun ks stopped => stopped
    obtain ⟨i, last, here, sent⟩ := done
    have all : n = settings.totalRequests := by
      simp only [and_true, not_lt] at last
      omega
    exact all ▸ sent
  · obtain ⟨here, sent⟩ := here
    rw [Nat.min_eq_left (Nat.le_of_lt more.1)] at here
    subst here
    exact batch_sends counts sent

end Numbers

/-! ## The tests -/

/-- How many requests a test starts if nothing stops it. -/
def planned (settings : Settings) (mode : String) (inputs : Inputs) : Endpoint → Nat
  | .getRole => (getUserAccountsFromFile inputs.firstFile).length
  | .createUserWithDynamicGas | .hasPermission =>
      if mode = "sequential" ∨ mode = "concurrent" ∨ mode = "batch" then settings.totalRequests else 0

section Tests

variable (wire : Wire) {settings : Settings} {mode : String} {inputs : Inputs}
  (group : inputs.groupID ≠ "") (test : mode ≠ "") (plain : inputs.PlainAccounts)
include group test

theorem counts_sequential :
    Counts (IsRequest wire .createUserWithDynamicGas mode inputs settings.totalRequests)
      settings.totalRequests (sequentialTurn settings mode inputs .createUserWithDynamicGas) :=
  fun n inside => ⟨rfl, _, rfl, isRequest_posted wire group test (by omega) n _⟩

theorem counts_concurrent :
    Counts (IsRequest wire .createUserWithDynamicGas mode inputs settings.totalRequests)
      settings.totalRequests (concurrentTurn settings mode inputs .createUserWithDynamicGas) :=
  fun n inside => ⟨rfl, _, rfl, isRequest_posted wire group test (by omega) n _⟩

omit group test in
/-- Two accounts are found without a request, and are lines of a file. -/
theorem permissionTestData_satisfies (inputs : Inputs) (n : Nat) :
    (permissionTestData inputs n).Satisfies
      (fun ks data => ks = [] ∧ inputs.Reads data.1 ∧ inputs.Reads data.2) fun ks => ks = [] := by
  unfold permissionTestData
  split
  · rfl
  · rfl
  · next granter grantee found =>
    obtain ⟨-, listed, listed'⟩ := generate_spec found
    exact ⟨rfl, .inr ⟨n, listed⟩, .inr ⟨n, listed'⟩⟩

include plain in
theorem counts_permission :
    Counts (IsRequest wire .hasPermission mode inputs settings.totalRequests) settings.totalRequests
      (permissionTurn settings mode inputs) := by
  intro n inside
  have found := permissionTestData_satisfies inputs n
  refine (found.imp (fun ks _ here => here) fun ks none => congrArg requestsOf none).bind ?_
  rintro ks data ⟨rfl, listed, listed'⟩
  refine ⟨rfl, _, rfl, isRequest_query wire rfl rfl rfl group test plain ?_⟩
  intro account member
  rcases List.mem_cons.mp member with rfl | last
  · exact listed
  · rw [List.mem_singleton.mp last]
    exact listed'

theorem counts_batch :
    Counts (IsRequest wire .createUserWithDynamicGas mode inputs settings.totalRequests)
      settings.totalRequests (batchTurn settings mode inputs .createUserWithDynamicGas) := by
  intro n inside
  have found := permissionTestData_satisfies inputs n
  refine (found.imp (fun ks _ here => here) fun ks none => congrArg requestsOf none).bind ?_
  rintro ks data ⟨rfl, -, -⟩
  exact ⟨rfl, _, rfl, isRequest_posted wire group test (by omega) n _⟩

include plain in
theorem numbered_getRole :
    Numbered (IsRequest wire .getRole mode inputs (getUserAccountsFromFile inputs.firstFile).length)
      (getUserAccountsFromFile inputs.firstFile).length (runGetRoleTest mode inputs) := by
  have lines : ∀ account ∈ getUserAccountsFromFile inputs.firstFile, inputs.Reads account :=
    fun account => .inl
  unfold runGetRoleTest
  generalize getUserAccountsFromFile inputs.firstFile = accounts at lines ⊢
  dsimp only
  split
  · exact ⟨0, .nil⟩
  · refine Numbered.before ?_ fun _ => rfl
    have loop : (forOf (roleTurn mode inputs accounts.length) accounts 0).Satisfies _ _ :=
      forOf_invariant
        (fun rest n ks => n + rest.length = accounts.length ∧ rest ⊆ accounts ∧
          Sent (IsRequest wire .getRole mode inputs accounts.length) accounts.length n ks)
        (fun ks => ∃ n, Sent (IsRequest wire .getRole mode inputs accounts.length) accounts.length n ks)
        (fun account rest n ks here => ?_) [] ⟨Nat.zero_add _, List.Subset.refl _, .nil⟩
    · exact loop.imp (fun ks n done => done.1 ▸ done.2.2) fun ks stopped => stopped
    · obtain ⟨left, listed, sent⟩ := here
      rw [List.length_cons] at left
      rw [List.cons_subset] at listed
      refine ⟨by omega, listed.2, sent.next (by omega) ⟨_, rfl, ?_⟩⟩
      refine isRequest_query wire rfl rfl rfl group test plain fun account' member => ?_
      rw [List.mem_singleton.mp member]
      exact lines account listed.1

omit group test in
/-- A test with three modes; in another it starts nothing. -/
theorem numbered_modes {IsNext : Nat → Nat → Request → Prop} {n : Nat}
    {sequential concurrent batch : TestRun Unit} (isSequential : Numbered (IsNext n) n sequential)
    (isConcurrent : Numbered (IsNext n) n concurrent) (isBatch : Numbered (IsNext n) n batch) {total : Nat}
    (isTotal : total = if mode = "sequential" ∨ mode = "concurrent" ∨ mode = "batch" then n else 0) :
    Numbered (IsNext total) total
      (if mode = "sequential" then sequential else if mode = "concurrent" then concurrent
        else if mode = "batch" then batch else pure ()) := by
  by_cases first : mode = "sequential"
  · rw [if_pos (.inl first)] at isTotal
    rw [if_pos first, isTotal]
    exact isSequential
  rw [if_neg first]
  by_cases second : mode = "concurrent"
  · rw [if_pos (.inr (.inl second))] at isTotal
    rw [if_pos second, isTotal]
    exact isConcurrent
  rw [if_neg second]
  by_cases third : mode = "batch"
  · rw [if_pos (.inr (.inr third))] at isTotal
    rw [if_pos third, isTotal]
    exact isBatch
  · rw [if_neg (by simp [first, second, third])] at isTotal
    rw [if_neg third, isTotal]
    exact .nil

include plain in
/-- **A test numbers its requests from 1 on**, under its group, total and mode; one that comes
to its end has started all that were planned. -/
theorem numbered_runTest (ep : Endpoint) :
    Numbered (IsRequest wire ep mode inputs (planned settings mode inputs ep))
      (planned settings mode inputs ep) (runTest settings mode inputs ep) := by
  cases ep with
  | getRole => exact numbered_getRole wire group test plain
  | createUserWithDynamicGas =>
      refine numbered_modes ?_ ?_ ?_ rfl
      · exact (numbered_forLoop (counts_sequential wire group test)).before fun _ => rfl
      · exact (numbered_forLoop (counts_concurrent wire group test)).before fun _ => rfl
      · exact (numbered_inBatches _ (counts_batch wire group test)).before fun _ => rfl
  | hasPermission =>
      unfold runTest runHasPermissionTest
      dsimp only
      split
      · exact ⟨0, .nil⟩
      · refine numbered_modes ?_ ?_ ?_ rfl
        · exact (numbered_forLoop (counts_permission wire group test plain).awaited).before fun _ => rfl
        · exact (numbered_forLoop (counts_permission wire group test plain)).before fun _ => rfl
        · exact (numbered_inBatches _ (counts_permission wire group test plain)).before fun _ => rfl

end Tests

/-! ## The session -/

/-- The tests of a session, in their order. -/
def Console.tests (console : Console) : List (Endpoint × String) :=
  (promptUserForEndpoint console.answer).list.flatMap fun ep =>
    console.modes.map fun mode => (ep, mode)

section Session

variable (settings : Settings) (inputs : Nat → Inputs)

/-- The test at a place in the session. -/
def testAt (t : (Endpoint × String) × Nat) : TestRun Unit :=
  runTest settings t.1.2 (inputs t.2) t.1.1

/-- The requests of the first `m` tests. -/
def requestsOfTests (tests : List (Endpoint × String)) (m : Nat) : List Request :=
  (tests.zipIdx.take m).flatMap fun t => requestsOf (testAt settings inputs t).actions

theorem concluded_satisfies (test : TestRun Unit) :
    (concluded test).Satisfies (fun ks _ => ks = test.actions) fun ks => ks = test.actions := by
  unfold concluded
  split
  · next drawing => simp [Run.Satisfies, drawing]
  · rfl

theorem requestsOfTests_succ (done rest : List (Endpoint × String)) (test : Endpoint × String) :
    requestsOfTests settings inputs (done ++ test :: rest) (done.length + 1) =
      requestsOfTests settings inputs (done ++ test :: rest) done.length ++
        requestsOf (testAt settings inputs (test, done.length)).actions := by
  have here : (done ++ test :: rest).zipIdx[done.length]? = some (test, done.length) := by
    simp
  rw [requestsOfTests, requestsOfTests, List.take_add_one, here, List.flatMap_append]
  simp

/-- The tests one after the other. -/
theorem loop_requests (tests : List (Endpoint × String)) :
    (forOf (fun t k => testTurn settings inputs t.1 t.2 k) tests 0).Satisfies
      (fun ks _ => requestsOf ks = requestsOfTests settings inputs tests tests.length)
      fun ks => ∃ m ≤ tests.length, requestsOf ks = requestsOfTests settings inputs tests m := by
  have loop : (forOf (fun t k => testTurn settings inputs t.1 t.2 k) tests 0).Satisfies _ _ :=
    forOf_invariant
      (fun rest k ks => ∃ done, tests = done ++ rest ∧ k = done.length ∧
        requestsOf ks = requestsOfTests settings inputs tests k)
      (fun ks => ∃ m ≤ tests.length, requestsOf ks = requestsOfTests settings inputs tests m)
      (fun test rest k ks here => ?_) [] ⟨[], rfl, rfl, rfl⟩
  · refine loop.imp (fun ks k done => ?_) fun ks stopped => stopped
    obtain ⟨all, whole, here, requests⟩ := done
    rw [List.append_nil] at whole
    rw [whole, ← here, ← whole]
    exact requests
  · obtain ⟨done, whole, rfl, requests⟩ := here
    have next := requestsOfTests_succ settings inputs done rest test
    rw [← whole] at next
    have all : requestsOf (ks ++ (testAt settings inputs (test, done.length)).actions) =
        requestsOfTests settings inputs tests (done.length + 1) := by
      rw [requestsOf_append, requests, next]
    have inside : done.length + 1 ≤ tests.length := by
      rw [whole, List.length_append, List.length_cons]
      omega
    refine (concluded_satisfies _).imp (fun ks' _ same => same) (fun ks' same => ?_) |>.bind ?_
    · exact ⟨done.length + 1, inside, same ▸ all⟩
    · rintro ks' - rfl
      refine ⟨done ++ [test], by rw [whole, List.append_assoc]; rfl, by simp, ?_⟩
      show requestsOf (ks ++ ((testAt settings inputs (test, done.length)).actions ++ [.pause])) =
        requestsOfTests settings inputs tests (done.length + 1)
      rw [← List.append_assoc, requestsOf_append, all]
      exact List.append_nil _

/-- **A session sends what its tests send**, one after the other, and comes to its end
unless a test keeps drawing. -/
theorem main_requests (console : Console) :
    (main settings console inputs).Satisfies
      (fun ks _ => requestsOf ks = requestsOfTests settings inputs console.tests console.tests.length)
      fun ks => ∃ m ≤ console.tests.length,
        requestsOf ks = requestsOfTests settings inputs console.tests m := by
  have nested : ∀ endpoint : Choice,
      forOf (fun ep k => forOf (fun mode k => testTurn settings inputs ep mode k) console.modes k)
        endpoint.list 0 =
      forOf (fun t k => testTurn settings inputs t.1 t.2 k)
        (endpoint.list.flatMap fun ep => console.modes.map fun mode => (ep, mode)) 0 := by
    intro endpoint
    rw [forOf_flatMap]
    simp only [forOf_map]
  unfold main
  split
  · next ep answer single =>
    have one : console.tests = [(ep, console.mode)] := by
      simp [Console.tests, Console.modes, answer, single, Choice.list]
    have first : requestsOfTests settings inputs console.tests 1 =
        requestsOf (runTest settings console.mode (inputs 0) ep).actions := by
      simp [one, requestsOfTests, testAt]
    have length : console.tests.length = 1 := by rw [one]; rfl
    rw [length]
    refine (concluded_satisfies _).imp (fun ks _ same => ?_) fun ks same => ⟨1, le_rfl, ?_⟩
    · rw [same, first]
    · rw [same, first]
  · next endpoint allTests =>
    rw [nested]
    exact (loop_requests settings inputs console.tests).bind fun ks _ all => by
      show requestsOf (ks ++ []) = _
      rw [List.append_nil, all]

theorem exists_requests (console : Console) :
    ∃ m, requestsOf (main settings console inputs).actions =
      requestsOfTests settings inputs console.tests m := by
  have requests := main_requests settings inputs console
  unfold Run.Satisfies at requests
  split at requests
  · exact ⟨_, requests⟩
  · obtain ⟨m, -, some⟩ := requests
    exact ⟨m, some⟩

/-! ### The numbers of a session -/

/-- The request `number` of the test at a place in the session. -/
def IsRequestOf (wire : Wire) (t : (Endpoint × String) × Nat) : Nat → Request → Prop :=
  IsRequest wire t.1.1 t.1.2 (inputs t.2) (planned settings t.1.2 (inputs t.2) t.1.1)

/-- Every test of a session has a mode. -/
theorem mode_of_mem_tests {console : Console} {test : Endpoint × String} (member : test ∈ console.tests) :
    test.2 ∈ console.modes ∧ test.2 ≠ "" := by
  obtain ⟨ep, -, inModes⟩ := List.mem_flatMap.mp member
  obtain ⟨mode, isMode, rfl⟩ := List.mem_map.mp inModes
  refine ⟨isMode, ?_⟩
  unfold Console.modes at isMode
  split at isMode
  · rintro rfl
    simp at isMode
  · rw [List.mem_singleton.mp isMode]
    exact console.modeGiven

theorem nodup_tests (console : Console) : console.tests.Nodup := by
  have endpoints : (promptUserForEndpoint console.answer).list.Nodup := by
    cases promptUserForEndpoint console.answer with
    | endpoint ep => exact List.nodup_singleton _
    | all => simp [Choice.list]
  have modes : console.modes.Nodup := by
    unfold Console.modes
    split
    · decide
    · exact List.nodup_singleton _
  exact endpoints.product modes

variable {inputs} (wire : Wire) (console : Console) (groups : ∀ k, (inputs k).groupID ≠ "")
  (plain : ∀ k, (inputs k).PlainAccounts)
include groups plain

theorem numbered_testAt {t : (Endpoint × String) × Nat} (member : t ∈ console.tests.zipIdx) :
    Numbered (IsRequestOf settings inputs wire t) (planned settings t.1.2 (inputs t.2) t.1.1)
      (testAt settings inputs t) :=
  numbered_runTest wire (groups t.2) (mode_of_mem_tests (List.fst_mem_of_mem_zipIdx member)).2
    (plain t.2) t.1.1

/-- How many requests each test of a session sends. -/
theorem exists_counts :
    ∃ counts : (Endpoint × String) × Nat → Nat, ∀ t ∈ console.tests.zipIdx,
      Sent (IsRequestOf settings inputs wire t) (planned settings t.1.2 (inputs t.2) t.1.1) (counts t)
        (testAt settings inputs t).actions := by
  have each : ∀ t, ∃ n, t ∈ console.tests.zipIdx →
      Sent (IsRequestOf settings inputs wire t) (planned settings t.1.2 (inputs t.2) t.1.1) n
        (testAt settings inputs t).actions := by
    intro t
    by_cases member : t ∈ console.tests.zipIdx
    · have numbered := numbered_testAt settings wire console groups plain member
      unfold Numbered Run.Satisfies at numbered
      split at numbered
      · exact ⟨_, fun _ => numbered⟩
      · exact numbered.imp fun n sent _ => sent
    · exact ⟨0, fun here => absurd here member⟩
  choose counts sent using each
  exact ⟨counts, fun t member => sent t member⟩

/-- A request of a session is one of a test, with its number. -/
theorem exists_of_mem_requests {m : Nat} {q : Request}
    (member : q ∈ requestsOfTests settings inputs console.tests m) :
    ∃ t ∈ console.tests.zipIdx, ∃ n, 1 ≤ n ∧ n ≤ planned settings t.1.2 (inputs t.2) t.1.1 ∧
      IsRequestOf settings inputs wire t n q := by
  obtain ⟨counts, sent⟩ := exists_counts settings wire console groups plain
  obtain ⟨t, inTests, isSent⟩ := List.mem_flatMap.mp member
  have test := List.mem_of_mem_take inTests
  obtain ⟨few, numbers⟩ := sent t test
  obtain ⟨i, inside, rfl⟩ := List.getElem_of_mem isSent
  have length := numbers.length_eq
  rw [List.length_range'] at length
  have isRequest := (List.forall₂_iff_get.mp numbers).2 i (by rwa [List.length_range', length]) inside
  refine ⟨t, test, 1 + i, by omega, by omega, ?_⟩
  simpa using isRequest

/-- What is read of the requests of a session, if it depends on their test and number alone. -/
theorem exists_map_requests {κ : Type*} (m : Nat) (f : Request → κ)
    (key : (Endpoint × String) × Nat → Nat → κ)
    (reads : ∀ t ∈ console.tests.zipIdx, ∀ n q, IsRequestOf settings inputs wire t n q → f q = key t n) :
    ∃ counts : (Endpoint × String) × Nat → Nat,
      (requestsOfTests settings inputs console.tests m).map f =
        (console.tests.zipIdx.take m).flatMap fun t => (List.range' 1 (counts t)).map (key t) := by
  obtain ⟨counts, sent⟩ := exists_counts settings wire console groups plain
  refine ⟨counts, ?_⟩
  rw [requestsOfTests, List.map_flatMap]
  refine List.flatMap_congr fun t member => ?_
  have inTests := List.mem_of_mem_take member
  have same := (sent t inTests).2.imp fun n q isRequest => (reads t inTests n q isRequest).symm
  exact (List.forall₂_eq_eq_eq ▸ List.forall₂_map_left_iff.mpr (List.forall₂_map_right_iff.mpr same)).symm

end Session

/-- Lists of numbers with different keys make up a list without repetition. -/
theorem nodup_numbered {τ κ : Type*} {ts : List τ} (nodup : ts.Nodup) (counts : τ → Nat)
    {key : τ → Nat → κ} (apart : ∀ t ∈ ts, ∀ t' ∈ ts, ∀ n n', key t n = key t' n' → t = t' ∧ n = n') :
    (ts.flatMap fun t => (List.range' 1 (counts t)).map (key t)).Nodup := by
  refine List.nodup_flatMap.mpr ⟨fun t member => ?_, ?_⟩
  · refine List.Nodup.map (fun n n' same => ?_) List.nodup_range'
    exact (apart t member t member n n' same).2
  · refine nodup.pairwise_of_forall_ne fun t member t' member' other => ?_
    refine List.disjoint_left.mpr fun k inOne inOther => ?_
    obtain ⟨n, -, rfl⟩ := List.mem_map.mp inOne
    obtain ⟨n', -, same⟩ := List.mem_map.mp inOther
    exact other (apart t member t' member' n n' same.symm).1

theorem digits_injective : Function.Injective digits := by
  intro n n' same
  have value := congrArg (Nat.ofDigitChars 10 · 0) same
  simpa only [digits, Nat.ofDigitChars_ten_toDigits] using value

theorem nodup_zipIdx {τ : Type*} (ts : List τ) : ts.zipIdx.Nodup := by
  refine List.Nodup.of_map Prod.snd ?_
  rw [List.zipIdx_map_snd]
  exact List.nodup_range'

section Numbers

variable (settings : Settings) {inputs : Nat → Inputs} (wire : Wire) (console : Console)
  (groups : ∀ k, (inputs k).groupID ≠ "") (plain : ∀ k, (inputs k).PlainAccounts)
include groups plain

/-- **No request is sent twice.**  If the tests of a session have different groups, and the
files plain accounts, no two of its requests show the server the same group and number. -/
theorem session_pairs_apart
    (apart : ∀ i < console.tests.length, ∀ j < console.tests.length,
      (inputs i).groupID = (inputs j).groupID → i = j) :
    ((requestsOf (main settings console inputs).actions).map fun q =>
      (display (q.groupID wire), display (q.requestNumber wire))).Nodup := by
  obtain ⟨m, requests⟩ := exists_requests settings inputs console
  obtain ⟨counts, keys⟩ := exists_map_requests settings wire console groups plain m
    (fun q => (display (q.groupID wire), display (q.requestNumber wire)))
    (fun t n => ((inputs t.2).groupID.toList, digits n)) fun t _ n q isRequest => by
      rw [isRequest.groupID, isRequest.requestNumber.display, display_text]
  rw [requests, keys]
  refine nodup_numbered ((nodup_zipIdx _).sublist (List.take_sublist _ _)) counts ?_
  intro t member t' member' n n' same
  have isTest := List.mem_zipIdx_iff_getElem?.mp (List.mem_of_mem_take member)
  have isTest' := List.mem_zipIdx_iff_getElem?.mp (List.mem_of_mem_take member')
  obtain ⟨group, number⟩ := Prod.mk.inj same
  have place : t.2 = t'.2 := by
    refine apart _ (List.getElem?_eq_some_iff.mp isTest).1 _ (List.getElem?_eq_some_iff.mp isTest').1 ?_
    exact String.toList_inj.mp group
  rw [place] at isTest
  exact ⟨Prod.ext (Option.some.inj (isTest.symm.trans isTest')) place, digits_injective number⟩

end Numbers

/-- All tests of `has_permission`, each with a group of its own. -/
def allModes : Console := ⟨true, "concurrent", by decide, "3"⟩

def ownGroup (k : Nat) : Inputs :=
  { twoAccounts with groupID := .ofList ("9b1d".toList ++ List.replicate k '0') }

theorem ownGroup_given (k : Nat) : (ownGroup k).groupID ≠ "" := by
  intro empty
  have nothing := String.ofList_eq_empty_iff.mp empty
  cases nothing

theorem ownGroup_plain (k : Nat) : (ownGroup k).PlainAccounts := by
  intro account reads
  have listed : account ∈ getUserAccountsFromFile (some "5Grw\n5FHn\n".toList) := by
    rcases reads with first | ⟨_, later⟩
    · exact first
    · exact later
  have lines : getUserAccountsFromFile (some "5Grw\n5FHn\n".toList) =
      ["5Grw".toList, "5FHn".toList] := by decide
  rw [lines] at listed
  have all : ["5Grw".toList, "5FHn".toList].all (·.all Char.isAlphanum) = true := by decide
  exact List.all_eq_true.mp (List.all_eq_true.mp all account listed)

/-- What axios makes of the parameters, where nothing in them needs to be encoded. -/
def Params.text (params : Params) : List Char :=
  "?groupID=".toList ++ params.groupID.toList ++ "&requestNumber=".toList ++
    digits params.requestNumber ++ "&totalTransactions=".toList ++ digits params.totalTransactions ++
    "&testType=".toList ++ params.testType.toList

/-- Plain paths, and parameters in which nothing needs to be encoded, as they come. -/
def plainWire : Wire where
  originalUrl path params := path ++ (params.map Params.text).getD []
  query _ params := (params.map Params.query).getD (.obj [])
  path_plain {path} plain params := by
    have kept : ∀ c ∈ path, decide (c ≠ '?') = true := by
      intro c member
      refine decide_eq_true ?_
      rintro rfl
      rcases plain.plain '?' member with letter | slash | underscore
      · exact absurd letter (by decide)
      · exact absurd slash (by decide)
      · exact absurd underscore (by decide)
    rw [List.takeWhile_append_of_pos kept]
    cases params with
    | none => exact List.append_nil path
    | some params => exact List.append_nil path
  query_plain _ _ := rfl

theorem session_pairs_apart_allModes :
    ((requestsOf (main ⟨3, 2⟩ allModes ownGroup).actions).map fun q =>
      (display (q.groupID plainWire), display (q.requestNumber plainWire))).Nodup := by
  refine session_pairs_apart ⟨3, 2⟩ plainWire allModes ownGroup_given ownGroup_plain
    fun i _ j _ same => ?_
  have zeros : "9b1d".toList ++ List.replicate i '0' = "9b1d".toList ++ List.replicate j '0' :=
    String.ofList_injective same
  have lengths := congrArg List.length (List.append_cancel_left zeros)
  rwa [List.length_replicate, List.length_replicate] at lengths

end PatientAccess.Stress
