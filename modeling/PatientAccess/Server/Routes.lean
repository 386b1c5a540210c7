/-
# Server.Routes -- the four POST routes that create a user

A creation route runs up to its first await, where it may already have answered;
what is left is a `Handler`: the transactions it submits one after the other, and
what it answers when all of them resolved or one was rejected.  The routes differ
in the values they put there, and each keeps its own: which account it funds and
registers, whether it passes `res` to `addUser`, and its texts.

`Handler.respond` runs a handler to its answer, given how each sending went: it
answers with success exactly when every promise it awaits resolves
(`Handler.respond_iff`).  So the route with dynamic gas reports the contract's
`add_user` truthfully exactly where its two promises do (`success_truthful_iff`).
-/
import PatientAccess.Contract.Messages
import PatientAccess.Server.Transactions

namespace PatientAccess.Server

open PatientAccess.Theory

set_option autoImplicit false

/-! ## Requests and responses -/

/-- The body of a creation request, as far as the routes read it. -/
structure CreateUserBody where
  address : Option String
  userInfo : Contract.UserInfo
  role : Nat

inductive ResponseBody where
  | text (s : String)
  | json (fields : List (String × LocalValue))
  deriving DecidableEq

structure Response where
  status : Nat
  body : ResponseBody
  deriving DecidableEq

/-- The parts of the keyring the routes use; an error is what they throw. -/
structure Keyring where
  /-- `keyring.addFromUri(uri).address`. -/
  addressFromUri : String → Except String String
  encodeAddress : Option String → Except String String

/-- What a route hands to `addUser` as `newAccount`: the object `createNewAccount`
returns, or a plain string. -/
inductive NewAccount where
  | account (address mnemonic : String)
  | string (s : String)
  deriving DecidableEq

/-- `newAccount.address`; a string has no such property. -/
def NewAccount.address : NewAccount → Option String
  | .account address _ => some address
  | .string _ => none

/-- `customText || mnemonicGenerate()`; the empty text is falsy. -/
def mnemonicOf (generated : String) : Option String → String
  | some text => if text.isEmpty then generated else text
  | none => generated

def createNewAccount (keyring : Keyring) (generated : String) (customText : Option String) :
    Except String NewAccount :=
  let mnemonic := mnemonicOf generated customText
  match keyring.addressFromUri mnemonic with
  | .error e => .error e
  | .ok address => .ok (.account address mnemonic)

/-! ## Handlers -/

/-- A transaction a handler submits and awaits. -/
inductive Submission where
  | transferFunds (recipient : Option String) (amount : Nat)
  | addUser (newAccount : NewAccount) (userInfo : Contract.UserInfo) (role : Nat) (passesRes : Bool)

/-- What a handler awaits: the six second timer of `/create_user`, or a submission. -/
inductive Await where
  | timer
  | submission (s : Submission)

/-- What is left of a creation route at its first await. -/
structure Handler where
  awaits : List Await
  /-- The line added to `account_ids.txt` before answering. -/
  line : Option String
  succeed : Locals → Response
  fail : String → Response

/-- What a creation route has done at its first await: thrown outside its `try`,
answered, or come to await something. -/
inductive Entry where
  | unhandled (error : String)
  | answered (r : Response)
  | runs (h : Handler)

/-- Funds given to a new account. -/
def fundingAmount : Nat := 1000000000000

def textResponse (status : Nat) (s : String) : Response := ⟨status, .text s⟩

/-! ## The routes -/

/-- `POST /create_user`. -/
def createUser (keyring : Keyring) (generated : String) (b : CreateUserBody) : Entry :=
  match createNewAccount keyring generated none with
  | .error e => .unhandled e
  | .ok newAccount => .runs
      { awaits := [.timer, .submission (.addUser newAccount b.userInfo b.role true)]
        line := none
        succeed := fun _ => textResponse 200 "User and role added successfully"
        fail := fun e => textResponse 500 s!"Error assigning role: {e}" }

/-- `POST /create_user_based_on_personalized_mnemonic`. -/
def createUserBasedOnPersonalizedMnemonic (keyring : Keyring) (generated : String)
    (b : CreateUserBody) : Entry :=
  match createNewAccount keyring generated b.address with
  | .error e => .unhandled e
  | .ok newAccount => .runs
      { awaits := [.submission (.transferFunds newAccount.address fundingAmount),
          .submission (.addUser newAccount b.userInfo b.role false)]
        line := none
        succeed := fun _ => textResponse 200 "User and role added successfully"
        fail := fun e => textResponse 500 s!"Error assigning role: {e}" }

/-- `POST /create_user_with_existing_address`. -/
def createUserWithExistingAddress (keyring : Keyring) (b : CreateUserBody) : Entry :=
  match keyring.encodeAddress b.address with
  | .error _ => .answered (textResponse 400 "Invalid address provided")
  | .ok userAddress => .runs
      { awaits := [.submission (.transferFunds (some userAddress) fundingAmount),
          .submission (.addUser (.string userAddress) b.userInfo b.role false)]
        line := none
        succeed := fun _ => textResponse 200 s!"User created with address {userAddress}"
        fail := fun e => textResponse 500 s!"Error creating user: {e}" }

/-- A JSON field, left out where its value is undefined. -/
def jsonField (name : String) : Option LocalValue → List (String × LocalValue)
  | some v => [(name, v)]
  | none => []

def dynamicGasError (e : String) : Response :=
  ⟨500, .json [("error", .text s!"Error al crear el usuario: {e}")]⟩

/-- `POST /create_user_with_dynamic_gas`.  Nothing sets `res.locals.blockHash`, so the
answer never has a `blockHash`. -/
def createUserWithDynamicGas (keyring : Keyring) (generated : String) (b : CreateUserBody) : Entry :=
  match createNewAccount keyring generated none with
  | .error e => .answered (dynamicGasError e)
  | .ok newAccount => .runs
      { awaits := [.submission (.transferFunds newAccount.address fundingAmount),
          .submission (.addUser newAccount b.userInfo b.role true)]
        line := newAccount.address.map fun address => s!"{address}\n"
        succeed := fun locals =>
          ⟨200, .json ([("message", .text "Usuario creado con éxito")] ++
            jsonField "gasUsed" locals.refTime ++ jsonField "proofSize" locals.proofSize ++
            jsonField "tip" (locals.tip.map .text))⟩
        fail := dynamicGasError }

/-! ## Running a handler -/

/-- One submission as it went: what `getTip` and the transaction counter gave it,
and how its sending goes. -/
structure Attempt where
  tip : Nat
  numberTransaction : Nat
  sending : Sending

/-- The promise a handler awaits, and `res.locals` beside it. -/
def Submission.settle (locals : Locals) (t : Attempt) : Submission → Promise Unit String × Locals
  | .transferFunds _ _ => ((Server.transferFunds t.sending).map fun _ => (), locals)
  | .addUser _ _ _ passesRes =>
      let st := Server.addUser t.tip t.numberTransaction (if passesRes then some locals else none)
        t.sending
      (st.promise.map fun _ => (), st.locals.getD locals)

/-- What a request comes to: its answer (`none` while it has none), the lines it
added to `account_ids.txt`, and `res.locals`. -/
structure Outcome where
  response : Option Response
  appended : List String
  locals : Locals
  deriving DecidableEq

def Outcome.status (o : Outcome) : Option Nat := o.response.map Response.status

/-- After the last await: the file is written and the request answered; `disk` is
how `appendFileSync` goes. -/
def Handler.finish (h : Handler) (disk : Except String Unit) (locals : Locals) : Outcome :=
  match h.line with
  | none => { response := some (h.succeed locals), appended := [], locals }
  | some line =>
      match disk with
      | .ok () => { response := some (h.succeed locals), appended := [line], locals }
      | .error e => { response := some (h.fail e), appended := [], locals }

/-- Run what is left of a handler, given how its submissions go so far. -/
def Handler.respond (h : Handler) (disk : Except String Unit) :
    List Await → List Attempt → Locals → Outcome
  | [], _, locals => h.finish disk locals
  | .timer :: awaits, ts, locals => respond h disk awaits ts locals
  | .submission _ :: _, [], locals => { response := none, appended := [], locals }
  | .submission s :: awaits, t :: ts, locals =>
      match s.settle locals t with
      | (.pending, locals) => { response := none, appended := [], locals }
      | (.rejected e, locals) => { response := some (h.fail e), appended := [], locals }
      | (.resolved _, locals) => respond h disk awaits ts locals

def Entry.respond (disk : Except String Unit) (ts : List Attempt) : Entry → Outcome
  | .unhandled _ => { response := none, appended := [], locals := .fresh }
  | .answered r => { response := some r, appended := [], locals := .fresh }
  | .runs h => h.respond disk h.awaits ts .fresh

/-! ## When a handler reports success -/

/-- The notifications resolve the promise of the submission: never, where `addUser` is
not passed `res`. -/
def Submission.Settles (x : Sending) : Submission → Prop
  | .transferFunds _ _ => FinalizesFirst x.notifications
  | .addUser _ _ _ passesRes => passesRes = true ∧ Finalizes x.notifications

/-- Every submission awaited resolves. -/
def AllSettle : List Await → List Attempt → Prop
  | [], _ => True
  | .timer :: awaits, ts => AllSettle awaits ts
  | .submission _ :: _, [] => False
  | .submission s :: awaits, t :: ts => s.Settles t.sending ∧ AllSettle awaits ts

theorem Submission.settle_isResolved (locals : Locals) (t : Attempt) (s : Submission) :
    (s.settle locals t).1.isResolved = true ↔ s.Settles t.sending := by
  cases s with
  | transferFunds recipient amount =>
      rw [Submission.settle, Promise.isResolved_map, transferFunds_isResolved]
      rfl
  | addUser newAccount userInfo role passesRes =>
      rw [Submission.settle, Promise.isResolved_map, addUser_isResolved]
      cases passesRes <;> simp [Submission.Settles]

/-- The file, where there is a line for it, can be written. -/
def Handler.Writable (h : Handler) (disk : Except String Unit) : Prop :=
  h.line = none ∨ disk = .ok ()

/-- A handler that answers 200 only with success does so exactly when every promise it
awaits resolves and its line can be written; and it writes the line exactly then. -/
theorem Handler.respond_iff {h : Handler} (succeeds : ∀ locals, (h.succeed locals).status = 200)
    (fails : ∀ e, (h.fail e).status ≠ 200) (disk : Except String Unit) (awaits : List Await)
    (ts : List Attempt) (locals : Locals) :
    ((h.respond disk awaits ts locals).status = some 200 ↔
        AllSettle awaits ts ∧ h.Writable disk) ∧
      ((h.respond disk awaits ts locals).appended ≠ [] ↔
        AllSettle awaits ts ∧ h.line ≠ none ∧ disk = .ok ()) := by
  fun_induction Handler.respond h disk awaits ts locals with
  | case1 ts locals =>
      unfold Handler.finish Handler.Writable
      cases written : h.line with
      | none => simp [AllSettle, Outcome.status, succeeds]
      | some line =>
          cases disk with
          | ok _ => simp [AllSettle, Outcome.status, succeeds]
          | error e => simp [AllSettle, Outcome.status, fails]
  | case2 awaits ts locals ih => exact ih
  | case3 s awaits locals => simp [AllSettle, Outcome.status]
  | case4 s awaits t ts locals locals' settled =>
      have unresolved := s.settle_isResolved locals t
      rw [settled] at unresolved
      simp [AllSettle, Outcome.status, ← unresolved, Promise.isResolved]
  | case5 s awaits t ts locals e locals' settled =>
      have unresolved := s.settle_isResolved locals t
      rw [settled] at unresolved
      simp [AllSettle, Outcome.status, fails, ← unresolved, Promise.isResolved]
  | case6 s awaits t ts locals value locals' settled ih =>
      have resolved := s.settle_isResolved locals t
      rw [settled] at resolved
      simp only [AllSettle, resolved.mp rfl, true_and]
      exact ih

/-! ## What the route with dynamic gas reports -/

theorem createNewAccount_account {keyring : Keyring} {generated : String}
    {customText : Option String} {newAccount : NewAccount}
    (created : createNewAccount keyring generated customText = .ok newAccount) :
    ∃ address mnemonic, newAccount = .account address mnemonic := by
  simp only [createNewAccount] at created
  split at created
  · cases created
  · cases created
    exact ⟨_, _, rfl⟩

/-- Once the account is created, the route awaits the transfer and the registration, and
has a line to write. -/
theorem createUserWithDynamicGas_runs {keyring : Keyring} {generated : String}
    {newAccount : NewAccount} (b : CreateUserBody)
    (created : createNewAccount keyring generated none = .ok newAccount) :
    ∃ h, createUserWithDynamicGas keyring generated b = .runs h ∧
      h.awaits = [.submission (.transferFunds newAccount.address fundingAmount),
        .submission (.addUser newAccount b.userInfo b.role true)] ∧
      h.line ≠ none ∧ (∀ locals, (h.succeed locals).status = 200) ∧
      ∀ e, (h.fail e).status ≠ 200 := by
  obtain ⟨address, mnemonic, rfl⟩ := createNewAccount_account created
  rw [createUserWithDynamicGas, created]
  refine ⟨_, rfl, rfl, ?_, fun _ => rfl, fun _ => ?_⟩
  · simp [NewAccount.address]
  · show (500 : Nat) ≠ 200
    omega

/-- The account is created, the transfer is final before any error, the registration
is final, and the file can be written. -/
def Reported (keyring : Keyring) (generated : String) (disk : Except String Unit) (t u : Attempt) :
    Prop :=
  (∃ newAccount, createNewAccount keyring generated none = .ok newAccount) ∧
    FinalizesFirst t.sending.notifications ∧ Finalizes u.sending.notifications ∧ disk = .ok ()

/-- The route with dynamic gas answers 200, and writes the address to the file,
exactly when both its promises resolve and the file can be written. -/
theorem dynamicGas_answers_iff (keyring : Keyring) (generated : String) (b : CreateUserBody)
    (disk : Except String Unit) (t u : Attempt) :
    let out := (createUserWithDynamicGas keyring generated b).respond disk [t, u]
    (out.status = some 200 ↔ Reported keyring generated disk t u) ∧
      (out.appended ≠ [] ↔ Reported keyring generated disk t u) := by
  intro out
  cases created : createNewAccount keyring generated none with
  | error e =>
      have refused : out =
          { response := some (dynamicGasError e), appended := [], locals := .fresh } := by
        simp only [out, createUserWithDynamicGas, created]
        rfl
      simp [refused, Reported, created, Outcome.status, dynamicGasError]
  | ok newAccount =>
      obtain ⟨h, enters, awaits, line, succeeds, fails⟩ := createUserWithDynamicGas_runs b created
      have runs : out = h.respond disk h.awaits [t, u] .fresh := by
        simp only [out, enters]
        rfl
      obtain ⟨answers, writes⟩ := Handler.respond_iff succeeds fails disk h.awaits [t, u] .fresh
      rw [runs, answers, writes, awaits]
      simp [AllSettle, Submission.Settles, Handler.Writable, line, Reported, created, and_assoc]

/-- What the node says of a contract message that returned `r`: an `Ok` ends in
`ExtrinsicSuccess` and nothing reports a failure; an `Err` reverts, is included all
the same, and ends in `ExtrinsicFailed`. -/
structure NodeReports (r : Except String Unit) (ns : List Notification) : Prop where
  ok : r = .ok () → (∀ n ∈ ns, ∀ e ∈ n.events, e.isFailed = false) ∧
    ∀ n ∈ ns, n.isFinalized = true → ∃ e ∈ n.events, e.isSuccess = true
  error : ∀ text, r = .error text →
    ∀ n ∈ ns, n.isFinalized = true → ∃ e ∈ n.events, e.isFailed = true

theorem NodeReports.executed_iff {r : Except String Unit} {ns : List Notification}
    (reports : NodeReports r ns) (final : Finalizes ns) : Executed ns ↔ r = .ok () := by
  obtain ⟨n, member, isFinal⟩ := final
  cases r with
  | ok _ =>
      obtain ⟨unfailed, succeeded⟩ := reports.ok rfl
      exact iff_of_true ⟨⟨n, member, succeeded n member isFinal⟩, unfailed⟩ rfl
  | error text =>
      obtain ⟨e, inEvents, failed⟩ := reports.error text rfl n member isFinal
      refine iff_of_false (fun executed => ?_) (by simp)
      rw [executed.2 n member e inEvents] at failed
      cases failed

/-- The route answers 200, or writes the address to the file, only if the contract's
`add_user` returned `Ok`. -/
def RouteTruthful (out : Outcome) (r : Except String Unit) : Prop :=
  out.status = some 200 ∨ out.appended ≠ [] → r = .ok ()

/-- **When a reported success is one.**  The callbacks declare success on `Finalized`
whatever the events say.  So they are truthful exactly on the notifications whose
finality, where it settles the promise, comes with an executed transaction; and the
route, whose node reports on the contract's `add_user`, exactly where the promises
it awaits are. -/
theorem success_truthful_iff (tip k : Nat) (passesRes : Bool) (ns : List Notification) :
    (AddUserTruthful tip k (if passesRes then some .fresh else none) ns ↔
        (passesRes = true → Finalizes ns → Executed ns)) ∧
      (TransferTruthful ns ↔ (FinalizesFirst ns → Executed ns)) ∧
      ∀ keyring generated b disk t u (c : Contract.Env) a info role,
        NodeReports (Contract.addUser c a info role).1 u.sending.notifications →
          (RouteTruthful ((createUserWithDynamicGas keyring generated b).respond disk [t, u])
              (Contract.addUser c a info role).1 ↔
            (Reported keyring generated disk t u → Executed u.sending.notifications)) := by
  refine ⟨?_, transferFunds_truthful_iff ns, ?_⟩
  · cases passesRes with
    | false => simpa using addUser_truthful_none tip k ns
    | true => simpa using addUser_truthful_iff tip k ns
  intro keyring generated b disk t u c a info role reports
  obtain ⟨answers, writes⟩ := dynamicGas_answers_iff keyring generated b disk t u
  rw [RouteTruthful, answers, writes, or_self]
  refine forall_congr' fun reported => ?_
  exact (reports.executed_iff reported.2.2.1).symm

/-! ## A registration the contract refuses -/

/-- The notifications of a transaction that is included, fails, and is finalized. -/
def failedNotifications : List Notification :=
  [⟨.inBlock, [⟨"system", "ExtrinsicFailed", []⟩]⟩,
    ⟨.finalized, [⟨"system", "ExtrinsicFailed", []⟩]⟩]

def succeededNotifications : List Notification :=
  [⟨.inBlock, [⟨"system", "ExtrinsicSuccess", [⟨some ⟨7, 3⟩⟩]⟩]⟩,
    ⟨.finalized, [⟨"system", "ExtrinsicSuccess", [⟨some ⟨7, 3⟩⟩]⟩]⟩]

/-- A keyring that gives every mnemonic one address. -/
def oneAddress : Keyring where
  addressFromUri _ := .ok "5D5qKYHtx9HioYRkcvYdSvhytbvpuWPEXxcc2XA5QRZTh3j4"
  encodeAddress _ := .error "Decoding failed"

/-- Alice's DNI has a patient; the contract refuses a second one, the node finalizes
the failed transaction, and the route answers 200 and keeps the address. -/
theorem refused_registration_reported_as_success :
    let c := Contract.contract.run
      [⟨.from32 9, .addUser (.from32 1) Contract.alice 0⟩]
    let result := (Contract.addUser c (.from32 2) Contract.alice 0).1
    let out := (createUserWithDynamicGas oneAddress "mnemonic" ⟨none, Contract.alice, 0⟩).respond
      (.ok ()) [⟨1, 1, .accepted succeededNotifications⟩, ⟨1, 1, .accepted failedNotifications⟩]
    ¬ AddUserTruthful 1 1 (some .fresh) failedNotifications ∧
      ¬ TransferTruthful failedNotifications ∧
      NodeReports result failedNotifications ∧
      result = .error "Ambos account_id no pueden tener el mismo rol" ∧
      out.status = some 200 ∧ out.appended ≠ [] := by
  refine ⟨?_, ?_, ⟨?_, ?_⟩, ?_, ?_, ?_⟩
  · intro truthful
    exact absurd (truthful.1 (by decide)) (by decide)
  · intro truthful
    exact absurd (truthful (by decide)) (by decide)
  · intro ok
    exact absurd ok (by decide)
  · intro text _
    decide
  all_goals decide

/-- Where the node reports that the contract accepted the registration, the route
may answer 200. -/
theorem success_truthful_iff_accepted :
    let c := Contract.contract.run []
    let out := (createUserWithDynamicGas oneAddress "mnemonic" ⟨none, Contract.alice, 0⟩).respond
      (.ok ()) [⟨1, 1, .accepted succeededNotifications⟩, ⟨1, 1, .accepted succeededNotifications⟩]
    out.status = some 200 ∧
      RouteTruthful out (Contract.addUser c (.from32 1) Contract.alice 0).1 := by
  have accepted : (Contract.addUser (Contract.contract.run []) (.from32 1) Contract.alice 0).1 =
      .ok () := by decide
  refine ⟨by decide, ?_⟩
  have route := (success_truthful_iff 1 1 true succeededNotifications).2.2
  refine (route _ _ _ _ _ _ _ _ _ _ ⟨fun _ => ?_, fun text refused => ?_⟩).mpr fun _ => ?_
  · decide
  · rw [accepted] at refused
    cases refused
  · decide

end PatientAccess.Server
