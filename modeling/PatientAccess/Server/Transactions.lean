/-
# Server.Transactions -- transferFunds and addUser, and what their callbacks report

The server signs a transaction, sends it, and awaits a promise that a callback
settles.  The callback is fed the status notifications of the transaction, in any
order and each with any event list; `Sending` is all that can happen between the
building of the transaction and its last notification so far.

Neither callback decides by the outcome of the transaction.  That of `addUser`
looks for `system.ExtrinsicFailed` when the transaction is in a block, prints it,
and on `Finalized` sets `transactionSuccess` and resolves whatever the events are;
that of `transferFunds` does not look at events.  `addUser_truthful_iff` and
`transferFunds_truthful_iff` say exactly on which notifications a resolved promise
means that the transaction executed.
-/
import PatientAccess.Theory.Promise

namespace PatientAccess.Server

open PatientAccess.Theory

set_option autoImplicit false

/-! ## Notifications -/

structure Weight where
  refTime : Nat
  proofSize : Nat
  deriving DecidableEq

/-- One field of an event's data; only a dispatch info has a `weight`. -/
structure Datum where
  weight : Option Weight
  deriving DecidableEq

/-- `{ event: { data, method, section } }`. -/
structure EventRecord where
  section_ : String
  method : String
  data : List Datum
  deriving DecidableEq

def EventRecord.isSuccess (e : EventRecord) : Bool :=
  decide (e.section_ = "system" ∧ e.method = "ExtrinsicSuccess")

def EventRecord.isFailed (e : EventRecord) : Bool :=
  decide (e.section_ = "system" ∧ e.method = "ExtrinsicFailed")

inductive Status where
  | future
  | ready
  | broadcast
  | inBlock
  | retracted
  | finalityTimeout
  | finalized
  | usurped
  | dropped
  | invalid
  deriving DecidableEq

/-- The `result` a callback is given. -/
structure Notification where
  status : Status
  events : List EventRecord
  deriving DecidableEq

def Notification.isFinalized (n : Notification) : Bool := decide (n.status = .finalized)

/-- `result.isError`. -/
def Notification.isError (n : Notification) : Bool :=
  match n.status with
  | .invalid | .dropped | .usurped | .finalityTimeout => true
  | _ => false

/-- How the sending of a transaction goes: building it throws, the node refuses it
(`signAndSend` rejects), or the node accepts it and the callback is notified. -/
inductive Sending where
  | notBuilt (error : String)
  | refused (error : String)
  | accepted (ns : List Notification)
  deriving DecidableEq

def Sending.notifications : Sending → List Notification
  | .accepted ns => ns
  | _ => []

/-! ## `res.locals` -/

/-- A value in `res.locals`: a JavaScript number, a codec object holding one (which
is truthy whatever it holds), or a text. -/
inductive LocalValue where
  | number (n : Nat)
  | codec (n : Nat)
  | text (s : String)
  deriving DecidableEq

/-- The properties `addUser` writes; `none` is undefined. -/
structure Locals where
  refTime : Option LocalValue
  proofSize : Option LocalValue
  tip : Option String
  transactionSuccess : Option Bool
  transactionCount : Option Nat
  deriving DecidableEq

/-- A new response: `addUser` has written nothing yet. -/
def Locals.fresh : Locals :=
  { refTime := none, proofSize := none, tip := none
    transactionSuccess := none, transactionCount := none }

/-! ## transferFunds -/

/-- What one notification does to the promise of `transferFunds`. -/
def transferOutcome (n : Notification) : Promise Notification String :=
  if n.isFinalized then .resolved n
  else if n.isError then .rejected "Error en la transferencia."
  else .pending

/-- The promise of `transferFunds`, once the nonce is taken. -/
def transferFunds : Sending → Promise Notification String
  | .notBuilt error => .rejected error
  | .refused error => .rejected s!"Error en la transferencia: {error}"
  | .accepted ns => ns.foldl (fun p n => p.or (transferOutcome n)) .pending

/-! ## addUser -/

/-- What the callback of `addUser` captures: the gas it has read, `res.locals`
(`none` where the route passes no `res`), and the promise. -/
structure AddUserState where
  refTime : Option Nat
  proofSize : Option Nat
  locals : Option Locals
  promise : Promise Status String

/-- The gas of an `ExtrinsicSuccess` event, if its first field has a weight. -/
def readGas (st : AddUserState) (e : EventRecord) : AddUserState :=
  if e.isSuccess then
    match e.data.head?.bind Datum.weight with
    | some w => { st with refTime := some w.refTime, proofSize := some w.proofSize }
    | none => st
  else st

/-- `value || 'N/A'`, for a codec object or null. -/
def orNA : Option Nat → LocalValue
  | some n => .codec n
  | none => .text "N/A"

/-- The callback of `addUser`.  In a block it only prints the failures it finds; a
throw there, as at the first `res.locals` without a `res`, settles nothing. -/
def addUserCallback (tip numberTransaction : Nat) (st : AddUserState) (n : Notification) :
    AddUserState :=
  if n.status = .inBlock then st
  else if n.isFinalized then
    let st := n.events.foldl readGas st
    match st.locals with
    | none => st
    | some _ =>
        { st with
          locals := some
            { refTime := some (orNA st.refTime)
              proofSize := some (orNA st.proofSize)
              tip := some (toString tip)
              transactionSuccess := some true
              transactionCount := some numberTransaction }
          promise := st.promise.resolve n.status }
  else st

/-- What `addUser` leaves, once the nonce is taken.  The handler of a refusal writes
to `res.locals` before it rejects, so without a `res` it throws and never rejects. -/
def addUser (tip numberTransaction : Nat) (locals : Option Locals) : Sending → AddUserState
  | .notBuilt error =>
      { refTime := none, proofSize := none, locals, promise := .rejected error }
  | .refused error =>
      { refTime := none, proofSize := none
        locals := locals.map fun _ =>
          { refTime := some (.number 0), proofSize := some (.number 0), tip := some "0"
            transactionSuccess := some false, transactionCount := some 0 }
        promise := if locals.isSome then .rejected error else .pending }
  | .accepted ns =>
      ns.foldl (addUserCallback tip numberTransaction)
        { refTime := none, proofSize := none, locals, promise := .pending }

/-! ## What a resolved promise means -/

/-- The transaction executed: its events have `ExtrinsicSuccess` and no
`ExtrinsicFailed`. -/
def Executed (ns : List Notification) : Prop :=
  (∃ n ∈ ns, ∃ e ∈ n.events, e.isSuccess = true) ∧
    ∀ n ∈ ns, ∀ e ∈ n.events, e.isFailed = false

instance (ns : List Notification) : Decidable (Executed ns) :=
  inferInstanceAs (Decidable (_ ∧ _))

/-- Some notification is `Finalized`. -/
def Finalizes (ns : List Notification) : Prop := ∃ n ∈ ns, n.isFinalized = true

/-- Some notification is `Finalized`, and none before it is an error. -/
def FinalizesFirst (ns : List Notification) : Prop :=
  ∃ before n after, ns = before ++ n :: after ∧ n.isFinalized = true ∧
    ∀ m ∈ before, m.isError = false

/-- A notification that is final is no error. -/
theorem Notification.isError_of_isFinalized {n : Notification} (final : n.isFinalized = true) :
    n.isError = false := by
  simp only [isFinalized, decide_eq_true_eq] at final
  simp [isError, final]

theorem transferOutcome_isResolved (n : Notification) :
    (transferOutcome n).isResolved = n.isFinalized := by
  unfold transferOutcome
  cases final : n.isFinalized <;> cases error : n.isError <;> rfl

theorem transferOutcome_rejects {n : Notification} :
    (∃ e, transferOutcome n = .rejected e) ↔ n.isError = true := by
  unfold transferOutcome
  by_cases final : n.isFinalized = true
  · simp [final, Notification.isError_of_isFinalized final]
  · by_cases error : n.isError = true <;> simp [final, error]

theorem transferFunds_accepted (ns : List Notification) :
    transferFunds (.accepted ns) = Promise.first (ns.map transferOutcome) := by
  rw [transferFunds, Promise.foldl_or, Promise.pending_or]

/-- `transferFunds` resolves exactly on `Finalized` before any error status. -/
theorem transferFunds_isResolved (s : Sending) :
    (transferFunds s).isResolved = true ↔ FinalizesFirst s.notifications := by
  cases s with
  | notBuilt e => simp [transferFunds, Promise.isResolved, FinalizesFirst, Sending.notifications]
  | refused e => simp [transferFunds, Promise.isResolved, FinalizesFirst, Sending.notifications]
  | accepted ns =>
      rw [transferFunds_accepted, Promise.first_isResolved]
      simp only [FinalizesFirst, Sending.notifications, transferOutcome_isResolved]
      have quiet : ∀ m, (∀ e, transferOutcome m ≠ .rejected e) ↔ m.isError = false := by
        intro m
        rw [← Bool.not_eq_true, ← transferOutcome_rejects, not_exists]
      simp only [quiet]

theorem foldl_readGas (events : List EventRecord) (st : AddUserState) :
    (events.foldl readGas st).locals = st.locals ∧
      (events.foldl readGas st).promise = st.promise := by
  induction events generalizing st with
  | nil => exact ⟨rfl, rfl⟩
  | cons e events ih =>
      have one : (readGas st e).locals = st.locals ∧ (readGas st e).promise = st.promise := by
        unfold readGas
        split
        · split <;> exact ⟨rfl, rfl⟩
        · exact ⟨rfl, rfl⟩
      rw [List.foldl_cons]
      exact ⟨(ih _).1.trans one.1, (ih _).2.trans one.2⟩

/-- With a `res`, a notification resolves the promise and declares success exactly
if it is final; its events play no part. -/
theorem addUserCallback_spec (tip k : Nat) (st : AddUserState) (n : Notification) {locals : Locals}
    (given : st.locals = some locals) :
    ∃ locals', (addUserCallback tip k st n).locals = some locals' ∧
      locals'.transactionSuccess =
        (if n.isFinalized then some true else locals.transactionSuccess) ∧
      (addUserCallback tip k st n).promise =
        if n.isFinalized then st.promise.resolve n.status else st.promise := by
  obtain ⟨sameLocals, samePromise⟩ := foldl_readGas n.events st
  unfold addUserCallback
  by_cases inBlock : n.status = .inBlock
  · have notFinal : n.isFinalized = false := by simp [Notification.isFinalized, inBlock]
    simp [inBlock, notFinal, given]
  · by_cases final : n.isFinalized = true
    · rw [given] at sameLocals
      simp [inBlock, final, sameLocals, samePromise]
    · simp [inBlock, final, given]

/-- Over a sequence of notifications: with a `res`, one final notification resolves
the promise and declares success, and nothing rejects. -/
theorem foldl_addUserCallback (tip k : Nat) (ns : List Notification) (st : AddUserState)
    {locals : Locals} (given : st.locals = some locals)
    (unrejected : ∀ e, st.promise ≠ .rejected e) :
    ∃ locals', (ns.foldl (addUserCallback tip k) st).locals = some locals' ∧
      locals'.transactionSuccess =
        (if ns.any Notification.isFinalized then some true else locals.transactionSuccess) ∧
      (ns.foldl (addUserCallback tip k) st).promise.isResolved =
        (st.promise.isResolved || ns.any Notification.isFinalized) ∧
      ∀ e, (ns.foldl (addUserCallback tip k) st).promise ≠ .rejected e := by
  induction ns generalizing st locals with
  | nil => exact ⟨locals, given, by simp, by simp, unrejected⟩
  | cons n ns ih =>
      obtain ⟨mid, midGiven, success, promise⟩ := addUserCallback_spec tip k st n given
      have midUnrejected : ∀ e, (addUserCallback tip k st n).promise ≠ .rejected e := by
        intro e
        rw [promise]
        split
        · cases settled : st.promise <;> simp_all [Promise.resolve, Promise.or]
        · exact unrejected e
      obtain ⟨last, lastGiven, lastSuccess, lastPromise, lastUnrejected⟩ :=
        ih (addUserCallback tip k st n) midGiven midUnrejected
      refine ⟨last, lastGiven, ?_, ?_, lastUnrejected⟩
      · rw [lastSuccess, success, List.any_cons]
        cases n.isFinalized <;> cases ns.any Notification.isFinalized <;> rfl
      · rw [List.foldl_cons, lastPromise, promise, List.any_cons]
        by_cases final : n.isFinalized = true
        · cases settled : st.promise with
          | pending => simp [final, Promise.resolve, Promise.isResolved]
          | resolved a => simp [final, Promise.resolve, Promise.or, Promise.isResolved]
          | rejected e => exact absurd settled (unrejected e)
        · simp [final]

/-- Without a `res` no notification settles the promise. -/
theorem foldl_addUserCallback_none (tip k : Nat) (ns : List Notification) (st : AddUserState)
    (missing : st.locals = none) :
    (ns.foldl (addUserCallback tip k) st).locals = none ∧
      (ns.foldl (addUserCallback tip k) st).promise = st.promise := by
  induction ns generalizing st with
  | nil => exact ⟨missing, rfl⟩
  | cons n ns ih =>
      obtain ⟨sameLocals, samePromise⟩ := foldl_readGas n.events st
      rw [missing] at sameLocals
      have one : (addUserCallback tip k st n).locals = none ∧
          (addUserCallback tip k st n).promise = st.promise := by
        unfold addUserCallback
        by_cases inBlock : n.status = .inBlock
        · simp [inBlock, missing]
        · by_cases final : n.isFinalized = true
          · simp [inBlock, final, sameLocals, samePromise]
          · simp [inBlock, final, missing]
      rw [List.foldl_cons]
      exact ⟨(ih _ one.1).1, (ih _ one.1).2.trans one.2⟩

theorem finalizes_iff_any (ns : List Notification) :
    Finalizes ns ↔ ns.any Notification.isFinalized = true := by
  simp [Finalizes]

/-- `addUser` resolves exactly on `Finalized`, where it was passed a `res`. -/
theorem addUser_isResolved (tip k : Nat) (locals : Option Locals) (s : Sending) :
    (addUser tip k locals s).promise.isResolved = true ↔
      locals.isSome = true ∧ Finalizes s.notifications := by
  cases s with
  | notBuilt e => simp [addUser, Promise.isResolved, Finalizes, Sending.notifications]
  | refused e =>
      cases locals <;> simp [addUser, Promise.isResolved, Finalizes, Sending.notifications]
  | accepted ns =>
      rw [Sending.notifications, finalizes_iff_any, addUser]
      cases locals with
      | none =>
          rw [(foldl_addUserCallback_none tip k ns _ rfl).2]
          simp [Promise.isResolved]
      | some l =>
          obtain ⟨-, -, -, promise, -⟩ := foldl_addUserCallback tip k ns
            { refTime := none, proofSize := none, locals := some l, promise := .pending } rfl
            (fun e => by simp)
          rw [promise]
          simp [Promise.isResolved]

/-- Where `addUser` was passed a new response, it declares success exactly on
`Finalized`. -/
theorem addUser_success (tip k : Nat) (s : Sending) :
    (addUser tip k (some .fresh) s).locals.bind Locals.transactionSuccess = some true ↔
      Finalizes s.notifications := by
  cases s with
  | notBuilt e => simp [addUser, Locals.fresh, Finalizes, Sending.notifications]
  | refused e => simp [addUser, Finalizes, Sending.notifications]
  | accepted ns =>
      obtain ⟨l, given, success, -⟩ := foldl_addUserCallback tip k ns
        { refTime := none, proofSize := none, locals := some .fresh, promise := .pending } rfl
        (fun e => by simp)
      rw [Sending.notifications, finalizes_iff_any, addUser, given, Option.bind_some, success]
      by_cases final : ns.any Notification.isFinalized = true <;> simp [final, Locals.fresh]

/-- The promise of `transferFunds` is resolved only if the transaction executed. -/
def TransferTruthful (ns : List Notification) : Prop :=
  (transferFunds (.accepted ns)).isResolved = true → Executed ns

/-- The promise of `addUser` is resolved, and success declared, only if the
transaction executed. -/
def AddUserTruthful (tip numberTransaction : Nat) (locals : Option Locals)
    (ns : List Notification) : Prop :=
  let st := addUser tip numberTransaction locals (.accepted ns)
  (st.promise.isResolved = true → Executed ns) ∧
    (st.locals.bind Locals.transactionSuccess = some true → Executed ns)

theorem transferFunds_truthful_iff (ns : List Notification) :
    TransferTruthful ns ↔ (FinalizesFirst ns → Executed ns) := by
  rw [TransferTruthful, transferFunds_isResolved]
  rfl

theorem addUser_truthful_iff (tip k : Nat) (ns : List Notification) :
    AddUserTruthful tip k (some .fresh) ns ↔ (Finalizes ns → Executed ns) := by
  simp only [AddUserTruthful, addUser_isResolved, addUser_success, Option.isSome_some, true_and,
    and_self]
  rfl

/-- Without a `res`, `addUser` reports nothing. -/
theorem addUser_truthful_none (tip k : Nat) (ns : List Notification) :
    AddUserTruthful tip k none ns := by
  have missing : (addUser tip k none (.accepted ns)).locals = none :=
    (foldl_addUserCallback_none tip k ns _ rfl).1
  simp [AddUserTruthful, addUser_isResolved, missing]

end PatientAccess.Server
