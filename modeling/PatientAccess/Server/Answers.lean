/-
# Server.Answers -- which creation requests are answered

A request is answered when its handler ends, so every promise it awaits has to be
settled.  A transaction that ends does end the promise of `transferFunds`: `Finalized`
resolves it and every other terminal status is an error.  That of `addUser` hangs where
the transaction ends in an error status, which its callback does not look at, and
wherever the route passes no `res`, which both its callback and its error handler use
before they settle anything.

`Handler.respond_answered_iff` says when a handler answers, and `request_answered_iff`
what that is for each of the four routes.
-/
import PatientAccess.Server.EventLoop

namespace PatientAccess.Server

open PatientAccess.Theory

set_option autoImplicit false

/-! ## Transactions that end -/

/-- No notification comes after this status. -/
def Status.isTerminal : Status → Bool
  | .finalized | .invalid | .dropped | .usurped | .finalityTimeout => true
  | _ => false

/-- The sending came to its end: it failed, or its last notification is terminal. -/
def Sending.Ended : Sending → Prop
  | .notBuilt _ | .refused _ => True
  | .accepted ns => ∃ n ∈ ns.getLast?, n.status.isTerminal = true

/-- A terminal notification is final or an error, so it settles a transfer. -/
theorem transferOutcome_settles {n : Notification} (terminal : n.status.isTerminal = true) :
    transferOutcome n ≠ .pending := by
  obtain ⟨status, events⟩ := n
  cases status <;> simp_all [Status.isTerminal, transferOutcome, Notification.isFinalized,
    Notification.isError]

/-- A transfer that ends settles its promise. -/
theorem transferFunds_settles {x : Sending} (ended : x.Ended) : transferFunds x ≠ .pending := by
  cases x with
  | notBuilt error => simp [transferFunds]
  | refused error => simp [transferFunds]
  | accepted ns =>
      obtain ⟨n, last, terminal⟩ := ended
      rw [transferFunds_accepted]
      intro pending
      have all := Promise.first_eq_pending_iff.mp pending
      have member : n ∈ ns := List.mem_of_getLast? last
      exact transferOutcome_settles terminal (all _ (List.mem_map_of_mem member))

/-- How a sending has to end for `addUser` to settle its promise. -/
def RegistrationSettles (passesRes : Bool) : Sending → Prop
  | .notBuilt _ => True
  | .refused _ => passesRes = true
  | .accepted ns => passesRes = true ∧ Finalizes ns

/-- `addUser` settles its promise only where it has a `res`, and by `Finalized` only. -/
theorem addUser_settles_iff (tip k : Nat) (locals : Option Locals) (x : Sending) :
    (addUser tip k locals x).promise ≠ .pending ↔ RegistrationSettles locals.isSome x := by
  cases x with
  | notBuilt error => simp [addUser, RegistrationSettles]
  | refused error => cases locals <;> simp [addUser, RegistrationSettles]
  | accepted ns =>
      have resolves := addUser_isResolved tip k locals (.accepted ns)
      rw [RegistrationSettles]
      rw [Sending.notifications] at resolves
      rw [← resolves]
      cases locals with
      | none =>
          have hangs := (foldl_addUserCallback_none tip k ns
            { refTime := none, proofSize := none, locals := none, promise := .pending } rfl).2
          rw [addUser, hangs]
          simp [Promise.isResolved]
      | some l =>
          obtain ⟨-, -, -, -, unrejected⟩ := foldl_addUserCallback tip k ns
            { refTime := none, proofSize := none, locals := some l, promise := .pending } rfl
            (fun e => by simp)
          rw [addUser]
          cases settled : (ns.foldl (addUserCallback tip k)
            { refTime := none, proofSize := none, locals := some l, promise := .pending }).promise with
          | pending => simp [Promise.isResolved]
          | resolved status => simp [Promise.isResolved]
          | rejected e => exact absurd settled (unrejected e)

/-! ## Handlers that answer -/

/-- The promise of the submission is settled once its sending ended. -/
def Submission.Ends (x : Sending) : Submission → Prop
  | .transferFunds _ _ => True
  | .addUser _ _ _ passesRes => RegistrationSettles passesRes x

/-- Every promise the handler comes to await is settled. -/
def AllEnd : List Await → List Attempt → Prop
  | [], _ => True
  | .timer :: awaits, ts => AllEnd awaits ts
  | .submission _ :: _, [] => False
  | .submission s :: awaits, t :: ts =>
      s.Ends t.sending ∧ (s.Settles t.sending → AllEnd awaits ts)

theorem Submission.settle_settles_iff (locals : Locals) {t : Attempt} (ended : t.sending.Ended)
    (s : Submission) : (s.settle locals t).1 ≠ .pending ↔ s.Ends t.sending := by
  cases s with
  | transferFunds recipient amount =>
      refine iff_of_true ?_ trivial
      rw [Submission.settle, Ne, Promise.map_eq_pending_iff]
      exact transferFunds_settles ended
  | addUser newAccount userInfo role passesRes =>
      rw [Submission.settle, Ne, Promise.map_eq_pending_iff]
      refine (addUser_settles_iff _ _ _ _).trans ?_
      cases passesRes <;> exact Iff.rfl

theorem Handler.finish_answers (h : Handler) (disk : Except String Unit) (locals : Locals) :
    (h.finish disk locals).response.isSome = true := by
  unfold Handler.finish
  cases h.line with
  | none => rfl
  | some line => cases disk <;> rfl

/-- A handler whose transactions end answers exactly when every promise it comes to await
is settled. -/
theorem Handler.respond_answered_iff (h : Handler) (disk : Except String Unit)
    (awaits : List Await) (ts : List Attempt) (locals : Locals)
    (ended : ∀ t ∈ ts, t.sending.Ended) :
    (h.respond disk awaits ts locals).response.isSome = true ↔ AllEnd awaits ts := by
  fun_induction Handler.respond h disk awaits ts locals with
  | case1 ts locals => exact iff_of_true (h.finish_answers disk locals) trivial
  | case2 awaits ts locals ih => exact ih ended
  | case3 s awaits locals => simp [AllEnd]
  | case4 s awaits t ts locals locals' settled =>
      have hangs := s.settle_settles_iff locals (ended t List.mem_cons_self)
      rw [settled] at hangs
      simp [AllEnd, ← hangs]
  | case5 s awaits t ts locals e locals' settled =>
      have ends := s.settle_settles_iff locals (ended t List.mem_cons_self)
      have unresolved := s.settle_isResolved locals t
      rw [settled] at ends unresolved
      simp [AllEnd, ← ends, ← unresolved, Promise.isResolved]
  | case6 s awaits t ts locals value locals' settled ih =>
      have ends := s.settle_settles_iff locals (ended t List.mem_cons_self)
      have resolved := s.settle_isResolved locals t
      rw [settled] at ends resolved
      rw [ih fun t' later => ended t' (List.mem_cons_of_mem t later)]
      simp [AllEnd, ← ends, ← resolved, Promise.isResolved]

/-! ## The four routes -/

/-- The attempts of a route: its transfer, where it makes one, and its registration. -/
def Route.attempts (t u : Attempt) : Route → List Attempt
  | .createUser => [u]
  | _ => [t, u]

/-- When a route answers, by how its two sendings end. -/
def Route.Answers (keyring : Keyring) (generated : String) (b : CreateUserBody) (x y : Sending) :
    Route → Prop
  | .createUser =>
      (∃ newAccount, createNewAccount keyring generated none = .ok newAccount) ∧
        RegistrationSettles true y
  | .createUserBasedOnPersonalizedMnemonic =>
      (∃ newAccount, createNewAccount keyring generated b.address = .ok newAccount) ∧
        (FinalizesFirst x.notifications → RegistrationSettles false y)
  | .createUserWithExistingAddress =>
      (∃ address, keyring.encodeAddress b.address = .ok address) →
        FinalizesFirst x.notifications → RegistrationSettles false y
  | .createUserWithDynamicGas =>
      (∃ newAccount, createNewAccount keyring generated none = .ok newAccount) →
        FinalizesFirst x.notifications → RegistrationSettles true y

/-- **Which requests are answered.**  Once its transactions have ended, the promise of a
transfer is settled, that of a registration where `addUser` has a `res` and the
transaction failed to be sent or was finalized, and a route answers exactly when the
promises it comes to await are settled. -/
theorem request_answered_iff (keyring : Keyring) (generated : String) (b : CreateUserBody)
    (disk : Except String Unit) (t u : Attempt) (route : Route) (transferEnded : t.sending.Ended)
    (registrationEnded : u.sending.Ended) :
    transferFunds t.sending ≠ .pending ∧
      (∀ locals, (addUser u.tip u.numberTransaction locals u.sending).promise ≠ .pending ↔
        RegistrationSettles locals.isSome u.sending) ∧
      (((route.enter keyring generated b).respond disk (route.attempts t u)).response.isSome = true ↔
        route.Answers keyring generated b t.sending u.sending) := by
  refine ⟨transferFunds_settles transferEnded, fun locals => addUser_settles_iff _ _ locals _, ?_⟩
  have both : ∀ a ∈ [t, u], a.sending.Ended := by
    simpa using ⟨transferEnded, registrationEnded⟩
  have one : ∀ a ∈ [u], a.sending.Ended := by simpa using registrationEnded
  cases route with
  | createUser =>
      simp only [Route.enter, createUser, Route.Answers, Route.attempts]
      cases created : createNewAccount keyring generated none with
      | error e => simp [Entry.respond]
      | ok newAccount =>
          simp only [Entry.respond]
          rw [Handler.respond_answered_iff _ disk _ _ _ one]
          simp [AllEnd, Submission.Ends]
  | createUserBasedOnPersonalizedMnemonic =>
      simp only [Route.enter, createUserBasedOnPersonalizedMnemonic, Route.Answers, Route.attempts]
      cases created : createNewAccount keyring generated b.address with
      | error e => simp [Entry.respond]
      | ok newAccount =>
          simp only [Entry.respond]
          rw [Handler.respond_answered_iff _ disk _ _ _ both]
          simp [AllEnd, Submission.Ends, Submission.Settles]
  | createUserWithExistingAddress =>
      simp only [Route.enter, createUserWithExistingAddress, Route.Answers, Route.attempts]
      cases encoded : keyring.encodeAddress b.address with
      | error e => simp [Entry.respond]
      | ok address =>
          simp only [Entry.respond]
          rw [Handler.respond_answered_iff _ disk _ _ _ both]
          simp [AllEnd, Submission.Ends, Submission.Settles]
  | createUserWithDynamicGas =>
      simp only [Route.enter, createUserWithDynamicGas, Route.Answers, Route.attempts]
      cases created : createNewAccount keyring generated none with
      | error e => simp [Entry.respond]
      | ok newAccount =>
          simp only [Entry.respond]
          rw [Handler.respond_answered_iff _ disk _ _ _ both]
          simp [AllEnd, Submission.Ends, Submission.Settles]

/-- The notifications of a transaction that the node finds invalid. -/
def invalidNotifications : List Notification := [⟨.ready, []⟩, ⟨.invalid, []⟩]

/-- Two requests that hang: one whose transactions both succeed, on a route that passes no
`res`, and one whose registration ends as invalid. -/
theorem ended_requests_hang :
    (¬ ∀ keyring generated b disk (t u : Attempt), t.sending.Ended → u.sending.Ended →
        ((Route.createUserBasedOnPersonalizedMnemonic.enter keyring generated b).respond disk
          [t, u]).response.isSome = true) ∧
      ¬ ∀ keyring generated b disk (t u : Attempt), t.sending.Ended → u.sending.Ended →
        ((Route.createUserWithDynamicGas.enter keyring generated b).respond disk
          [t, u]).response.isSome = true := by
  have succeeded : (Sending.accepted succeededNotifications).Ended := ⟨_, rfl, rfl⟩
  have invalid : (Sending.accepted invalidNotifications).Ended := ⟨_, rfl, rfl⟩
  constructor
  · intro claim
    have answered := claim oneAddress "mnemonic" ⟨none, Contract.alice, 0⟩ (.ok ())
      ⟨1, 1, .accepted succeededNotifications⟩ ⟨1, 1, .accepted succeededNotifications⟩ succeeded
      succeeded
    exact absurd answered (by decide)
  · intro claim
    have answered := claim oneAddress "mnemonic" ⟨none, Contract.alice, 0⟩ (.ok ())
      ⟨1, 1, .accepted succeededNotifications⟩ ⟨1, 1, .accepted invalidNotifications⟩ succeeded
      invalid
    exact absurd answered (by decide)

/-- The route with dynamic gas answers where both transactions are finalized. -/
theorem request_answered_iff_finalized :
    ((Route.createUserWithDynamicGas.enter oneAddress "mnemonic" ⟨none, Contract.alice, 0⟩).respond
      (.ok ()) [⟨1, 1, .accepted succeededNotifications⟩,
        ⟨1, 1, .accepted failedNotifications⟩]).response.isSome = true := by
  refine (request_answered_iff oneAddress "mnemonic" ⟨none, Contract.alice, 0⟩ (.ok ())
    ⟨1, 1, .accepted succeededNotifications⟩ ⟨1, 1, .accepted failedNotifications⟩
    .createUserWithDynamicGas ⟨_, rfl, rfl⟩ ⟨_, rfl, rfl⟩).2.2.mpr fun _ _ => ⟨rfl, ?_⟩
  exact ⟨⟨.finalized, [⟨"system", "ExtrinsicFailed", []⟩]⟩, by decide, rfl⟩

end PatientAccess.Server
