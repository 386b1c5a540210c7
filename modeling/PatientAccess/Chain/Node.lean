/-
# Chain.Node -- the server, its node and the contract

The server's transactions are all signed by Alice.  The node accepts them in the order
they are sent, which is not the order of their nonces; it executes one of an account only
when all with smaller nonces were executed.  A transaction executed uses its nonce up
whether it succeeds or not, and one that the node drops never uses it.

`network` puts the server of `Server.EventLoop`, this pool and the contract together; any
other account may call the contract at any time (`foreign`).  The server is a component of
it, the contract a part it drives.

`Chain.Order` says in which order transactions are executed, `Chain.Registry` what the
contract comes to hold.
-/
import PatientAccess.Contract.Messages
import PatientAccess.Server.Nonce
import PatientAccess.Server.Accounts

namespace PatientAccess.Chain

open PatientAccess.Theory
open PatientAccess.Contract (AccountId Call Env Reply contract)
open PatientAccess.Server

set_option autoImplicit false

/-! ## The system -/

/-- What the system is made of: the server, the account that signs, and how the contract
reads the account argument of a transaction. -/
structure Network where
  server : Config
  alice : AccountId
  accountId : Option String → AccountId

/-- A transaction executed, and whether it succeeded. -/
structure Receipt where
  submission : Submission
  succeeded : Bool

structure State where
  server : ServerState
  /-- Accepted by the node and not executed: nonce and transaction. -/
  pool : List (Nat × Submission)
  receipts : List Receipt
  dropped : List Nat
  env : Env

inductive Step where
  | loop (e : LoopStep)
  /-- The node executes the transaction whose turn it is; `fits` is whether its gas and
  deposits suffice. -/
  | execute (fits : Bool)
  | drop (nonce : Nat)
  /-- Somebody else's transaction calls the contract. -/
  | foreign (call : Call)

/-- The `u8` a number is encoded as; for numbers from 256 on there is none, and nothing is
built with them. -/
def encodeU8 (n : Nat) : Option UInt8 := if n < 256 then some (UInt8.ofNat n) else none

namespace Network

variable (net : Network)

/-- The contract call a transaction of the server makes. -/
def call (s : Submission) : Option Call :=
  s.addUserTx.bind fun tx => (encodeU8 tx.role).map fun role =>
    { caller := net.alice
      message := .addUser (net.accountId tx.accountId) tx.userInfo role }

/-- A message that returns `Err` reverts, and its transaction fails. -/
def isOk : Reply → Bool
  | .result (.error _) => false
  | _ => true

/-- What a transaction executed calls; one that does not fit calls nothing. -/
def callsWhen (fits : Bool) (s : Submission) : Option Call := if fits then net.call s else none

def succeeds (env : Env) (fits : Bool) (s : Submission) : Bool :=
  fits && (net.call s).all fun call => isOk (contract.step env call).1

/-- Alice's next nonce on the chain: `init` reads the first one there. -/
def next (s : State) : Nat := net.server.globals.aliceNonce + s.receipts.length

/-- The transaction whose turn it is. -/
def turn (s : State) : Option (Nat × Submission) :=
  s.pool.find? fun p => decide (p.1 = net.next s)

end Network

/-- What a request hands to the node in a step: the node accepts it. -/
def requestSubmits : Request → RequestStep → Option (Nat × Submission)
  | .sending u, .answer none => some (u.ticket.nonce, u.submission)
  | _, _ => none

def submits (s : ServerState) : LoopStep → Option (Nat × Submission)
  | .arrive _ _ _ _ => none
  | .request id e => s.requests[id]?.bind fun r => requestSubmits r e

/-- Transaction `p` is executed. -/
def State.execute (net : Network) (s : State) (fits : Bool) (p : Nat × Submission) : State :=
  { s with
    pool := s.pool.eraseP fun q => decide (q.1 = p.1)
    receipts := s.receipts ++ [⟨p.2, net.succeeds s.env fits p.2⟩]
    env := contract.runFrom s.env (net.callsWhen fits p.2).toList }

def State.drop (s : State) (p : Nat × Submission) : State :=
  { s with
    pool := s.pool.eraseP fun q => decide (q.1 = p.1)
    dropped := s.dropped ++ [p.1] }

/-- One step; one that cannot take place changes nothing. -/
def networkStep (net : Network) (s : State) : Step → Tickets.Move × State
  | .loop e =>
      let (m, server) := (Server.server net.server).step s.server e
      (m, { s with server, pool := s.pool ++ (submits s.server e).toList })
  | .execute fits => (.idle, ((net.turn s).map (s.execute net fits)).getD s)
  | .drop nonce =>
      (.idle, ((s.pool.find? fun p => decide (p.1 = nonce)).map s.drop).getD s)
  | .foreign call => (.idle, { s with env := (contract.step s.env call).2 })

def network (net : Network) : Machine State Step Tickets.Move where
  start :=
    { server := (Server.server net.server).start
      pool := []
      receipts := []
      dropped := []
      env := contract.start }
  step := networkStep net

/-! ## What a step can do -/

theorem call_eq_some {net : Network} {s : Submission} {call : Call} (makes : net.call s = some call) :
    ∃ tx role, s.addUserTx = some tx ∧ encodeU8 tx.role = some role ∧
      call = ⟨net.alice, .addUser (net.accountId tx.accountId) tx.userInfo role⟩ := by
  obtain ⟨tx, has, makes⟩ := Option.bind_eq_some_iff.mp makes
  obtain ⟨role, encoded, rfl⟩ := Option.map_eq_some_iff.mp makes
  exact ⟨tx, role, has, encoded, rfl⟩

theorem network_step_execute (net : Network) (s : State) (fits : Bool) :
    (net.turn s = none ∧ (network net).step s (.execute fits) = (.idle, s)) ∨
      ∃ p, net.turn s = some p ∧
        (network net).step s (.execute fits) = (.idle, s.execute net fits p) := by
  simp only [network, networkStep]
  cases net.turn s with
  | none => exact .inl ⟨rfl, rfl⟩
  | some p => exact .inr ⟨p, rfl, rfl⟩

theorem network_step_drop (net : Network) (s : State) (nonce : Nat) :
    (network net).step s (.drop nonce) = (.idle, s) ∨
      ∃ p, (s.pool.find? fun q => decide (q.1 = nonce)) = some p ∧
        (network net).step s (.drop nonce) = (.idle, s.drop p) := by
  simp only [network, networkStep]
  cases s.pool.find? fun q => decide (q.1 = nonce) with
  | none => exact .inl rfl
  | some p => exact .inr ⟨p, rfl, rfl⟩

/-- The server's steps. -/
def Step.loop? : Step → Option LoopStep
  | .loop e => some e
  | _ => none

/-- The server does not notice the node. -/
def serverPart (net : Network) : (network net).Component (Server.server net.server) where
  view := State.server
  sel := Step.loop?
  view_start := rfl
  selected s e k chosen := by
    cases e with
    | loop e =>
        cases chosen
        exact ⟨rfl, rfl⟩
    | execute fits => cases chosen
    | drop nonce => cases chosen
    | foreign call => cases chosen
  other s e ignored := by
    cases e with
    | loop e => cases ignored
    | execute fits =>
        rcases network_step_execute net s fits with ⟨-, same⟩ | ⟨p, -, next⟩
        · rw [same]
        · rw [next]
          rfl
    | drop nonce =>
        rcases network_step_drop net s nonce with same | ⟨p, -, next⟩
        · rw [same]
        · rw [next]
          rfl
    | foreign call => rfl

/-- What a step calls of the contract. -/
def State.calls (net : Network) (s : State) : Step → Option Call
  | .execute fits => (net.turn s).bind fun p => net.callsWhen fits p.2
  | .foreign call => some call
  | _ => none

/-- The contract goes by the calls it is given. -/
def contractPart (net : Network) : (network net).Driver contract where
  view := State.env
  command := State.calls net
  view_start := rfl
  driven s e := by
    cases e with
    | loop e => rfl
    | execute fits =>
        rcases network_step_execute net s fits with ⟨idle, same⟩ | ⟨p, turn, next⟩
        · rw [same, State.calls, idle]
          rfl
        · rw [next, State.calls, turn]
          rfl
    | drop nonce =>
        rcases network_step_drop net s nonce with same | ⟨p, -, next⟩
        · rw [same]
          rfl
        · rw [next]
          rfl
    | foreign call => rfl

/-- The server's own steps of a run. -/
def loopSteps (es : List Step) : List LoopStep := es.filterMap Step.loop?

/-- The calls a run makes of the contract, in order. -/
def calls (net : Network) (es : List Step) : List Call := (contractPart net).commands es

theorem network_server (net : Network) (es : List Step) :
    ((network net).run es).server = (Server.server net.server).run (loopSteps es) :=
  (serverPart net).view_run es

theorem network_env (net : Network) (es : List Step) :
    ((network net).run es).env = contract.run (calls net es) :=
  (contractPart net).view_run es

/-! ## A small network -/

/-- A network in which the mnemonic is the address, with two accounts. -/
def twoAccounts : Network where
  server := { nonceFive with
    keyring := { addressFromUri := .ok, encodeAddress := fun _ => .error "Decoding failed" } }
  alice := .from32 9
  accountId address := if address = some "first" then .from32 1 else .from32 2

/-- `POST /create_user` for Alice's data, up to the node's acceptance, as request `id`. -/
def registerSteps (id : Nat) (generated : String) (role : Nat) : List Step :=
  [.loop (.arrive .createUser generated ⟨none, Contract.alice, role⟩ noon),
    .loop (.request id (.timeout noon)), .loop (.request id (.build none)),
    .loop (.request id (.answer none))]

/-- Two registrations; the second reaches the node first. -/
def crossingSteps : List Step :=
  [.loop (.arrive .createUser "first" ⟨none, Contract.alice, 0⟩ noon),
    .loop (.arrive .createUser "second" ⟨none, Contract.alice, 1⟩ noon),
    .loop (.request 0 (.timeout noon)), .loop (.request 1 (.timeout noon)),
    .loop (.request 1 (.build none)), .loop (.request 1 (.answer none)),
    .loop (.request 0 (.build none)), .loop (.request 0 (.answer none))]

/-- The pool has nonce 6 before nonce 5; executed in order, both register. -/
example :
    let s := (network twoAccounts).run (crossingSteps ++ [.execute true, .execute true])
    ((network twoAccounts).run crossingSteps).pool.map Prod.fst = [6, 5] ∧
      s.receipts.map Receipt.succeeded = [true, true] ∧
      s.env.storage.getAccounts "12345678" = [.from32 1, .from32 2] := by
  decide

end PatientAccess.Chain
