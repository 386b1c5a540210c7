/-
# Server.EventLoop -- the creation routes under the event loop

The server serves any number of requests at once.  `server` runs them one step at a
time and in any order: a step takes one request from one of its await points to the
next, with the global counters as they are then.  The steps carry what the world
decides: the arriving bodies, whether a transaction can be built, whether the node
accepts it, its notifications, the time and the disk.

Requests do not see each other but in the counters.  Whatever the interleaving, a
request answers as its route does when run alone, on the submissions as they went
(`server_answers`).
-/
import PatientAccess.Theory.Machine
import PatientAccess.Theory.Tickets
import PatientAccess.Server.Routes

namespace PatientAccess.Server

open PatientAccess.Theory

set_option autoImplicit false

/-! ## The global counters -/

/-- `tip_manager.js`.  `totalTransactions` is never 0 there: `parseInt(..) || 100`. -/
structure TipManager where
  totalTransactions : Nat
  isTipRandom : Bool
  decrementalTip : Nat

namespace TipManager

/-- `random` is `Math.floor(Math.random() * totalTransactions)`. -/
def generateRandomTip (t : TipManager) (random : Nat) : Nat := random % t.totalTransactions + 1

def getDecrementalTip (t : TipManager) : Nat × TipManager :=
  let decrementalTip := if 0 < t.decrementalTip then t.decrementalTip - 1 else t.decrementalTip
  (decrementalTip, { t with decrementalTip })

def getTip (t : TipManager) (random : Nat) : Nat × TipManager :=
  if t.isTipRandom then (t.generateRandomTip random, t) else t.getDecrementalTip

end TipManager

structure TransactionCounter where
  transactionCount : Nat
  lastTransactionTime : Nat

/-- `resetInterval`, in milliseconds. -/
def resetInterval : Nat := 5000

def TransactionCounter.updateTransactionCount (c : TransactionCounter) (currentTime : Nat) :
    TransactionCounter :=
  let transactionCount :=
    if c.lastTransactionTime + resetInterval < currentTime then 0 else c.transactionCount
  { transactionCount := transactionCount + 1, lastTransactionTime := currentTime }

/-- The nonce to sign with, and the counter after it. -/
def getAndIncrementNonce (aliceNonce : Nat) : Nat × Nat := (aliceNonce, aliceNonce + 1)

structure Globals where
  aliceNonce : Nat
  tips : TipManager
  counter : TransactionCounter

/-- What the world gives a handler that goes on: the time, a random number, and how
`appendFileSync` would go. -/
structure Moment where
  currentTime : Nat
  random : Nat
  disk : Except String Unit

/-- What a submission takes before it builds its transaction. -/
structure Ticket where
  nonce : Nat
  tip : Nat
  numberTransaction : Nat

/-- The first lines of `transferFunds` and of `addUser`, up to their await. -/
def Submission.begin (w : Moment) (g : Globals) : Submission → Ticket × Globals
  | .transferFunds _ _ =>
      let (tip, tips) := g.tips.getTip w.random
      let (nonce, aliceNonce) := getAndIncrementNonce g.aliceNonce
      ({ nonce, tip, numberTransaction := g.counter.transactionCount },
        { aliceNonce, tips, counter := g.counter })
  | .addUser _ _ _ _ =>
      let counter := g.counter.updateTransactionCount w.currentTime
      let (tip, tips) := g.tips.getTip w.random
      let (nonce, aliceNonce) := getAndIncrementNonce g.aliceNonce
      ({ nonce, tip, numberTransaction := counter.transactionCount }, { aliceNonce, tips, counter })

/-! ## Requests -/

/-- A submission whose nonce is taken; `rest` is what the handler awaits after it. -/
structure Underway where
  handler : Handler
  submission : Submission
  rest : List Await
  locals : Locals
  ticket : Ticket

/-- Where a request is. -/
inductive Request where
  | timer (h : Handler) (rest : List Await) (locals : Locals)
  /-- `getAndIncrementNonce` is awaited; the transaction is not built. -/
  | nonceTaken (u : Underway)
  /-- `signAndSend` is called; the node has not answered. -/
  | sending (u : Underway)
  /-- How the sending went so far. -/
  | sent (u : Underway) (s : Sending)
  | closed (o : Outcome)

/-- What happens to one request. -/
inductive RequestStep where
  /-- The six seconds are over. -/
  | timeout (w : Moment)
  /-- The transaction is built and `signAndSend` called, or the building throws. -/
  | build (error : Option String)
  /-- The node accepts the transaction, or `signAndSend` rejects. -/
  | answer (error : Option String)
  | notify (n : Notification)
  /-- The handler goes on once the promise it awaits is settled. -/
  | resume (w : Moment)

/-- The nonce taken for a transaction the node has not answered for. -/
def Request.holds : Request → Option Nat
  | .nonceTaken u | .sending u => some u.ticket.nonce
  | _ => none

/-- A handler runs to its next await, or to its answer. -/
def Handler.goOn (h : Handler) (w : Moment) (g : Globals) (locals : Locals) :
    List Await → Tickets.Move × Request × Globals
  | [] => (.idle, .closed (h.finish w.disk locals), g)
  | .timer :: rest => (.idle, .timer h rest locals, g)
  | .submission s :: rest =>
      let (ticket, g) := s.begin w g
      (.take ticket.nonce, .nonceTaken ⟨h, s, rest, locals, ticket⟩, g)

def Underway.attempt (u : Underway) (s : Sending) : Attempt :=
  { tip := u.ticket.tip, numberTransaction := u.ticket.numberTransaction, sending := s }

/-- One step of a request; `none` where it cannot take place. -/
def Request.step (g : Globals) : Request → RequestStep → Option (Tickets.Move × Request × Globals)
  | .timer h rest locals, .timeout w => some (h.goOn w g locals rest)
  | .nonceTaken u, .build none => some (.idle, .sending u, g)
  | .nonceTaken u, .build (some error) =>
      some (.lose u.ticket.nonce, .sent u (.notBuilt error), g)
  | .sending u, .answer none => some (.use u.ticket.nonce, .sent u (.accepted []), g)
  | .sending u, .answer (some error) => some (.lose u.ticket.nonce, .sent u (.refused error), g)
  | .sent u (.accepted ns), .notify n => some (.idle, .sent u (.accepted (ns ++ [n])), g)
  | .sent u s, .resume w =>
      match u.submission.settle u.locals (u.attempt s) with
      | (.pending, _) => none
      | (.rejected e, locals) =>
          some (.idle, .closed { response := some (u.handler.fail e), appended := [], locals }, g)
      | (.resolved _, locals) => some (u.handler.goOn w g locals u.rest)
  | _, _ => none

/-- A request arrives: it runs to its first await, or is done at once. -/
def Entry.arrive (w : Moment) (g : Globals) : Entry → Tickets.Move × Request × Globals
  | .runs h => h.goOn w g .fresh h.awaits
  | e => (.idle, .closed (e.respond w.disk []), g)

/-! ## The server -/

inductive Route where
  | createUser
  | createUserBasedOnPersonalizedMnemonic
  | createUserWithExistingAddress
  | createUserWithDynamicGas
  deriving DecidableEq

def Route.enter (keyring : Keyring) (generated : String) (b : CreateUserBody) : Route → Entry
  | .createUser => Server.createUser keyring generated b
  | .createUserBasedOnPersonalizedMnemonic =>
      Server.createUserBasedOnPersonalizedMnemonic keyring generated b
  | .createUserWithExistingAddress => Server.createUserWithExistingAddress keyring b
  | .createUserWithDynamicGas => Server.createUserWithDynamicGas keyring generated b

/-- What the server starts with: `init` reads the nonce from the chain. -/
structure Config where
  keyring : Keyring
  globals : Globals

/-- The global counters, the requests in the order they arrived, and the nonces of the
transactions the node has accepted. -/
structure ServerState where
  globals : Globals
  requests : List Request
  accepted : List Nat

inductive LoopStep where
  | arrive (route : Route) (generated : String) (b : CreateUserBody) (w : Moment)
  | request (id : Nat) (e : RequestStep)

/-- One step of the event loop.  A step that cannot take place changes nothing. -/
def serverStep (cfg : Config) (s : ServerState) : LoopStep → Tickets.Move × ServerState
  | .arrive route generated b w =>
      let (m, r, g) := (route.enter cfg.keyring generated b).arrive w s.globals
      (m, { s with globals := g, requests := s.requests ++ [r] })
  | .request id e =>
      match s.requests[id]?.bind fun r => r.step s.globals e with
      | none => (.idle, s)
      | some (m, r, g) =>
          (m, { globals := g
                requests := s.requests.set id r
                accepted := s.accepted ++ m.used.toList })

def server (cfg : Config) : Machine ServerState LoopStep Tickets.Move where
  start := { globals := cfg.globals, requests := [], accepted := [] }
  step := serverStep cfg

/-! ## Requests answer as their routes do -/

/-- What is left of a request goes on as what is left of its route, after the
submissions so far. -/
def Request.Follows (entry : Entry) : Request → Prop
  | .timer h rest locals =>
      ∃ past, ∀ disk ts, entry.respond disk (past ++ ts) = h.respond disk rest ts locals
  | .nonceTaken u | .sending u | .sent u _ =>
      ∃ past, ∀ disk ts, entry.respond disk (past ++ ts) =
        u.handler.respond disk (.submission u.submission :: u.rest) ts u.locals
  | .closed o => ∃ disk ts, entry.respond disk ts = o

theorem Handler.goOn_follows {entry : Entry} {past : List Attempt} (h : Handler) (w : Moment)
    (g : Globals) {locals : Locals} {awaits : List Await}
    (same : ∀ disk ts, entry.respond disk (past ++ ts) = h.respond disk awaits ts locals) :
    (h.goOn w g locals awaits).2.1.Follows entry := by
  rcases awaits with _ | ⟨_ | s, rest⟩
  · exact ⟨w.disk, past ++ [], same w.disk []⟩
  · exact ⟨past, same⟩
  · exact ⟨past, same⟩

theorem Entry.arrive_follows (w : Moment) (g : Globals) (entry : Entry) :
    (entry.arrive w g).2.1.Follows entry := by
  cases entry with
  | unhandled e => exact ⟨w.disk, [], rfl⟩
  | answered r => exact ⟨w.disk, [], rfl⟩
  | runs h =>
      have same : ∀ disk ts,
          (Entry.runs h).respond disk ([] ++ ts) = h.respond disk h.awaits ts .fresh :=
        fun _ _ => rfl
      exact h.goOn_follows w g same

theorem Request.step_follows {entry : Entry} {g g' : Globals} {r r' : Request} {e : RequestStep}
    {m : Tickets.Move} (follows : r.Follows entry) (stepped : r.step g e = some (m, r', g')) :
    r'.Follows entry := by
  revert stepped follows
  fun_cases Request.step g r e with
  | case1 h rest locals w =>
      rintro ⟨past, same⟩ stepped
      have next := h.goOn_follows w g same
      rw [Option.some.inj stepped] at next
      exact next
  | case2 u | case3 u error | case4 u | case5 u error | case6 u ns n =>
      intro follows stepped
      cases stepped
      exact follows
  | case7 u s w locals settled =>
      intro _ stepped
      cases stepped
  | case8 u s w error locals settled =>
      rintro ⟨past, same⟩ stepped
      cases stepped
      refine ⟨w.disk, past ++ [u.attempt s], ?_⟩
      rw [same]
      simp only [Handler.respond, settled]
  | case9 u s w value locals settled =>
      rintro ⟨past, same⟩ stepped
      have onward : ∀ disk ts, entry.respond disk ((past ++ [u.attempt s]) ++ ts) =
          u.handler.respond disk u.rest ts locals := by
        intro disk ts
        rw [List.append_assoc, same]
        simp only [List.singleton_append, Handler.respond, settled]
      have next := u.handler.goOn_follows w g onward
      rw [Option.some.inj stepped] at next
      exact next
  | case10 =>
      intro _ stepped
      cases stepped

/-- The routes entered along a history, in the order the requests arrived. -/
def arrivals (cfg : Config) (h : List (LoopStep × Tickets.Move)) : List Entry :=
  h.filterMap fun io =>
    match io.1 with
    | .arrive route generated b _ => some (route.enter cfg.keyring generated b)
    | .request _ _ => none

theorem forall₂_set {entries : List Entry} {requests : List Request}
    (all : List.Forall₂ Request.Follows entries requests) {id : Nat} {r r' : Request}
    (found : requests[id]? = some r) (moved : ∀ entry, r.Follows entry → r'.Follows entry) :
    List.Forall₂ Request.Follows entries (requests.set id r') := by
  induction all generalizing id with
  | nil => cases found
  | cons head _ ih =>
      cases id with
      | zero =>
          cases found
          exact .cons (moved _ head) ‹_›
      | succ id => exact .cons head (ih found)

/-- Request by request, the state follows the routes entered. -/
theorem server_follows (cfg : Config) (es : List LoopStep) :
    List.Forall₂ Request.Follows (arrivals cfg ((server cfg).trace es))
      ((server cfg).run es).requests := by
  refine (server cfg).history_induct (R := fun s h =>
    List.Forall₂ Request.Follows (arrivals cfg h) s.requests) List.Forall₂.nil ?_ es
  intro s h e follows
  rw [arrivals, List.filterMap_append]
  cases e with
  | arrive route generated b w =>
      have newcomer := Entry.arrive_follows w s.globals (route.enter cfg.keyring generated b)
      exact List.rel_append follows (.cons newcomer .nil)
  | request id e =>
      rw [List.filterMap_cons_none rfl, List.filterMap_nil, List.append_nil]
      simp only [server, serverStep]
      cases moved : s.requests[id]?.bind fun r => r.step s.globals e with
      | none => exact follows
      | some result =>
          obtain ⟨m, r', g⟩ := result
          obtain ⟨r, found, stepped⟩ := Option.bind_eq_some_iff.mp moved
          exact forall₂_set follows found fun entry before => Request.step_follows before stepped

/-- **Interleaving changes no answer.**  Whatever other requests do in between, a request
that is done has the outcome of its route run alone. -/
theorem server_answers (cfg : Config) (es : List LoopStep) {id : Nat} {o : Outcome}
    (done : ((server cfg).run es).requests[id]? = some (.closed o)) :
    ∃ entry, (arrivals cfg ((server cfg).trace es))[id]? = some entry ∧
      ∃ disk ts, entry.respond disk ts = o := by
  have follows := server_follows cfg es
  obtain ⟨bound, isClosed⟩ := List.getElem?_eq_some_iff.mp done
  have arrived : id < (arrivals cfg ((server cfg).trace es)).length := by
    rw [follows.length_eq]
    exact bound
  have here := follows.get arrived bound
  simp only [List.get_eq_getElem, isClosed] at here
  exact ⟨_, List.getElem?_eq_getElem arrived, here⟩

end PatientAccess.Server
