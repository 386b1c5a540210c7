/-
# Server.Counters -- what the shared counters give to concurrent requests

Every submission takes a nonce and a tip from counters that all requests share, and a
registration also takes a transaction number.  Which submission takes when depends on
the whole state of the server, so the counters are a part of it that it drives itself
(`Machine.Driver`): `begun` are the submissions that began along a run, in order, and
`issued` what each was given.

What is issued does not depend on the interleaving but in who is next:

* the nonces are consecutive, and decremental tips run from one below the configured
  number down to 0, where they stay (`issued_ticket`);
* registrations are numbered from 1 within a burst, and a burst ends with a pause of
  more than `resetInterval` (`issued_numbers`).

A request keeps its own ticket, and what it reports of a registration is what that
registration was issued (`Server.Reports`).
-/
import PatientAccess.Server.EventLoop
import Mathlib.Data.List.SplitBy

namespace PatientAccess.Server

open PatientAccess.Theory

set_option autoImplicit false

/-! ## The counters as a machine -/

/-- A submission that begins, and the request it begins for. -/
structure Begin where
  id : Nat
  moment : Moment
  submission : Submission

def counters (g : Globals) : Machine Globals Begin Ticket where
  start := g
  step g b := b.submission.begin b.moment g

/-- The submission a handler begins when it goes on. -/
def begins (id : Nat) (w : Moment) : List Await → Option Begin
  | .submission s :: _ => some ⟨id, w, s⟩
  | _ => none

/-- A handler goes on from a timer that is over, or from a promise that resolved. -/
def Request.begins (id : Nat) : Request → RequestStep → Option Begin
  | .timer _ rest _, .timeout w => Server.begins id w rest
  | .sent u s, .resume w =>
      match u.submission.settle u.locals (u.attempt s) with
      | (.resolved _, _) => Server.begins id w u.rest
      | _ => none
  | _, _ => none

def Entry.begins (id : Nat) (w : Moment) : Entry → Option Begin
  | .runs h => Server.begins id w h.awaits
  | _ => none

def ServerState.begins (cfg : Config) (s : ServerState) : LoopStep → Option Begin
  | .arrive route generated b w =>
      (route.enter cfg.keyring generated b).begins s.requests.length w
  | .request id e => s.requests[id]?.bind fun r => r.begins id e

theorem Handler.goOn_counters (first : Globals) (h : Handler) (id : Nat) (w : Moment) (g : Globals)
    (locals : Locals) (awaits : List Await) :
    (h.goOn w g locals awaits).2.2 = (counters first).runFrom g (begins id w awaits).toList := by
  rcases awaits with _ | ⟨_ | s, rest⟩ <;> rfl

theorem Entry.arrive_counters (first : Globals) (id : Nat) (w : Moment) (g : Globals)
    (entry : Entry) :
    (entry.arrive w g).2.2 = (counters first).runFrom g (entry.begins id w).toList := by
  cases entry with
  | unhandled e => rfl
  | answered r => rfl
  | runs h => exact h.goOn_counters first id w g .fresh h.awaits

theorem Request.step_counters (first : Globals) {g g' : Globals} {r r' : Request} {e : RequestStep}
    {m : Tickets.Move} (id : Nat) (stepped : r.step g e = some (m, r', g')) :
    g' = (counters first).runFrom g (r.begins id e).toList := by
  revert stepped
  fun_cases Request.step g r e with
  | case1 h rest locals w =>
      intro stepped
      have next := h.goOn_counters first id w g locals rest
      rw [Option.some.inj stepped] at next
      exact next
  | case2 u | case3 u error | case4 u | case5 u error | case6 u ns n =>
      intro stepped
      cases stepped
      rfl
  | case7 u s w locals settled =>
      intro stepped
      cases stepped
  | case8 u s w error locals settled =>
      intro stepped
      cases stepped
      simp only [Request.begins, settled]
      rfl
  | case9 u s w value locals settled =>
      intro stepped
      have next := u.handler.goOn_counters first id w g locals u.rest
      rw [Option.some.inj stepped] at next
      simp only [Request.begins, settled]
      exact next
  | case10 =>
      intro stepped
      cases stepped

/-- A request that cannot take the step begins nothing. -/
theorem Request.begins_of_stuck {g : Globals} {r : Request} {e : RequestStep} (id : Nat)
    (stuck : r.step g e = none) : r.begins id e = none := by
  revert stuck
  fun_cases Request.step g r e with
  | case1 h rest locals w | case2 u | case3 u error | case4 u | case5 u error | case6 u ns n =>
      intro stuck
      cases stuck
  | case7 u s w locals settled =>
      intro _
      simp only [Request.begins, settled]
  | case8 u s w error locals settled | case9 u s w value locals settled =>
      intro stuck
      cases stuck
  | case10 r e timer build throws answer refuse notify resume =>
      intro _
      unfold Request.begins
      split
      · exact absurd rfl (timer _ _ _ _ rfl)
      · exact absurd rfl (resume _ _ _ rfl)
      · rfl

/-- What one step for request `id` can do: nothing, or what the request does. -/
theorem server_step_request (cfg : Config) (s : ServerState) (id : Nat) (e : RequestStep) :
    (s.requests[id]?.bind (fun r => r.step s.globals e) = none ∧
        (server cfg).step s (.request id e) = (.idle, s)) ∨
      ∃ r m r' g, s.requests[id]? = some r ∧ r.step s.globals e = some (m, r', g) ∧
        (server cfg).step s (.request id e) =
          (m, { globals := g
                requests := s.requests.set id r'
                accepted := s.accepted ++ m.used.toList }) := by
  cases moved : s.requests[id]?.bind fun r => r.step s.globals e with
  | none => exact .inl ⟨rfl, by simp only [server, serverStep, moved]⟩
  | some result =>
      obtain ⟨m, r', g⟩ := result
      obtain ⟨r, found, stepped⟩ := Option.bind_eq_some_iff.mp moved
      exact .inr ⟨r, m, r', g, found, stepped, by simp only [server, serverStep, moved]⟩

/-- A step that does nothing begins nothing. -/
theorem ServerState.begins_of_stuck (cfg : Config) {s : ServerState} {id : Nat} {e : RequestStep}
    (stuck : s.requests[id]?.bind (fun r => r.step s.globals e) = none) :
    s.begins cfg (.request id e) = none := by
  simp only [ServerState.begins]
  cases found : s.requests[id]? with
  | none => rfl
  | some r =>
      rw [found, Option.bind_some] at stuck
      exact Request.begins_of_stuck id stuck

theorem ServerState.begins_of_found (cfg : Config) {s : ServerState} {id : Nat} {r : Request}
    (found : s.requests[id]? = some r) (e : RequestStep) :
    s.begins cfg (.request id e) = r.begins id e := by
  rw [ServerState.begins, found, Option.bind_some]

/-- The server drives its counters by the submissions that begin. -/
def countersDriver (cfg : Config) : (server cfg).Driver (counters cfg.globals) where
  view := ServerState.globals
  command := ServerState.begins cfg
  view_start := rfl
  driven s e := by
    cases e with
    | arrive route generated b w =>
        exact Entry.arrive_counters cfg.globals s.requests.length w s.globals _
    | request id e =>
        rcases server_step_request cfg s id e with ⟨stuck, same⟩ | ⟨r, m, r', g, found, stepped, next⟩
        · rw [same, ServerState.begins_of_stuck cfg stuck]
          rfl
        · rw [next, ServerState.begins_of_found cfg found]
          exact Request.step_counters cfg.globals id stepped

/-- The submissions that began along a run, in order. -/
def begun (cfg : Config) (es : List LoopStep) : List Begin := (countersDriver cfg).commands es

/-- What they were issued. -/
def issued (cfg : Config) (es : List LoopStep) : List (Begin × Ticket) :=
  (counters cfg.globals).trace (begun cfg es)

/-! ## Nonces and tips -/

/-- The tip of submission number `k`, counted from 0. -/
def TipManager.tipAt (t : TipManager) (random k : Nat) : Nat :=
  if t.isTipRandom then t.generateRandomTip random else t.decrementalTip - (k + 1)

/-- Drawing a tip moves the schedule on by one. -/
theorem TipManager.getTip_tipAt (t : TipManager) (random : Nat) :
    (t.getTip random).1 = t.tipAt random 0 ∧
      ∀ random' k, (t.getTip random).2.tipAt random' k = t.tipAt random' (k + 1) := by
  unfold TipManager.getTip TipManager.tipAt
  cases kind : t.isTipRandom with
  | true => simp [kind, generateRandomTip]
  | false =>
      have drawn : (if 0 < t.decrementalTip then t.decrementalTip - 1 else t.decrementalTip) =
          t.decrementalTip - 1 := by
        split <;> omega
      simp only [Bool.false_eq_true, if_false, TipManager.getDecrementalTip, kind, drawn]
      refine ⟨trivial, fun _ k => ?_⟩
      show t.decrementalTip - 1 - (k + 1) = t.decrementalTip - (k + 1 + 1)
      omega

theorem Submission.begin_tip (w : Moment) (g : Globals) (s : Submission) :
    (s.begin w g).1.tip = (g.tips.getTip w.random).1 ∧
      (s.begin w g).2.tips = (g.tips.getTip w.random).2 := by
  cases s <;> exact ⟨rfl, rfl⟩

theorem Submission.begin_aliceNonce (w : Moment) (g : Globals) (s : Submission) :
    (s.begin w g).1.nonce = g.aliceNonce ∧ (s.begin w g).2.aliceNonce = g.aliceNonce + 1 := by
  cases s <;> exact ⟨rfl, rfl⟩

theorem counters_ticket (first : Globals) (bs : List Begin) (g : Globals) {k : Nat} {b : Begin}
    {t : Ticket} (given : ((counters first).traceFrom g bs)[k]? = some (b, t)) :
    t.nonce = g.aliceNonce + k ∧ t.tip = g.tips.tipAt b.moment.random k := by
  induction bs generalizing g k with
  | nil => simp [Machine.traceFrom] at given
  | cons next bs ih =>
      obtain ⟨nonce, nonces⟩ := next.submission.begin_aliceNonce next.moment g
      obtain ⟨tip, tips⟩ := next.submission.begin_tip next.moment g
      obtain ⟨now, later⟩ := g.tips.getTip_tipAt next.moment.random
      cases k with
      | zero =>
          cases given
          exact ⟨nonce, tip.trans now⟩
      | succ k =>
          obtain ⟨nonce', tip'⟩ := ih _ given
          have moved : ((counters first).step g next).2 = (next.submission.begin next.moment g).2 :=
            rfl
          rw [moved, nonces] at nonce'
          rw [moved, tips, later] at tip'
          exact ⟨by omega, tip'⟩

/-- **The schedule.**  Whatever the interleaving, submission number `k` has the `k`-th
nonce and the `k`-th tip. -/
theorem issued_ticket (cfg : Config) (es : List LoopStep) {k : Nat} {b : Begin} {t : Ticket}
    (given : (issued cfg es)[k]? = some (b, t)) :
    t.nonce = cfg.globals.aliceNonce + k ∧ t.tip = cfg.globals.tips.tipAt b.moment.random k :=
  counters_ticket cfg.globals _ _ given

theorem counters_aliceNonce (first : Globals) (bs : List Begin) (g : Globals) :
    ((counters first).runFrom g bs).aliceNonce = g.aliceNonce + bs.length := by
  induction bs generalizing g with
  | nil => rfl
  | cons b bs ih =>
      obtain ⟨-, nonces⟩ := b.submission.begin_aliceNonce b.moment g
      rw [Machine.runFrom, ih]
      show (b.submission.begin b.moment g).2.aliceNonce + bs.length = g.aliceNonce + (b :: bs).length
      rw [nonces, List.length_cons]
      omega

/-- The nonce counter counts the submissions that began. -/
theorem server_aliceNonce (cfg : Config) (es : List LoopStep) :
    ((server cfg).run es).globals.aliceNonce = cfg.globals.aliceNonce + (begun cfg es).length := by
  have here : ((server cfg).run es).globals = (counters cfg.globals).run (begun cfg es) :=
    (countersDriver cfg).view_run es
  rw [here]
  exact counters_aliceNonce cfg.globals _ cfg.globals

/-! ## Transaction numbers -/

def Submission.isAddUser : Submission → Bool
  | .transferFunds _ _ => false
  | .addUser _ _ _ _ => true

/-- The times at which registrations began. -/
def registrationTimes (bs : List Begin) : List Nat :=
  (bs.filter fun b => b.submission.isAddUser).map fun b => b.moment.currentTime

/-- The transaction numbers registrations were issued. -/
def registrationNumbers (l : List (Begin × Ticket)) : List Nat :=
  (l.filter fun bt => bt.1.submission.isAddUser).map fun bt => bt.2.numberTransaction

/-- The numbers the transaction counter gives at these times. -/
def TransactionCounter.numbers : TransactionCounter → List Nat → List Nat
  | _, [] => []
  | c, time :: times =>
      (c.updateTransactionCount time).transactionCount ::
        (c.updateTransactionCount time).numbers times

/-- One transaction follows another soon enough for the counter to go on. -/
def soonAfter (before time : Nat) : Bool := decide (time ≤ before + resetInterval)

/-- The times cut at each pause of more than `resetInterval`. -/
def bursts (times : List Nat) : List (List Nat) := times.splitBy soonAfter

theorem registrationNumbers_traceFrom (first : Globals) (bs : List Begin) (g : Globals) :
    registrationNumbers ((counters first).traceFrom g bs) =
      g.counter.numbers (registrationTimes bs) := by
  induction bs generalizing g with
  | nil => rfl
  | cons b bs ih =>
      obtain ⟨id, w, s⟩ := b
      cases s with
      | transferFunds recipient amount => exact ih _
      | addUser newAccount userInfo role passesRes => exact congrArg _ (ih _)

theorem TransactionCounter.updateTransactionCount_of_soonAfter {c : TransactionCounter} {time : Nat}
    (soon : soonAfter c.lastTransactionTime time = true) :
    c.updateTransactionCount time = ⟨c.transactionCount + 1, time⟩ := by
  have late : ¬ c.lastTransactionTime + resetInterval < time := by
    have := of_decide_eq_true soon
    omega
  simp [updateTransactionCount, late]

/-- The counter starts anew after a pause, and when nothing was counted yet. -/
theorem TransactionCounter.updateTransactionCount_first {c : TransactionCounter} {time : Nat}
    (anew : c.transactionCount = 0 ∨ soonAfter c.lastTransactionTime time = false) :
    c.updateTransactionCount time = ⟨1, time⟩ := by
  by_cases late : c.lastTransactionTime + resetInterval < time
  · simp [updateTransactionCount, late]
  · have soon : soonAfter c.lastTransactionTime time = true := by
      simp only [soonAfter, decide_eq_true_eq]
      omega
    have nothing : c.transactionCount = 0 := by simpa [soon] using anew
    simp [updateTransactionCount, late, nothing]

/-- Within a burst the counter counts, and then goes on from the burst's end. -/
theorem TransactionCounter.numbers_burst (burst more : List Nat) (count last : Nat)
    (chain : (last :: burst).IsChain fun a b => soonAfter a b) :
    (TransactionCounter.mk count last).numbers (burst ++ more) =
      List.range' (count + 1) burst.length ++
        (TransactionCounter.mk (count + burst.length)
          ((last :: burst).getLast (List.cons_ne_nil _ _))).numbers more := by
  induction burst generalizing count last with
  | nil => rfl
  | cons time burst ih =>
      obtain ⟨soon, rest⟩ := List.isChain_cons_cons.mp chain
      have step : (TransactionCounter.mk count last).updateTransactionCount time =
          ⟨count + 1, time⟩ := updateTransactionCount_of_soonAfter soon
      rw [List.cons_append, numbers, step, ih _ _ rest]
      simp only [List.length_cons, List.range'_succ, List.cons_append,
        List.getLast_cons (List.cons_ne_nil _ _)]
      rw [Nat.add_assoc count 1 burst.length, Nat.add_comm 1 burst.length]

theorem TransactionCounter.numbers_bursts (groups : List (List Nat)) (c : TransactionCounter)
    (nonempty : [] ∉ groups)
    (chains : ∀ burst ∈ groups, burst.IsChain fun a b => soonAfter a b)
    (pauses : groups.IsChain fun a b => ∃ ha hb, soonAfter (a.getLast ha) (b.head hb) = false)
    (anew : ∀ burst ∈ groups.head?, ∀ time ∈ burst.head?,
      c.transactionCount = 0 ∨ soonAfter c.lastTransactionTime time = false) :
    c.numbers groups.flatten = groups.flatMap fun burst => List.range' 1 burst.length := by
  induction groups generalizing c with
  | nil => rfl
  | cons burst groups ih =>
      rw [List.mem_cons, not_or] at nonempty
      obtain ⟨notEmpty, nonempty⟩ := nonempty
      match burst, notEmpty with
      | [], notEmpty => exact absurd rfl notEmpty
      | time :: burst, _ =>
          have start := c.updateTransactionCount_first (anew _ rfl time rfl)
          have chain := chains _ List.mem_cons_self
          rw [List.isChain_cons] at pauses
          rw [List.flatten_cons, List.cons_append, numbers, start, numbers_burst _ _ _ _ chain,
            List.flatMap_cons, List.length_cons, List.range'_succ, List.cons_append]
          have later := ih ⟨1 + burst.length, (time :: burst).getLast (List.cons_ne_nil _ _)⟩
            nonempty (fun b member => chains b (List.mem_cons_of_mem _ member)) pauses.2 ?_
          · rw [later]
          · intro next isNext first isFirst
            obtain ⟨_, hb, pause⟩ := pauses.1 next isNext
            rw [← List.head_of_mem_head? isFirst]
            exact .inr pause

/-- **Numbers within a burst.**  Registrations are numbered from 1 on, anew after each
pause of more than five seconds. -/
theorem issued_numbers (cfg : Config) (es : List LoopStep)
    (fresh : cfg.globals.counter.transactionCount = 0) :
    registrationNumbers (issued cfg es) =
      (bursts (registrationTimes (begun cfg es))).flatMap fun burst =>
        List.range' 1 burst.length := by
  have cut := TransactionCounter.numbers_bursts (bursts (registrationTimes (begun cfg es)))
    cfg.globals.counter (List.nil_notMem_splitBy _ _) (fun _ => List.isChain_of_mem_splitBy)
    (List.isChain_getLast_head_splitBy _ _) (fun _ _ _ _ => .inl fresh)
  rw [bursts, List.flatten_splitBy] at cut
  exact (registrationNumbers_traceFrom _ _ _).trans cut

/-- Three registrations, the last after a pause: numbers 1, 2 and 1. -/
theorem issued_numbers_pause :
    let cfg : Config :=
      { keyring := oneAddress
        globals :=
          { aliceNonce := 5
            tips := { totalTransactions := 100, isTipRandom := false, decrementalTip := 100 }
            counter := { transactionCount := 0, lastTransactionTime := 0 } } }
    let at_ : Nat → Moment := fun currentTime => { currentTime, random := 0, disk := .ok () }
    let arrive := LoopStep.arrive .createUser "mnemonic" ⟨none, Contract.alice, 0⟩ (at_ 0)
    let es := [arrive, arrive, arrive, .request 2 (.timeout (at_ 9000)),
      .request 0 (.timeout (at_ 9500)), .request 1 (.timeout (at_ 15000))]
    bursts (registrationTimes (begun cfg es)) = [[9000, 9500], [15000]] ∧
      registrationNumbers (issued cfg es) =
        (bursts (registrationTimes (begun cfg es))).flatMap fun burst =>
          List.range' 1 burst.length := by
  intro cfg at_ arrive es
  exact ⟨by decide, issued_numbers cfg es rfl⟩

end PatientAccess.Server
