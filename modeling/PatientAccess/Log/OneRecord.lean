/-
# Log.OneRecord -- how many records a request leaves in the text log

The text logger writes from a `finish` handler, and it registers one each time a request
meets it.  A request may be answered at any time after it was routed, or never; when it is,
its handlers run in the order of their registration, and one that throws ends the process.

`oneRecord_always_iff` says which runs leave exactly one record for every finished request:
those that finish only requests that meet the logger once and whose values can be printed.
A request for a role through the alias meets it twice.
-/
import PatientAccess.Server.Router
import PatientAccess.Log.TextLog
import PatientAccess.Theory.Machine

namespace PatientAccess.Log

open PatientAccess.Theory PatientAccess.Server

set_option autoImplicit false

/-! ## The server, as the text log sees it -/

/-- A request as it comes in. -/
structure Incoming where
  http : Http
  accepted : http.method ∈ httpMethods
  query : Json

/-- What one `finish` handler reads of the clock and of the machine. -/
structure Readings where
  time : Date
  duration : Int
  startCpu : Usage
  endCpu : Usage
  startMem : Usage
  endMem : Usage

/-- What is in `res.locals` when the request finishes. -/
structure Left where
  requestNumber : Json
  locals : Locals
  written : Written locals

/-- What a handler logs.  `express.json` leaves `{}` where it makes nothing of the body. -/
def Incoming.finished (request : Incoming) (left : Left) (readings : Readings) : FinishedRequest :=
  { method := request.http.method
    accepted := request.accepted
    originalUrl := request.http.url
    body := request.http.body.getD (.obj [])
    query := request.query
    requestNumber := left.requestNumber
    locals := left.locals
    written := left.written
    time := readings.time
    duration := readings.duration
    startCpu := readings.startCpu
    endCpu := readings.endCpu
    startMem := readings.startMem
    endMem := readings.endMem }

inductive Phase where
  | underway
  | dropped
  | finished
  deriving DecidableEq

def Phase.ofFate : Fate → Phase
  | .handled => .underway
  | .dropped => .dropped

/-- A request and the `finish` handlers the text logger registered for it. -/
structure Exchange where
  request : Incoming
  listeners : Nat
  phase : Phase

/-- The requests so far, the records with the request that each is of, and whether the
process has ended. -/
structure TextServer where
  exchanges : List Exchange
  log : List (Nat × List Char)
  crashed : Bool

inductive HttpEvent where
  | arrive (request : Incoming)
  | finish (i : Nat) (left : Left) (readings : Nat → Readings)

def Incoming.arrive (urls : Urls) (request : Incoming) : Exchange :=
  let handling := dispatch urls request.http
  { request := request
    listeners := handling.listeners
    phase := .ofFate handling.fate }

/-- The texts that handlers in order append, and whether one of them throws. -/
def emit : List FinishedRequest → List (List Char) × Bool
  | [] => ([], false)
  | r :: rs =>
      match logRequestToTxt r with
      | none => ([], true)
      | some logEntry =>
          let rest := emit rs
          (logEntry :: rest.1, rest.2)

/-- The handlers of a request: each has its own readings. -/
def Exchange.handlers (x : Exchange) (left : Left) (readings : Nat → Readings) :
    List FinishedRequest :=
  (List.range x.listeners).map fun k => x.request.finished left (readings k)

/-- The `finish` event of a request. -/
def TextServer.finish (s : TextServer) (i : Nat) (x : Exchange) (handlers : List FinishedRequest) :
    TextServer :=
  let emitted := emit handlers
  { exchanges := s.exchanges.set i { x with phase := .finished }
    log := s.log ++ emitted.1.map fun logEntry => (i, logEntry)
    crashed := emitted.2 }

def httpStep (urls : Urls) (s : TextServer) (e : HttpEvent) : TextServer :=
  if s.crashed then s
  else
    match e with
    | .arrive request => { s with exchanges := s.exchanges ++ [request.arrive urls] }
    | .finish i left readings =>
        match s.exchanges[i]? with
        | some x => if x.phase = .underway then s.finish i x (x.handlers left readings) else s
        | none => s

def httpServer (urls : Urls) : Machine TextServer HttpEvent Unit where
  start := ⟨[], [], false⟩
  step s e := ((), httpStep urls s e)

/-! ## One record each -/

/-- The records of a request. -/
def TextServer.records (s : TextServer) (i : Nat) : List (Nat × List Char) :=
  s.log.filter fun record => record.1 = i

/-- Every finished request ran one handler of the text logger and has one record. -/
def OneRecordEach (s : TextServer) : Prop :=
  ∀ i x, s.exchanges[i]? = some x → x.phase = .finished →
    x.listeners = 1 ∧ (s.records i).length = 1

/-- The request waits for its `finish` event. -/
structure TextServer.Waiting (s : TextServer) (i : Nat) (x : Exchange) : Prop where
  running : s.crashed = false
  present : s.exchanges[i]? = some x
  phase : x.phase = .underway

/-- A request that is finished meets the text logger once, and its values have a text. -/
def LoggedOnce (urls : Urls) (s : TextServer) : HttpEvent → Prop
  | .arrive _ => True
  | .finish i left readings =>
      ∀ x, s.Waiting i x →
        x.request.http.MeetsOnce urls ∧ (x.request.finished left (readings 0)).printable = true

/-! ## What a step does -/

section Steps

variable (urls : Urls) {s : TextServer} {i : Nat} {x : Exchange}

theorem httpStep_crashed (crashed : s.crashed = true) (e : HttpEvent) : httpStep urls s e = s := by
  simp [httpStep, crashed]

theorem httpStep_arrive (running : s.crashed = false) (request : Incoming) :
    httpStep urls s (.arrive request) =
      { s with exchanges := s.exchanges ++ [request.arrive urls] } := by
  simp [httpStep, running]

theorem httpStep_finish (waiting : s.Waiting i x) (left : Left) (readings : Nat → Readings) :
    httpStep urls s (.finish i left readings) = s.finish i x (x.handlers left readings) := by
  simp [httpStep, waiting.running, waiting.present, waiting.phase]

/-- A `finish` event for no waiting request does not happen. -/
theorem httpStep_idle (idle : ∀ x, ¬ s.Waiting i x) (left : Left) (readings : Nat → Readings) :
    httpStep urls s (.finish i left readings) = s := by
  cases running : s.crashed with
  | true => exact httpStep_crashed urls running _
  | false =>
      cases present : s.exchanges[i]? with
      | none => simp [httpStep, running, present]
      | some x =>
          have answered : x.phase ≠ .underway := fun phase => idle x ⟨running, present, phase⟩
          simp [httpStep, running, present, answered]

/-- A request with one handler leaves one record exactly when its values have a text. -/
theorem emit_handlers (one : x.listeners = 1) (left : Left) (readings : Nat → Readings) :
    (emit (x.handlers left readings)).1.length = 1 ↔
      (x.request.finished left (readings 0)).printable = true := by
  have single : x.handlers left readings = [x.request.finished left (readings 0)] := by
    rw [Exchange.handlers, one]
    rfl
  rw [single, emit, logRequestToTxt]
  cases (x.request.finished left (readings 0)).printable <;> simp [emit]

end Steps

/-! ## What holds of every run -/

/-- The handlers of a request were registered when it was routed, and the records are of
finished requests. -/
structure Consistent (urls : Urls) (s : TextServer) : Prop where
  listeners : ∀ (i : Nat) (x : Exchange), s.exchanges[i]? = some x →
    x.listeners = (dispatch urls x.request.http).listeners
  finished : ∀ record ∈ s.log, ∃ x, s.exchanges[record.1]? = some x ∧ x.phase = .finished

section Runs

variable {urls : Urls} {s : TextServer} {i : Nat} {x : Exchange}

/-- A request that waits has no record. -/
theorem Consistent.records_waiting (consistent : Consistent urls s) (waiting : s.Waiting i x) :
    s.records i = [] := by
  rw [TextServer.records, List.filter_eq_nil_iff]
  intro record logged same
  obtain ⟨y, present, finished⟩ := consistent.finished record logged
  rw [of_decide_eq_true same, waiting.present] at present
  cases present
  rw [waiting.phase] at finished
  cases finished

theorem records_finish (s : TextServer) (i : Nat) (x : Exchange) (handlers : List FinishedRequest)
    (j : Nat) :
    (s.finish i x handlers).records j =
      s.records j ++ if i = j then (emit handlers).1.map fun logEntry => (i, logEntry) else [] := by
  rw [TextServer.records, TextServer.finish, List.filter_append, List.filter_map]
  by_cases same : i = j <;> simp [same, TextServer.records, Function.comp_def]

theorem exchanges_finish (waiting : s.Waiting i x) (handlers : List FinishedRequest) (j : Nat) :
    (s.finish i x handlers).exchanges[j]? =
      if i = j then some { x with phase := .finished } else s.exchanges[j]? := by
  obtain ⟨inBounds, -⟩ := List.getElem?_eq_some_iff.mp waiting.present
  rw [TextServer.finish, List.getElem?_set]
  simp [inBounds]

/-- Finishing a request keeps the records of the others, so the rule holds after it exactly
when it holds of the request. -/
theorem oneRecordEach_finish (consistent : Consistent urls s) (each : OneRecordEach s)
    (waiting : s.Waiting i x) (handlers : List FinishedRequest) :
    OneRecordEach (s.finish i x handlers) ↔
      x.listeners = 1 ∧ (emit handlers).1.length = 1 := by
  have own : ((s.finish i x handlers).records i).length = (emit handlers).1.length := by
    rw [records_finish, consistent.records_waiting waiting]
    simp
  constructor
  · intro after
    have last := after i { x with phase := .finished } (by simp [exchanges_finish waiting]) rfl
    rwa [own] at last
  · intro one j y present finished
    rw [exchanges_finish waiting] at present
    by_cases same : i = j
    · subst same
      rw [if_pos rfl] at present
      cases present
      rwa [own]
    · rw [if_neg same] at present
      rw [records_finish, if_neg same, List.append_nil]
      exact each j y present finished

theorem Consistent.arrive (consistent : Consistent urls s) (request : Incoming) :
    Consistent urls { s with exchanges := s.exchanges ++ [request.arrive urls] } where
  listeners i x present := by
    rcases List.mem_append.mp (List.mem_of_getElem? present) with before | new
    · obtain ⟨j, earlier⟩ := List.getElem?_of_mem before
      exact consistent.listeners j x earlier
    · rw [List.mem_singleton] at new
      rw [new]
      rfl
  finished record logged := by
    obtain ⟨x, present, finished⟩ := consistent.finished record logged
    have earlier := (List.getElem?_eq_some_iff.mp present).1
    exact ⟨x, by rw [List.getElem?_append_left earlier, present], finished⟩

theorem Consistent.finish (consistent : Consistent urls s) (waiting : s.Waiting i x)
    (handlers : List FinishedRequest) : Consistent urls (s.finish i x handlers) where
  listeners j y present := by
    rw [exchanges_finish waiting] at present
    split at present
    · cases present
      exact consistent.listeners i x waiting.present
    · exact consistent.listeners j y present
  finished record logged := by
    rw [exchanges_finish waiting]
    split
    · exact ⟨_, rfl, rfl⟩
    · next other =>
      rw [TextServer.finish, List.mem_append] at logged
      rcases logged with before | new
      · exact consistent.finished record before
      · obtain ⟨logEntry, -, rfl⟩ := List.mem_map.mp new
        exact absurd rfl other

theorem Consistent.step (consistent : Consistent urls s) (e : HttpEvent) :
    Consistent urls (httpStep urls s e) := by
  cases e with
  | arrive request =>
      cases running : s.crashed with
      | true => rwa [httpStep_crashed urls running]
      | false =>
          rw [httpStep_arrive urls running]
          exact consistent.arrive request
  | finish i left readings =>
      by_cases waits : ∃ x, s.Waiting i x
      · obtain ⟨x, waiting⟩ := waits
        rw [httpStep_finish urls waiting]
        exact consistent.finish waiting _
      · rw [not_exists] at waits
        rwa [httpStep_idle urls waits]

theorem consistent_of_reachable (reached : (httpServer urls).Reachable s) : Consistent urls s := by
  refine reached.induct ⟨fun i x present => ?_, fun record logged => ?_⟩
    fun s e consistent => consistent.step e
  · simp [httpServer] at present
  · simp [httpServer] at logged

theorem phase_arrive (request : Incoming) : (request.arrive urls).phase ≠ .finished := by
  rw [Incoming.arrive]
  cases (dispatch urls request.http).fate <;> simp [Phase.ofFate]

/-- A request that arrives is not finished, so the rule keeps holding. -/
theorem oneRecordEach_arrive (each : OneRecordEach s) (request : Incoming) :
    OneRecordEach { s with exchanges := s.exchanges ++ [request.arrive urls] } := by
  intro i x present finished
  by_cases before : i < s.exchanges.length
  · rw [List.getElem?_append_left before] at present
    exact each i x present finished
  · rw [List.getElem?_append_right (by omega)] at present
    have new := List.mem_singleton.mp (List.mem_of_getElem? present)
    rw [new] at finished
    exact absurd finished (phase_arrive request)

/-- One step keeps the rule exactly when it logs what it finishes once. -/
theorem oneRecordEach_step (consistent : Consistent urls s) (each : OneRecordEach s)
    (e : HttpEvent) : OneRecordEach (httpStep urls s e) ↔ LoggedOnce urls s e := by
  cases e with
  | arrive request =>
      refine iff_of_true ?_ trivial
      cases running : s.crashed with
      | true => rwa [httpStep_crashed urls running]
      | false =>
          rw [httpStep_arrive urls running]
          exact oneRecordEach_arrive each request
  | finish i left readings =>
      by_cases waits : ∃ x, s.Waiting i x
      · obtain ⟨x, waiting⟩ := waits
        have unique : ∀ y, s.Waiting i y → y = x := fun y other =>
          Option.some.inj (other.present.symm.trans waiting.present)
        have routed := consistent.listeners i x waiting.present
        rw [httpStep_finish urls waiting, oneRecordEach_finish consistent each waiting]
        constructor
        · rintro ⟨one, recorded⟩ y other
          rw [unique y other]
          exact ⟨(listeners_dispatch_eq_one_iff urls).mp (routed.symm.trans one),
            (emit_handlers one left readings).mp recorded⟩
        · intro once
          obtain ⟨meets, printable⟩ := once x waiting
          have one := routed.trans ((listeners_dispatch_eq_one_iff urls).mpr meets)
          exact ⟨one, (emit_handlers one left readings).mpr printable⟩
      · rw [not_exists] at waits
        rw [httpStep_idle urls waits]
        exact iff_of_true each fun x waiting => absurd waiting (waits x)

end Runs

/-- **How many records a run leaves.**  Every finished request has run one handler of the
text logger and has one record, all along the run, exactly when each request that finishes
came as far as the loggers, did not come through the alias, and has values with a text. -/
theorem oneRecord_always_iff (urls : Urls) (es : List HttpEvent) :
    (httpServer urls).Always OneRecordEach es ↔
      (httpServer urls).AllSteps (LoggedOnce urls) es := by
  refine Machine.always_iff_allSteps _ ?_ (fun s e reached each => ?_) es
  · intro i x present finished
    simp [httpServer] at present
  · exact oneRecordEach_step (consistent_of_reachable reached) each e

/-- Without a query and without escapes, the path is the URL and the parameters are read
as they stand. -/
def plainUrls : Urls where
  pathname url := some (url.takeWhile (· ≠ '?'))
  decode param := some param
  pathname_role p := by
    refine ⟨p.takeWhile (· ≠ '?'), ?_⟩
    rw [List.takeWhile_append_of_pos (List.all_eq_true.mp (by decide))]

/-- A request for a role, through the alias. -/
def aliasRequest : Incoming where
  http := { method := "GET", url := "/get_role/5Grw".toList, body := some (.obj []) }
  accepted := by decide
  query := .obj []

def aliasFinish : HttpEvent :=
  .finish 0 { requestNumber := text "N/A", locals := .fresh, written := .fresh } fun _ =>
    { time := ⟨2024, 11, 24, 4, 42, 13, 251⟩
      duration := 12
      startCpu := .fixed false 100
      endCpu := .fixed false 100
      startMem := .fixed false 3360
      endMem := .fixed false 3363 }

/-- The alias leaves two records of one request. -/
theorem alias_leaves_two_records :
    (((httpServer plainUrls).run [.arrive aliasRequest, aliasFinish]).records 0).length = 2 ∧
      ¬ (httpServer plainUrls).Always OneRecordEach [.arrive aliasRequest, aliasFinish] := by
  have twice :
      (((httpServer plainUrls).run [.arrive aliasRequest, aliasFinish]).records 0).length = 2 := by
    decide
  refine ⟨twice, fun always => ?_⟩
  have finished : (((httpServer plainUrls).run [.arrive aliasRequest, aliasFinish]).exchanges[0]?).map
      Exchange.phase = some .finished := by decide
  obtain ⟨x, present, phase⟩ := Option.map_eq_some_iff.mp finished
  have once := always _ List.prefix_rfl 0 x present phase
  omega

end PatientAccess.Log
