/-
# Log.JsonLog -- the JSON log, kept by rewriting the file

When a request finishes, `logRequestToJson` adds its entry to a file that holds one
array.  The first entry of a missing file is written at once; every other is added by
reading the file, changing its text and writing it back, each of the two when the
operating system gets to it.  Nothing keeps another handler from moving in between.

The text always shows a list of requests (`Shows`), which the handlers rewrite as in
`Theory.Rewrites`.  So the log is exact, whatever the strings in it hold, as long as no
file is read while another handler's write is under way (`jsonLog_exact_iff`); and
requests that wait for each other leave their entries in order (`jsonLog_in_order`).
-/
import PatientAccess.Log.Entry
import PatientAccess.Theory.Machine
import PatientAccess.Theory.Rewrites
import PatientAccess.Theory.Text

namespace PatientAccess.Log

open PatientAccess.Theory PatientAccess.Server

set_option autoImplicit false

/-! ## Entries -/

/-- What the chain library makes of a codec object in JSON is `codecToJSON`. -/
def localJson (codecToJSON : Nat → Json) : LocalValue → Json
  | .number n => .num (.ofNat n)
  | .codec n => codecToJSON n
  | .text s => text s

def chars (s : List Char) : Json := .str (Utf16.ofText s)

def logEntry (codecToJSON : Nat → Json) (r : FinishedRequest) : Json :=
  .obj <| [("time", chars r.time.toISOString),
    ("requestNumber", r.loggedNumber),
    ("groupID", r.groupID),
    ("totalTransactions", r.totalTransactions),
    ("route", chars r.route),
    ("method", text r.method),
    ("refTime", localJson codecToJSON r.refTime),
    ("proofSize", localJson codecToJSON r.proofSize),
    ("tip", text r.tip),
    ("duration", chars r.durationText),
    ("cpuUsageStart", chars r.startCpu.percent),
    ("cpuUsageEnd", chars r.endCpu.percent),
    ("ramUsageStart", chars r.startMem.percent),
    ("ramUsageEnd", chars r.endMem.percent),
    ("transactionSuccess", text r.transactionSuccess),
    ("parametersLength", .num (.ofNat r.getParamsLength)),
    ("testType", r.testType)].map fun (key, value) => (Utf16.ofText key.toList, value)

/-! ## The file -/

/-- What `String.prototype.trim` drops. -/
def isJsSpace (c : Char) : Bool :=
  (9 ≤ c.toNat && c.toNat ≤ 13) || (0x2000 ≤ c.toNat && c.toNat ≤ 0x200A) ||
    c.toNat ∈ [0x20, 0xA0, 0x1680, 0x2028, 0x2029, 0x202F, 0x205F, 0x3000, 0xFEFF]

def jsTrim (s : List Char) : List Char := Text.trim isJsSpace s

/-- The text to write, given the one that was read. -/
def newData (data logEntryString : List Char) : List Char :=
  if jsTrim data = [] ∨ jsTrim data = ['[', ']'] then '[' :: logEntryString ++ [']']
  else (jsTrim data).dropLast ++ (',' :: logEntryString ++ [']'])

/-- How far the handler of a finished request is. -/
inductive Progress where
  | reading
  | writing (newData : List Char)
  | done

structure Logging where
  request : FinishedRequest
  progress : Progress

def Logging.isWriting : Logging → Bool
  | ⟨_, .writing _⟩ => true
  | _ => false

def Logging.isDone : Logging → Bool
  | ⟨_, .done⟩ => true
  | _ => false

/-- The module's flag, the file, and the handlers that have run, in order. -/
structure JsonLog where
  fileExists : Bool
  file : Option (List Char)
  handlers : List Logging

/-- A request finishes, or the system is done with a handler's read or write. -/
inductive LogEvent where
  | finish (r : FinishedRequest)
  | readDone (i : Nat)
  | writeDone (i : Nat)

def LogEvent.finished? : LogEvent → Option FinishedRequest
  | .finish r => some r
  | _ => none

/-- The file the server finds when it starts. -/
inductive LogStart where
  | absent
  | blank (content : List Char) (isBlank : jsTrim content = [])
  | brackets

def LogStart.file : LogStart → Option (List Char)
  | .absent => none
  | .blank content _ => some content
  | .brackets => some ['[', ']']

section Machine

variable (codecToJSON : Nat → Json)

/-- `JSON.stringify(logEntry)`. -/
def logEntryString (r : FinishedRequest) : List Char := Json.stringify (logEntry codecToJSON r)

/-- One event.  A read or write that is not asked for leaves everything as it is. -/
def jsonLogStep (s : JsonLog) : LogEvent → JsonLog
  | .finish r =>
      if s.fileExists then { s with handlers := s.handlers ++ [⟨r, .reading⟩] }
      else
        { fileExists := true
          file := some ('[' :: logEntryString codecToJSON r ++ [']'])
          handlers := s.handlers ++ [⟨r, .done⟩] }
  | .readDone i =>
      match s.handlers[i]? with
      | some ⟨r, .reading⟩ =>
          match s.file with
          | some data =>
              { s with
                handlers := s.handlers.set i
                  ⟨r, .writing (newData data (logEntryString codecToJSON r))⟩ }
          -- the read fails, and the handler gives up
          | none => { s with handlers := s.handlers.set i ⟨r, .done⟩ }
      | _ => s
  | .writeDone i =>
      match s.handlers[i]? with
      | some ⟨r, .writing data⟩ =>
          { s with file := some data, handlers := s.handlers.set i ⟨r, .done⟩ }
      | _ => s

def jsonLog (start : LogStart) : Machine JsonLog LogEvent Unit where
  start := { fileExists := start.file.isSome, file := start.file, handlers := [] }
  step s e := ((), jsonLogStep codecToJSON s e)

end Machine

/-- A file is read while another handler's write is under way. -/
def ReadsDuringWrite (s : JsonLog) : LogEvent → Prop
  | .readDone i => (∃ r, s.handlers[i]? = some ⟨r, .reading⟩) ∧ ∃ h ∈ s.handlers, h.isWriting = true
  | _ => False

/-- A request finishes before the handlers of the earlier ones are done. -/
def FinishesEarly (s : JsonLog) : LogEvent → Prop
  | .finish _ => ∃ h ∈ s.handlers, h.isDone = false
  | _ => False

/-- Every handler is done. -/
def JsonLog.Complete (s : JsonLog) : Prop := ∀ h ∈ s.handlers, h.isDone = true

/-- The requests that finish among the events, in order. -/
def finishedRequests (es : List LogEvent) : List FinishedRequest := es.filterMap LogEvent.finished?

/-! ## The text -/

section Text

variable (codecToJSON : Nat → Json)

/-- The array of the entries of `rs`. -/
def logOf (rs : List FinishedRequest) : Json := .arr (rs.map (logEntry codecToJSON))

/-- The file that shows `rs`: the one found at the start, until something is logged. -/
def fileOf (start : LogStart) (rs : List FinishedRequest) : Option (List Char) :=
  if rs = [] then start.file else some (Json.stringify (logOf codecToJSON rs))

/-- A text between brackets has nothing to trim. -/
theorem jsTrim_brackets (t : List Char) : jsTrim ('[' :: t ++ [']']) = '[' :: t ++ [']'] := by
  refine Text.trim_eq_self (c := '[') (d := ']') rfl ?_ rfl rfl
  rw [List.getLast?_concat]

theorem logOf_singleton (r : FinishedRequest) :
    Json.stringify (logOf codecToJSON [r]) = '[' :: logEntryString codecToJSON r ++ [']'] :=
  Json.stringify_singleton _

/-- The text of some entries is that of an array with an item. -/
theorem jsTrim_logOf {rs : List FinishedRequest} (some : rs ≠ []) :
    jsTrim (Json.stringify (logOf codecToJSON rs)) = Json.stringify (logOf codecToJSON rs) ∧
      Json.stringify (logOf codecToJSON rs) ≠ [] ∧
      Json.stringify (logOf codecToJSON rs) ≠ ['[', ']'] := by
  obtain ⟨r, rs, rfl⟩ := List.exists_cons_of_ne_nil some
  rw [logOf, List.map_cons, Json.stringify]
  obtain ⟨c, t, same, lead⟩ :=
    Json.stringifyItems_lead (logEntry codecToJSON r) (rs.map (logEntry codecToJSON))
  refine ⟨jsTrim_brackets _, List.cons_ne_nil _ _, ?_⟩
  rw [same]
  intro empty
  have first := (Json.isLead_spec lead).2
  simp_all

/-- What a handler writes shows its entry after those that it read. -/
theorem newData_fileOf (start : LogStart) {rs : List FinishedRequest} {data : List Char}
    (read : fileOf codecToJSON start rs = some data) (r : FinishedRequest) :
    newData data (logEntryString codecToJSON r) =
      Json.stringify (logOf codecToJSON (rs ++ [r])) := by
  by_cases none : rs = []
  · subst none
    rw [fileOf, if_pos rfl] at read
    rw [List.nil_append, logOf_singleton, newData, if_pos]
    cases start with
    | absent => cases read
    | blank content isBlank =>
        cases read
        exact .inl isBlank
    | brackets =>
        cases read
        exact .inr (jsTrim_brackets [])
  · rw [fileOf, if_neg none, Option.some.injEq] at read
    obtain ⟨trimmed, notEmpty, notBrackets⟩ := jsTrim_logOf codecToJSON none
    have entries : rs.map (logEntry codecToJSON) ≠ [] := by simpa using none
    rw [← read, newData, trimmed, if_neg (by simp [notEmpty, notBrackets]), logOf, logOf,
      List.map_append, List.map_singleton, Json.stringify_concat entries, logEntryString]

theorem parse_logOf (rs : List FinishedRequest) :
    Json.parse (Json.stringify (logOf codecToJSON rs)) = some (logOf codecToJSON rs) :=
  Json.parse_stringify _

/-- A blank text is no JSON text. -/
theorem parse_blank {content : List Char} (isBlank : jsTrim content = []) :
    Json.parse content = none := by
  apply Json.parse_eq_none
  intro c member
  by_contra lead
  obtain ⟨low, high⟩ := Json.toNat_of_isLead (Bool.not_eq_false _ ▸ lead)
  have notSpace : isJsSpace c = false := by
    simp [isJsSpace]
    omega
  exact Text.trim_ne_nil member notSpace isBlank

end Text

/-! ## The file shows a list that handlers rewrite -/

section Shows

variable (codecToJSON : Nat → Json)

/-- What a handler holds that has seen `rs` is the text of these with its own entry. -/
def render : Rewrites.Job FinishedRequest → Logging
  | ⟨r, .reading⟩ => ⟨r, .reading⟩
  | ⟨r, .writing rs⟩ => ⟨r, .writing (Json.stringify (logOf codecToJSON (rs ++ [r])))⟩
  | ⟨r, .done⟩ => ⟨r, .done⟩

/-- The log shows the state `a` of a list and its writers. -/
structure Shows (start : LogStart) (s : JsonLog) (a : Rewrites.State FinishedRequest) : Prop where
  handlers : s.handlers = a.jobs.map (render codecToJSON)
  file : s.file = fileOf codecToJSON start a.cell
  fresh : s.fileExists = false → a.cell = [] ∧ a.jobs = []
  present : s.fileExists = true → s.file.isSome = true

variable {codecToJSON} {start : LogStart} {s : JsonLog} {a : Rewrites.State FinishedRequest}

theorem render_isDone (j : Rewrites.Job FinishedRequest) :
    (render codecToJSON j).isDone = j.isDone := by
  obtain ⟨r, phase⟩ := j
  cases phase <;> rfl

theorem render_request (j : Rewrites.Job FinishedRequest) :
    (render codecToJSON j).request = j.item := by
  obtain ⟨r, phase⟩ := j
  cases phase <;> rfl

theorem render_isWriting (j : Rewrites.Job FinishedRequest) :
    (render codecToJSON j).isWriting = j.next?.isSome := by
  obtain ⟨r, phase⟩ := j
  cases phase <;> rfl

theorem render_reading {j : Rewrites.Job FinishedRequest} {r : FinishedRequest}
    (same : render codecToJSON j = ⟨r, .reading⟩) : j = ⟨r, .reading⟩ := by
  obtain ⟨r', phase⟩ := j
  cases phase <;> cases same
  rfl

theorem render_writing {j : Rewrites.Job FinishedRequest} {r : FinishedRequest} {data : List Char}
    (same : render codecToJSON j = ⟨r, .writing data⟩) :
    ∃ rs, j = ⟨r, .writing rs⟩ ∧ data = Json.stringify (logOf codecToJSON (rs ++ [r])) := by
  obtain ⟨r', phase⟩ := j
  cases phase <;> cases same
  exact ⟨_, rfl, rfl⟩

theorem Shows.complete (shown : Shows codecToJSON start s a) :
    s.Complete ↔ Rewrites.Quiet a := by
  rw [JsonLog.Complete, shown.handlers, List.forall_mem_map]
  simp only [render_isDone]
  rfl

theorem Shows.requests (shown : Shows codecToJSON start s a) :
    s.handlers.map Logging.request = a.jobs.map Rewrites.Job.item := by
  rw [shown.handlers, List.map_map]
  exact List.map_congr_left fun j _ => render_request j

/-- A handler of the log is a writer of the list, in the same place. -/
theorem Shows.split (shown : Shows codecToJSON start s a) {i : Nat} {h : Logging}
    (found : s.handlers[i]? = some h) :
    ∃ before j after, a.jobs = before ++ j :: after ∧ render codecToJSON j = h ∧
      ∀ j', s.handlers.set i (render codecToJSON j') =
        (before ++ j' :: after).map (render codecToJSON) := by
  rw [shown.handlers, List.getElem?_map, Option.map_eq_some_iff] at found
  obtain ⟨j, found, drawn⟩ := found
  obtain ⟨inside, same⟩ := List.getElem?_eq_some_iff.mp found
  have whole : a.jobs = a.jobs.take i ++ j :: a.jobs.drop (i + 1) := by
    rw [← same, List.getElem_cons_drop, List.take_append_drop]
  refine ⟨a.jobs.take i, j, a.jobs.drop (i + 1), whole, drawn, fun j' => ?_⟩
  rw [shown.handlers, ← List.map_set, List.set_eq_take_append_cons_drop, if_pos inside]

theorem Shows.isWriting (shown : Shows codecToJSON start s a) :
    (∃ h ∈ s.handlers, h.isWriting = true) ↔ Rewrites.pending a.jobs ≠ [] := by
  rw [shown.handlers, Ne, Rewrites.pending, List.filterMap_eq_nil_iff]
  simp only [List.mem_map, exists_exists_and_eq_and, render_isWriting, Option.isSome_iff_ne_none,
    not_forall, exists_prop]

theorem Shows.notDone (shown : Shows codecToJSON start s a) :
    (∃ h ∈ s.handlers, h.isDone = false) ↔ ∃ j ∈ a.jobs, j.isDone = false := by
  rw [shown.handlers]
  simp only [List.mem_map, exists_exists_and_eq_and, render_isDone]

/-- A handler has run, so there is a file. -/
theorem Shows.exists_file (shown : Shows codecToJSON start s a) {i : Nat} {h : Logging}
    (found : s.handlers[i]? = some h) : ∃ data, s.file = some data := by
  have present : s.fileExists = true := by
    cases missing : s.fileExists with
    | true => rfl
    | false =>
        obtain ⟨before, j, after, jobs, -⟩ := shown.split found
        rw [(shown.fresh missing).2] at jobs
        simp at jobs
  exact Option.isSome_iff_exists.mp (shown.present present)

/-- What one event of the log is for the list it shows: a move that conflicts exactly if
the event reads during a write, and interrupts exactly if it finishes early. -/
structure Refines (codecToJSON : Nat → Json) (start : LogStart) (s : JsonLog) (e : LogEvent)
    (a : Rewrites.State FinishedRequest) (m : Rewrites.Move FinishedRequest)
    (a' : Rewrites.State FinishedRequest) : Prop where
  step : Rewrites.Step a m a'
  shown : Shows codecToJSON start (jsonLogStep codecToJSON s e) a'
  conflict : ReadsDuringWrite s e ↔ Rewrites.Conflict a m
  interrupts : FinishesEarly s e ↔ Rewrites.Interrupts a m

theorem Shows.finish (shown : Shows codecToJSON start s a) (r : FinishedRequest) :
    ∃ m a', Refines codecToJSON start s (.finish r) a m a' := by
  obtain ⟨cell, jobs⟩ := a
  cases present : s.fileExists with
  | true =>
      refine ⟨.start r, ⟨cell, jobs ++ [⟨r, .reading⟩]⟩, .start r cell jobs, ?_, Iff.rfl,
        shown.notDone⟩
      rw [jsonLogStep, if_pos present]
      refine ⟨?_, shown.file, fun missing => ?_, shown.present⟩
      · simp [shown.handlers, render]
      · rw [present] at missing
        cases missing
  | false =>
      obtain ⟨noCell, noJobs⟩ := shown.fresh present
      dsimp only at noCell noJobs
      subst noCell noJobs
      refine ⟨.append r, ⟨[] ++ [r], [] ++ [⟨r, .done⟩]⟩, .append r [] [], ?_, ?_, shown.notDone⟩
      · rw [jsonLogStep, if_neg (by simp [present])]
        refine ⟨?_, ?_, fun missing => ?_, fun _ => rfl⟩
        · simp [shown.handlers, render]
        · simp [fileOf, logOf_singleton]
        · cases missing
      · simp [ReadsDuringWrite, Rewrites.Conflict]

/-- An event nothing waits for. -/
theorem Shows.idle (shown : Shows codecToJSON start s a) {e : LogEvent}
    (still : jsonLogStep codecToJSON s e = s) (noRead : ¬ ReadsDuringWrite s e)
    (noFinish : ¬ FinishesEarly s e) :
    ∃ m a', Refines codecToJSON start s e a m a' := by
  refine ⟨.idle, a, .idle a, ?_, iff_of_false noRead id, iff_of_false noFinish id⟩
  rw [still]
  exact shown

theorem Shows.readDone (shown : Shows codecToJSON start s a) (i : Nat) :
    ∃ m a', Refines codecToJSON start s (.readDone i) a m a' := by
  have noFinish : ¬ FinishesEarly s (.readDone i) := id
  by_cases reads : ∃ r, s.handlers[i]? = some ⟨r, .reading⟩
  · obtain ⟨r, found⟩ := reads
    obtain ⟨data, read⟩ := shown.exists_file found
    obtain ⟨before, j, after, jobs, drawn, set⟩ := shown.split found
    cases render_reading drawn
    obtain ⟨cell, _⟩ := a
    dsimp only at jobs
    subst jobs
    refine ⟨.read r, _, .read r cell before after, ?_, ?_, iff_of_false noFinish id⟩
    · have text := newData_fileOf codecToJSON start (shown.file.symm.trans read) r
      have write : render codecToJSON ⟨r, .writing cell⟩ =
          ⟨r, .writing (newData data (logEntryString codecToJSON r))⟩ := by
        rw [text]
        rfl
      have moved : jsonLogStep codecToJSON s (.readDone i) =
          { s with
            handlers := s.handlers.set i
              ⟨r, .writing (newData data (logEntryString codecToJSON r))⟩ } := by
        simp only [jsonLogStep, found, read]
      rw [moved]
      refine ⟨?_, shown.file, fun missing => ?_, shown.present⟩
      · rw [← write]
        exact set _
      · have noJobs := (shown.fresh missing).2
        simp at noJobs
    · rw [ReadsDuringWrite, shown.isWriting]
      exact and_iff_right ⟨r, found⟩
  · refine shown.idle ?_ (fun conflict => reads conflict.1) noFinish
    rw [jsonLogStep]
    split
    · next r found => exact absurd ⟨r, found⟩ reads
    · rfl

theorem Shows.writeDone (shown : Shows codecToJSON start s a) (i : Nat) :
    ∃ m a', Refines codecToJSON start s (.writeDone i) a m a' := by
  have noFinish : ¬ FinishesEarly s (.writeDone i) := id
  have noRead : ¬ ReadsDuringWrite s (.writeDone i) := id
  by_cases writes : ∃ r data, s.handlers[i]? = some ⟨r, .writing data⟩
  · obtain ⟨r, data, found⟩ := writes
    obtain ⟨before, j, after, jobs, drawn, set⟩ := shown.split found
    obtain ⟨rs, rfl, rfl⟩ := render_writing drawn
    obtain ⟨cell, _⟩ := a
    dsimp only at jobs
    subst jobs
    refine ⟨.write r, _, .write r cell rs before after, ?_, iff_of_false noRead id,
      iff_of_false noFinish id⟩
    have moved : jsonLogStep codecToJSON s (.writeDone i) =
        { s with
          file := some (Json.stringify (logOf codecToJSON (rs ++ [r])))
          handlers := s.handlers.set i ⟨r, .done⟩ } := by
      simp only [jsonLogStep, found]
    rw [moved]
    refine ⟨set ⟨r, .done⟩, ?_, fun missing => ?_, fun _ => rfl⟩
    · rw [fileOf, if_neg (by simp)]
    · have noJobs := (shown.fresh missing).2
      simp at noJobs
  · refine shown.idle ?_ noRead noFinish
    rw [jsonLogStep]
    split
    · next r data found => exact absurd ⟨r, data, found⟩ writes
    · rfl

theorem Shows.event (shown : Shows codecToJSON start s a) (e : LogEvent) :
    ∃ m a', Refines codecToJSON start s e a m a' := by
  cases e with
  | finish r => exact shown.finish r
  | readDone i => exact shown.readDone i
  | writeDone i => exact shown.writeDone i

end Shows

/-! ## Runs -/

section Runs

variable (codecToJSON : Nat → Json) (start : LogStart)

theorem shows_start : Shows codecToJSON start (jsonLog codecToJSON start).start ⟨[], []⟩ where
  handlers := rfl
  file := rfl
  fresh _ := ⟨rfl, rfl⟩
  present := id

/-- No event of a run reads during a write. -/
def NoneReadsDuringWrite (es : List LogEvent) : Prop :=
  (jsonLog codecToJSON start).AllSteps (fun s e => ¬ ReadsDuringWrite s e) es

/-- Each request of a run finishes when the handlers of the earlier ones are done. -/
def OneAtATime (es : List LogEvent) : Prop :=
  (jsonLog codecToJSON start).AllSteps (fun s e => ¬ FinishesEarly s e) es

/-- The log after a run shows a list, with nothing lost if no event read during a write,
and something lost otherwise. -/
theorem run_shows (es : List LogEvent) :
    ∃ a, Shows codecToJSON start ((jsonLog codecToJSON start).run es) a ∧
      (NoneReadsDuringWrite codecToJSON start es → Rewrites.Clean a) ∧
      (¬ NoneReadsDuringWrite codecToJSON start es → Rewrites.Lossy a) ∧
      (OneAtATime codecToJSON start es → Rewrites.InOrder a) := by
  induction es using List.reverseRecOn with
  | nil =>
      refine ⟨⟨[], []⟩, shows_start codecToJSON start, fun _ => Rewrites.clean_start, fun some => ?_,
        fun _ => Rewrites.inOrder_start⟩
      exact absurd (Machine.allSteps_nil _ _) some
  | append_singleton es e ih =>
      obtain ⟨a, shown, clean, lossy, order⟩ := ih
      obtain ⟨m, a', refines⟩ := shown.event e
      refine ⟨a', ?_, ?_, ?_, ?_⟩
      · rw [Machine.run_concat]
        exact refines.shown
      · intro none
        rw [NoneReadsDuringWrite, Machine.allSteps_concat] at none
        exact refines.step.clean (clean none.1) (refines.conflict.not.mp none.2)
      · intro some
        rw [NoneReadsDuringWrite, Machine.allSteps_concat, not_and_or, not_not] at some
        by_cases before : NoneReadsDuringWrite codecToJSON start es
        · have now := some.resolve_left (not_not.mpr before)
          exact refines.step.conflict (clean before) (refines.conflict.mp now)
        · exact refines.step.lossy (lossy before)
      · intro alone
        rw [OneAtATime, Machine.allSteps_concat] at alone
        exact refines.step.inOrder (order alone.1) (refines.interrupts.not.mp alone.2)

/-- A handler moves on, and stays that of its request. -/
theorem map_request_set {hs : List Logging} {i : Nat} {r : FinishedRequest} {p : Progress}
    (found : hs[i]? = some ⟨r, p⟩) (q : Progress) :
    (hs.set i ⟨r, q⟩).map Logging.request = hs.map Logging.request := by
  obtain ⟨inside, same⟩ := List.getElem?_eq_some_iff.mp found
  rw [List.map_set]
  apply List.ext_getElem?
  intro k
  by_cases here : i = k
  · subst here
    simp [inside, same]
  · rw [List.getElem?_set_ne here]

theorem step_requests (s : JsonLog) (e : LogEvent) :
    (jsonLogStep codecToJSON s e).handlers.map Logging.request =
      s.handlers.map Logging.request ++ e.finished?.toList := by
  cases e with
  | finish r =>
      rw [jsonLogStep]
      split <;> simp [LogEvent.finished?]
  | readDone i =>
      rw [jsonLogStep]
      split
      · next r found =>
          split <;> simp only [map_request_set found] <;> simp [LogEvent.finished?]
      · simp [LogEvent.finished?]
  | writeDone i =>
      rw [jsonLogStep]
      split
      · next r data found =>
          simp only [map_request_set found]
          simp [LogEvent.finished?]
      · simp [LogEvent.finished?]

/-- The handlers are those of the requests that finished, in order. -/
theorem run_requests (es : List LogEvent) :
    ((jsonLog codecToJSON start).run es).handlers.map Logging.request = finishedRequests es := by
  induction es using List.reverseRecOn with
  | nil => rfl
  | append_singleton es e ih =>
      rw [Machine.run_concat, finishedRequests, List.filterMap_append, ← finishedRequests, ← ih]
      refine (step_requests codecToJSON _ e).trans (congrArg _ ?_)
      cases request : e.finished? <;> simp [request]

/-- The file is an array with the entries `rs` in some order, and nothing else. -/
def HoldsExactly (s : JsonLog) (rs : List FinishedRequest) : Prop :=
  ∃ items, s.file.bind Json.parse = some (.arr items) ∧
    items.Perm (rs.map (logEntry codecToJSON))

variable {codecToJSON start}

/-- What the file of a log says, once something is logged or where it started as `[]`. -/
theorem Shows.parse {s : JsonLog} {a : Rewrites.State FinishedRequest}
    (shown : Shows codecToJSON start s a) (array : a.cell ≠ [] ∨ start = .brackets) :
    s.file.bind Json.parse = some (logOf codecToJSON a.cell) := by
  rw [shown.file, fileOf]
  by_cases none : a.cell = []
  · have brackets := array.resolve_left (not_not.mpr none)
    rw [if_pos none, brackets, none]
    rfl
  · rw [if_neg none, Option.bind_some, parse_logOf]

/-- Before that it is no JSON text. -/
theorem Shows.no_parse {s : JsonLog} {a : Rewrites.State FinishedRequest}
    (shown : Shows codecToJSON start s a) (none : a.cell = []) (other : start ≠ .brackets) :
    s.file.bind Json.parse = Option.none := by
  rw [shown.file, fileOf, if_pos none]
  cases start with
  | absent => rfl
  | blank content isBlank => exact parse_blank isBlank
  | brackets => exact absurd rfl other

/-- A read during a write leaves too few entries. -/
theorem not_holdsExactly {es : List LogEvent} (some : ¬ NoneReadsDuringWrite codecToJSON start es) :
    ¬ HoldsExactly codecToJSON ((jsonLog codecToJSON start).run es) (finishedRequests es) := by
  obtain ⟨a, shown, -, lossy, -⟩ := run_shows codecToJSON start es
  have few := (lossy some).short
  have items := congrArg List.length shown.requests
  rw [run_requests, List.length_map] at items
  rintro ⟨vs, parsed, perm⟩
  have size := perm.length_eq
  rw [List.length_map, items] at size
  by_cases array : a.cell ≠ [] ∨ start = .brackets
  · rw [shown.parse array, logOf, Option.some.injEq, Json.arr.injEq] at parsed
    rw [← parsed, List.length_map] at size
    omega
  · rw [not_or, not_not] at array
    rw [shown.no_parse array.1 array.2] at parsed
    cases parsed

end Runs

/-- **The log is exact** when every handler is done, exactly if no file was read while a
write was under way and there was anything to log, or an array to begin with. -/
theorem jsonLog_exact_iff (codecToJSON : Nat → Json) (start : LogStart) (es : List LogEvent)
    (complete : ((jsonLog codecToJSON start).run es).Complete) :
    HoldsExactly codecToJSON ((jsonLog codecToJSON start).run es) (finishedRequests es) ↔
      NoneReadsDuringWrite codecToJSON start es ∧
        (finishedRequests es ≠ [] ∨ start = .brackets) := by
  obtain ⟨a, shown, clean, -, -⟩ := run_shows codecToJSON start es
  have quiet := shown.complete.mp complete
  have items : a.jobs.map Rewrites.Job.item = finishedRequests es := by
    rw [← run_requests codecToJSON start, shown.requests]
  constructor
  · intro holds
    have none : NoneReadsDuringWrite codecToJSON start es := by
      by_contra some
      exact not_holdsExactly some holds
    have exact := (clean none).exact quiet
    refine ⟨none, ?_⟩
    by_contra nothing
    rw [not_or, not_not] at nothing
    rw [items, nothing.1] at exact
    obtain ⟨vs, parsed, -⟩ := holds
    rw [shown.no_parse exact.eq_nil nothing.2] at parsed
    cases parsed
  · rintro ⟨none, some⟩
    have exact := (clean none).exact quiet
    rw [items] at exact
    have array : a.cell ≠ [] ∨ start = .brackets := by
      refine some.imp_left fun logged empty => logged ?_
      rw [empty] at exact
      exact exact.nil_eq.symm
    exact ⟨_, shown.parse array, exact.map _⟩

/-- The gas of a codec object small enough for a JSON number. -/
def codecNumber (n : Nat) : Json := .num (.ofNat n)

/-- Two requests finish at once: both read the file before either writes it. -/
def overlapping : List LogEvent :=
  [.finish (roleRequest 1 "5Grw"), .finish (roleRequest 2 "5FHn"), .readDone 0, .readDone 1,
    .writeDone 0, .writeDone 1]

/-- Both handlers are done, and the log has one entry. -/
theorem overlapping_requests_lose_an_entry :
    ((jsonLog codecNumber .brackets).run overlapping).Complete ∧
      ¬ HoldsExactly codecNumber ((jsonLog codecNumber .brackets).run overlapping)
        (finishedRequests overlapping) := by
  constructor
  · have handlers : ((jsonLog codecNumber .brackets).run overlapping).handlers =
        [⟨roleRequest 1 "5Grw", .done⟩, ⟨roleRequest 2 "5FHn", .done⟩] := rfl
    rw [JsonLog.Complete, handlers]
    simp [Logging.isDone]
  · apply not_holdsExactly
    intro none
    refine none (overlapping.take 3) (.readDone 1) ⟨overlapping.drop 4, rfl⟩ ⟨⟨_, rfl⟩, ?_⟩
    exact ⟨_, List.mem_cons_self, rfl⟩

/-- The same two requests on a missing file, one after the other. -/
def oneByOne : List LogEvent :=
  [.finish (roleRequest 1 "5Grw"), .finish (roleRequest 2 "5FHn"), .readDone 1, .writeDone 1]

theorem oneByOne_complete : ((jsonLog codecNumber .absent).run oneByOne).Complete := by
  have handlers : ((jsonLog codecNumber .absent).run oneByOne).handlers =
      [⟨roleRequest 1 "5Grw", .done⟩, ⟨roleRequest 2 "5FHn", .done⟩] := rfl
  rw [JsonLog.Complete, handlers]
  simp [Logging.isDone]

theorem jsonLog_exact_iff_oneByOne :
    HoldsExactly codecNumber ((jsonLog codecNumber .absent).run oneByOne)
        (finishedRequests oneByOne) ↔
      NoneReadsDuringWrite codecNumber .absent oneByOne ∧
        (finishedRequests oneByOne ≠ [] ∨ LogStart.absent = .brackets) :=
  jsonLog_exact_iff codecNumber .absent oneByOne oneByOne_complete

/-- **One request at a time.**  If each request finishes when the handlers of the earlier
ones are done, then whenever all are, the file is the array of the entries so far, in
order, whatever the strings in them hold. -/
theorem jsonLog_in_order (codecToJSON : Nat → Json) (start : LogStart) (es : List LogEvent)
    (alone : OneAtATime codecToJSON start es) (js : List LogEvent) (soFar : js <+: es)
    (complete : ((jsonLog codecToJSON start).run js).Complete)
    (logged : finishedRequests js ≠ []) :
    ((jsonLog codecToJSON start).run js).file.bind Json.parse =
      some (.arr ((finishedRequests js).map (logEntry codecToJSON))) := by
  obtain ⟨a, shown, -, -, order⟩ := run_shows codecToJSON start js
  have exact := (order (alone.take soFar)).exact (shown.complete.mp complete)
  have items : a.cell = finishedRequests js := by
    rw [exact, ← shown.requests, run_requests]
  have parsed := shown.parse (.inl (items ▸ logged))
  rw [parsed, items, logOf]

theorem jsonLog_in_order_oneByOne :
    ((jsonLog codecNumber .absent).run oneByOne).file.bind Json.parse =
      some (.arr [logEntry codecNumber (roleRequest 1 "5Grw"),
        logEntry codecNumber (roleRequest 2 "5FHn")]) := by
  have alone : OneAtATime codecNumber .absent oneByOne := by
    show (jsonLog codecNumber .absent).AllSteps _
      ([] ++ [.finish (roleRequest 1 "5Grw")] ++ [.finish (roleRequest 2 "5FHn")] ++ [.readDone 1] ++
        [.writeDone 1])
    simp only [Machine.allSteps_concat]
    refine ⟨⟨⟨⟨Machine.allSteps_nil _ _, ?_⟩, ?_⟩, id⟩, id⟩
    · rintro ⟨h, member, -⟩
      cases member
    · -- the first entry is written at once
      rintro ⟨h, member, notDone⟩
      rw [List.mem_singleton.mp member] at notDone
      cases notDone
  exact jsonLog_in_order codecNumber .absent oneByOne alone oneByOne List.prefix_rfl oneByOne_complete
    (by simp [finishedRequests, oneByOne, LogEvent.finished?])

end PatientAccess.Log
