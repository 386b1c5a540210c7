/-
# Log.TextLog -- the text log, and the reader that makes records of it

`logRequestToTxt` appends, for every finished request, a labelled line for each value
and a line of dashes.  `readData` is the text branch of `read_data`: it cuts the file at
the dashes and a piece at its line breaks, and takes what follows the first colon of a
line for the value of what stands before it.

Writer and reader agree by convention only, so everything rests on what the values
hold: no line break and no `---` is enough (`readData_log`).  The values the server
makes itself have neither, whatever their digits are (`quiet_of_count`).
-/
import PatientAccess.Log.Entry
import PatientAccess.Theory.Text
import PatientAccess.Theory.Mapping

namespace PatientAccess.Log

open PatientAccess.Theory PatientAccess.Theory.Text PatientAccess.Server

set_option autoImplicit false

/-! ## The writer -/

/-- The indentation of the template. -/
def margin : List Char := List.replicate 8 ' '

/-- One line of the template. -/
def line (l : String × List Char) : List Char :=
  margin ++ (l.1.toList ++ ':' :: ' ' :: (l.2 ++ ['\n']))

/-- What is logged, in the order of the template. -/
def FinishedRequest.lines (r : FinishedRequest) : List (String × List Char) :=
  [("Time", r.time.toISOString),
    ("Request Number", display r.loggedNumber),
    ("GroupID", display r.groupID),
    ("Total Transactions", display r.totalTransactions),
    ("Route", r.route),
    ("Method", r.method.toList),
    ("RefTime (Gas Computacional)", displayLocal r.refTime),
    ("ProofSize", displayLocal r.proofSize),
    ("Tip", r.tip.toList),
    ("Duration", r.durationText),
    ("CPU Usage (start)", r.startCpu.percent),
    ("CPU Usage (end)", r.endCpu.percent),
    ("RAM Usage (start)", r.startMem.percent),
    ("RAM Usage (end)", r.endMem.percent),
    ("Transaction Success", r.transactionSuccess.toList),
    ("Parameters Length", digits r.getParamsLength),
    ("Test Type", display r.testType)]

def separator : List Char := ['-', '-', '-']

def FinishedRequest.logEntry (r : FinishedRequest) : List Char :=
  '\n' :: r.lines.flatMap line ++ margin ++ separator ++ '\n' :: margin

/-- Whether all values in the template have a text; those the client sent may have none. -/
def FinishedRequest.printable (r : FinishedRequest) : Bool :=
  [r.loggedNumber, r.groupID, r.totalTransactions, r.testType].all Log.printable

/-- The text a finished request appends.  A value that has no text is a `TypeError`
before anything is written. -/
def logRequestToTxt (r : FinishedRequest) : Option (List Char) :=
  if r.printable then some r.logEntry else none

/-- The text log: what the requests append, in order. -/
def textLog (rs : List FinishedRequest) : List Char := (rs.filterMap logRequestToTxt).flatten

/-! ## The reader -/

/-- What `str.strip` drops. -/
def isSpace (c : Char) : Bool :=
  (9 ≤ c.toNat && c.toNat ≤ 13) || (28 ≤ c.toNat && c.toNat ≤ 32) ||
    (0x2000 ≤ c.toNat && c.toNat ≤ 0x200A) ||
    c.toNat ∈ [0x85, 0xA0, 0x1680, 0x2028, 0x2029, 0x202F, 0x205F, 0x3000]

def strip (s : List Char) : List Char := trim isSpace s

/-- Opened as text, a file shows each of its line endings as `\n`. -/
def universalNewlines : List Char → List Char
  | [] => []
  | '\r' :: '\n' :: s => '\n' :: universalNewlines s
  | c :: s => (if c = '\r' then '\n' else c) :: universalNewlines s

/-- A line `Clave: Valor`; any other is passed over. -/
def readLine (raw : Mapping (List Char) (List Char)) (l : List Char) :
    Mapping (List Char) (List Char) :=
  if strip l = [] then raw
  else
    match splitFirst ':' (strip l) with
    | some (key, value) => raw.insert (strip key) (strip value)
    | none => raw

def entryRaw (entryText : List Char) : Mapping (List Char) (List Char) :=
  ((strip entryText).splitOn '\n').foldl readLine .empty

/-- A record; `none` is `None`. -/
structure Record where
  time : Option (List Char)
  requestNumber : Option (List Char)
  route : Option (List Char)
  method : Option (List Char)
  refTime : Option (List Char)
  proofSize : Option (List Char)
  tip : Option (List Char)
  duration : Option (List Char)
  groupID : Option (List Char)
  cpuUsageStart : Option (List Char)
  cpuUsageEnd : Option (List Char)
  ramUsageStart : Option (List Char)
  ramUsageEnd : Option (List Char)
  transactionSuccess : Option (List Char)
  parametersLength : Option (List Char)
  testType : Option (List Char)
  totalTransactions : Option (List Char)

def Record.values (r : Record) : List (Option (List Char)) :=
  [r.time, r.requestNumber, r.route, r.method, r.refTime, r.proofSize, r.tip, r.duration, r.groupID,
    r.cpuUsageStart, r.cpuUsageEnd, r.ramUsageStart, r.ramUsageEnd, r.transactionSuccess,
    r.parametersLength, r.testType, r.totalTransactions]

def entryOf (raw : Mapping (List Char) (List Char)) : Record :=
  { time := raw.get "Time".toList
    requestNumber := raw.get "Request Number".toList
    route := raw.get "Route".toList
    method := raw.get "Method".toList
    refTime := raw.get "RefTime (Gas Computacional)".toList
    proofSize := raw.get "ProofSize".toList
    tip := raw.get "Tip".toList
    duration := raw.get "Duration".toList
    groupID := raw.get "GroupID".toList
    cpuUsageStart := raw.get "CPU Usage (start)".toList
    cpuUsageEnd := raw.get "CPU Usage (end)".toList
    ramUsageStart := raw.get "RAM Usage (start)".toList
    ramUsageEnd := raw.get "RAM Usage (end)".toList
    transactionSuccess := raw.get "Transaction Success".toList
    parametersLength := raw.get "Parameters Length".toList
    testType := raw.get "Test Type".toList
    totalTransactions := raw.get "Total Transactions".toList }

/-- `any(entry.values())`. -/
def Record.any (r : Record) : Bool := r.values.any fun v => v.any (· ≠ [])

/-- The text branch of `read_data`, on the content of the file. -/
def readData (content : List Char) : List Record :=
  ((splitSeq separator (strip (universalNewlines content))).map
    fun entryText => entryOf (entryRaw entryText)).filter Record.any

/-! ## What the values hold -/

/-- A text with no line break and no `---`. -/
structure Quiet (t : List Char) : Prop where
  newline : '\n' ∉ t
  ret : '\r' ∉ t
  dashes : ¬ separator <:+: t

/-- What a faithful log needs of the values a client has a say in. -/
structure FinishedRequest.Quiet (r : FinishedRequest) : Prop where
  groupID : Log.Quiet (display r.groupID)
  requestNumber : Log.Quiet (display r.loggedNumber)
  totalTransactions : Log.Quiet (display r.totalTransactions)
  testType : Log.Quiet (display r.testType)
  urlPath : Log.Quiet r.urlPath

/-- Two dashes make no separator. -/
theorem quiet_of_count {t : List Char} (newline : '\n' ∉ t) (ret : '\r' ∉ t)
    (few : t.count '-' ≤ 2) : Quiet t := by
  refine ⟨newline, ret, fun here => ?_⟩
  have three : separator.count '-' = 3 := rfl
  have more := here.sublist.count_le '-'
  omega

theorem not_mem_digits {c : Char} (other : c.isDigit = false) (n : Nat) : c ∉ digits n := by
  intro h
  rw [Nat.isDigit_of_mem_toDigits (by decide) (by decide) h] at other
  contradiction

theorem not_mem_pad {c : Char} (other : c.isDigit = false) (width n : Nat) : c ∉ pad width n := by
  intro h
  rw [pad, List.leftpad, List.mem_append] at h
  rcases h with zero | digit
  · rw [List.eq_of_mem_replicate zero] at other
    contradiction
  · exact not_mem_digits other n digit

@[simp] theorem newline_not_mem_digits (n : Nat) : '\n' ∉ digits n := not_mem_digits rfl n
@[simp] theorem ret_not_mem_digits (n : Nat) : '\r' ∉ digits n := not_mem_digits rfl n
@[simp] theorem newline_not_mem_pad (w n : Nat) : '\n' ∉ pad w n := not_mem_pad rfl w n
@[simp] theorem ret_not_mem_pad (w n : Nat) : '\r' ∉ pad w n := not_mem_pad rfl w n

@[simp] theorem count_digits (n : Nat) : (digits n).count '-' = 0 :=
  List.count_eq_zero.mpr (not_mem_digits rfl n)

@[simp] theorem count_pad (w n : Nat) : (pad w n).count '-' = 0 :=
  List.count_eq_zero.mpr (not_mem_pad rfl w n)

theorem quiet_digits (n : Nat) : Quiet (digits n) :=
  quiet_of_count (by simp) (by simp) (by simp)

theorem quiet_toISOString (d : PatientAccess.Log.Date) : Quiet d.toISOString := by
  have year : '\n' ∉ d.yearText ∧ '\r' ∉ d.yearText ∧ d.yearText.count '-' = 0 := by
    unfold Date.yearText
    split <;> simp
  obtain ⟨newline, ret, dashes⟩ := year
  apply quiet_of_count
  · simp [Date.toISOString, newline]
  · simp [Date.toISOString, ret]
  · simp [Date.toISOString, dashes]

theorem quiet_percent (u : Usage) : Quiet u.percent := by
  cases u with
  | nan => exact ⟨by decide, by decide, by decide⟩
  | fixed negative n =>
      apply quiet_of_count <;> cases negative <;> simp [Usage.percent, Usage.toFixed]

theorem quiet_durationText (r : FinishedRequest) : Quiet r.durationText := by
  unfold FinishedRequest.durationText
  cases r.duration <;> apply quiet_of_count <;> simp [printInt]

theorem quiet_method (r : FinishedRequest) : Quiet r.method.toList := by
  have all : ∀ m ∈ httpMethods, '\n' ∉ m.toList ∧ '\r' ∉ m.toList ∧ m.toList.count '-' ≤ 2 := by
    decide
  obtain ⟨newline, ret, few⟩ := all r.method r.accepted
  exact quiet_of_count newline ret few

theorem quiet_notAvailable : Quiet "N/A".toList := ⟨by decide, by decide, by decide⟩

theorem quiet_local {value : Option LocalValue}
    (written : ∀ s, value = some (.text s) → s = "N/A") : Quiet (displayLocal (localOrNA value)) := by
  unfold localOrNA
  split
  · split
    · exact quiet_notAvailable
    · exact quiet_digits _
  · exact quiet_digits _
  · next s =>
    rw [written s rfl]
    exact quiet_notAvailable
  · exact quiet_notAvailable

theorem quiet_tip (r : FinishedRequest) : Quiet r.tip.toList := by
  unfold FinishedRequest.tip
  cases left : r.locals.tip with
  | none => exact quiet_notAvailable
  | some s =>
      obtain ⟨n, rfl⟩ := r.written.gasWritten.tip s left
      rw [tipOrNA]
      split
      · exact quiet_notAvailable
      · rw [Nat.toString_eq_repr, Nat.toList_repr]
        exact quiet_digits n

theorem quiet_transactionSuccess (r : FinishedRequest) : Quiet r.transactionSuccess.toList := by
  unfold FinishedRequest.transactionSuccess
  split <;> exact ⟨by decide, by decide, by decide⟩

theorem FinishedRequest.Quiet.route {r : FinishedRequest} (quiet : r.Quiet) :
    Log.Quiet r.route := by
  have method := quiet_method r
  have path := quiet.urlPath
  have blank : ' ' ∉ separator := by decide
  refine ⟨?_, ?_, ?_⟩
  · simp [FinishedRequest.route, method.newline, path.newline]
  · simp [FinishedRequest.route, method.ret, path.ret]
  · rw [FinishedRequest.route, infix_append_cons blank (by decide), not_or]
    exact ⟨method.dashes, path.dashes⟩

/-- Everything that is logged is quiet if the client's values are. -/
theorem FinishedRequest.Quiet.lines {r : FinishedRequest} (quiet : r.Quiet) :
    ∀ l ∈ r.lines, Log.Quiet l.2 := by
  have gas := r.written.gasWritten
  simp only [FinishedRequest.lines, List.forall_mem_cons]
  exact ⟨quiet_toISOString _, quiet.requestNumber, quiet.groupID, quiet.totalTransactions, quiet.route,
    quiet_method r, quiet_local gas.refTime, quiet_local gas.proofSize, quiet_tip r,
    quiet_durationText r, quiet_percent _, quiet_percent _, quiet_percent _, quiet_percent _,
    quiet_transactionSuccess r, quiet_digits _, quiet.testType, List.forall_mem_nil _⟩

/-! ## Reading an entry -/

@[simp] theorem isSpace_newline : isSpace '\n' = true := rfl

theorem isSpace_margin : ∀ c ∈ margin, isSpace c = true := List.all_eq_true.mp (by decide)

/-- A label stands at the start of its line, and has no colon before that of the line. -/
structure IsLabel (label : String) : Prop where
  nonempty : label.toList ≠ []
  newline : '\n' ∉ label.toList
  ret : '\r' ∉ label.toList
  dash : '-' ∉ label.toList
  colon : ':' ∉ label.toList
  start : label.toList.head?.any isSpace = false
  stripped : strip label.toList = label.toList

instance (label : String) : Decidable (IsLabel label) :=
  decidable_of_iff (label.toList ≠ [] ∧ '\n' ∉ label.toList ∧ '\r' ∉ label.toList ∧
      '-' ∉ label.toList ∧ ':' ∉ label.toList ∧ label.toList.head?.any isSpace = false ∧
      strip label.toList = label.toList)
    ⟨fun ⟨a, b, c, d, e, f, g⟩ => ⟨a, b, c, d, e, f, g⟩,
      fun h => ⟨h.nonempty, h.newline, h.ret, h.dash, h.colon, h.start, h.stripped⟩⟩

/-- The labels of the template, in its order. -/
def labels : List String :=
  ["Time", "Request Number", "GroupID", "Total Transactions", "Route", "Method",
    "RefTime (Gas Computacional)", "ProofSize", "Tip", "Duration", "CPU Usage (start)",
    "CPU Usage (end)", "RAM Usage (start)", "RAM Usage (end)", "Transaction Success",
    "Parameters Length", "Test Type"]

theorem map_fst_lines (r : FinishedRequest) : r.lines.map Prod.fst = labels := rfl

theorem isLabel_labels : ∀ label ∈ labels, IsLabel label := by decide

theorem isLabel_lines (r : FinishedRequest) : ∀ l ∈ r.lines, IsLabel l.1 := by
  intro l h
  apply isLabel_labels
  rw [← map_fst_lines r]
  exact List.mem_map_of_mem h

/-- A line, stripped: the label, the colon, and the value without what is blank at its end. -/
theorem strip_line {l : String × List Char} (label : IsLabel l.1) :
    strip (margin ++ (l.1.toList ++ ':' :: ' ' :: l.2)) =
      l.1.toList ++ ':' :: (' ' :: l.2).rdropWhile isSpace := by
  obtain ⟨c, t, same⟩ := List.exists_cons_of_ne_nil label.nonempty
  have first : isSpace c = false := by simpa [same] using label.start
  rw [strip, trim_append_left isSpace_margin, trim, same, List.cons_append,
    List.dropWhile_cons_of_neg (by simp [first]), ← List.cons_append, ← same,
    rdropWhile_append_cons (by rfl)]

theorem readLine_line {l : String × List Char} (label : IsLabel l.1)
    (raw : Mapping (List Char) (List Char)) :
    readLine raw (strip (margin ++ (l.1.toList ++ ':' :: ' ' :: l.2))) =
      raw.insert l.1.toList (strip l.2) := by
  have whole := strip_line label
  have value : strip ((' ' :: l.2).rdropWhile isSpace) = strip l.2 := by
    rw [strip, trim_rdropWhile, trim_cons rfl, strip]
  have again : strip (strip (margin ++ (l.1.toList ++ ':' :: ' ' :: l.2))) =
      strip (margin ++ (l.1.toList ++ ':' :: ' ' :: l.2)) := trim_trim _
  rw [readLine, again, whole, if_neg (by simp), splitFirst_append_cons label.colon]
  simp only [label.stripped, value]

theorem readLine_nil (raw : Mapping (List Char) (List Char)) : readLine raw [] = raw := rfl

theorem readLine_strip (raw : Mapping (List Char) (List Char)) (l : List Char) :
    readLine raw (strip l) = readLine raw l := by
  have again : strip (strip l) = strip l := trim_trim l
  rw [readLine, readLine, again]

/-- An entry is read piece by piece; the blank lines and margins of it do not count. -/
theorem entryRaw_eq (t : List Char) :
    entryRaw t = (pieces isSpace '\n' t).foldl readLine .empty := by
  have skip : ∀ (ls : List (List Char)) (raw : Mapping (List Char) (List Char)),
      ls.foldl readLine raw = ((ls.map strip).filter (· ≠ [])).foldl readLine raw := by
    intro ls
    induction ls with
    | nil => exact fun raw => rfl
    | cons l ls ih =>
        intro raw
        rw [List.foldl_cons, List.map_cons, List.filter_cons, ih, ← readLine_strip raw l]
        by_cases blank : strip l = []
        · simp [blank, readLine_nil]
        · simp [blank]
  rw [← pieces_trim t, entryRaw, skip, pieces]
  rfl

/-- The lines of an entry, read: one key for each label, with its value stripped. -/
theorem pieces_lines {ls : List (String × List Char)} (label : ∀ l ∈ ls, IsLabel l.1)
    (quiet : ∀ l ∈ ls, Quiet l.2) (raw : Mapping (List Char) (List Char)) :
    (pieces isSpace '\n' (ls.flatMap line ++ margin)).foldl readLine raw =
      raw.insertAll (ls.map fun l => (l.1.toList, strip l.2)) := by
  induction ls generalizing raw with
  | nil =>
      have blank : pieces isSpace '\n' margin = [] := by decide
      rw [List.flatMap_nil, List.nil_append, blank]
      rfl
  | cons l ls ih =>
      rw [List.forall_mem_cons] at label quiet
      have regroup : (l :: ls).flatMap line ++ margin =
          (margin ++ (l.1.toList ++ ':' :: ' ' :: l.2)) ++ '\n' :: (ls.flatMap line ++ margin) := by
        simp [line]
      have oneLine : '\n' ∉ margin ++ (l.1.toList ++ ':' :: ' ' :: l.2) := by
        have inMargin : '\n' ∉ margin := by decide
        simp [inMargin, label.1.newline, quiet.1.newline]
      have shown : strip (margin ++ (l.1.toList ++ ':' :: ' ' :: l.2)) ≠ [] := by
        rw [strip_line label.1]
        simp
      rw [regroup, pieces_append_cons, pieces_of_not_mem oneLine, List.foldl_append]
      have one : [trim isSpace (margin ++ (l.1.toList ++ ':' :: ' ' :: l.2))].filter (· ≠ []) =
          [strip (margin ++ (l.1.toList ++ ':' :: ' ' :: l.2))] := by
        simpa [strip] using shown
      rw [one, List.foldl_cons, List.foldl_nil, readLine_line label.1, ih label.2 quiet.2]
      rfl

/-- The record of a finished request: each logged value, stripped. -/
def FinishedRequest.record (r : FinishedRequest) : Record :=
  { time := some (strip r.time.toISOString)
    requestNumber := some (strip (display r.loggedNumber))
    route := some (strip r.route)
    method := some (strip r.method.toList)
    refTime := some (strip (displayLocal r.refTime))
    proofSize := some (strip (displayLocal r.proofSize))
    tip := some (strip r.tip.toList)
    duration := some (strip r.durationText)
    groupID := some (strip (display r.groupID))
    cpuUsageStart := some (strip r.startCpu.percent)
    cpuUsageEnd := some (strip r.endCpu.percent)
    ramUsageStart := some (strip r.startMem.percent)
    ramUsageEnd := some (strip r.endMem.percent)
    transactionSuccess := some (strip r.transactionSuccess.toList)
    parametersLength := some (strip (digits r.getParamsLength))
    testType := some (strip (display r.testType))
    totalTransactions := some (strip (display r.totalTransactions)) }

/-- An entry up to its separator, without the line break and the margin it starts with. -/
def FinishedRequest.entryText (r : FinishedRequest) : List Char :=
  ("Time".toList ++ ':' :: ' ' :: (r.time.toISOString ++ ['\n'])) ++
    (r.lines.tail.flatMap line ++ margin)

/-- The line break and the margin around an entry. -/
def gap : List Char := '\n' :: margin

theorem isSpace_gap : ∀ c ∈ gap, isSpace c = true := List.all_eq_true.mp (by decide)

theorem gap_entryText (r : FinishedRequest) :
    gap ++ r.entryText = '\n' :: r.lines.flatMap line ++ margin := by
  have first : r.lines.flatMap line =
      line ("Time", r.time.toISOString) ++ r.lines.tail.flatMap line := List.flatMap_cons
  simp only [first, line, FinishedRequest.entryText, gap, List.cons_append, List.append_assoc,
    List.nil_append]

theorem logEntry_eq (r : FinishedRequest) :
    r.logEntry = gap ++ r.entryText ++ separator ++ gap := by
  rw [gap_entryText, FinishedRequest.logEntry, gap]

theorem textLog_eq (rs : List FinishedRequest) :
    textLog rs = (rs.filter FinishedRequest.printable).flatMap FinishedRequest.logEntry := by
  rw [textLog]
  induction rs with
  | nil => rfl
  | cons r rs ih => by_cases logged : r.printable <;> simp [logRequestToTxt, logged, ih]

theorem labels_nodup : (labels.map String.toList).Nodup := by decide

/-- The text of an entry is read as its record. -/
theorem entryOf_entryText {r : FinishedRequest} (quiet : r.Quiet) :
    entryOf (entryRaw r.entryText) = r.record := by
  have raw : entryRaw r.entryText =
      Mapping.empty.insertAll (r.lines.map fun l => (l.1.toList, strip l.2)) := by
    have newline : ∀ c ∈ ['\n'], isSpace c = true := by simp
    rw [← pieces_lines (isLabel_lines r) quiet.lines, entryRaw_eq, ← pieces_append_left isSpace_gap,
      gap_entryText, List.cons_append, ← List.singleton_append, pieces_append_left newline]
  have distinct : ((r.lines.map fun l => (l.1.toList, strip l.2)).map Prod.fst).Nodup := by
    have same : (r.lines.map fun l => (l.1.toList, strip l.2)).map Prod.fst =
        labels.map String.toList := by
      rw [← map_fst_lines r, List.map_map, List.map_map]
      rfl
    rw [same]
    exact labels_nodup
  have fields : ∀ l ∈ r.lines, (entryRaw r.entryText).get l.1.toList = some (strip l.2) := by
    intro l present
    rw [raw]
    exact Mapping.get_insertAll_of_mem _ distinct
      (List.mem_map_of_mem (f := fun l => (l.1.toList, strip l.2)) present)
  simp only [FinishedRequest.lines, List.forall_mem_cons] at fields
  obtain ⟨time, number, group, total, route, method, refTime, proofSize, tip, duration, cpuStart,
    cpuEnd, ramStart, ramEnd, success, length, test, -⟩ := fields
  rw [entryOf, time, number, group, total, route, method, refTime, proofSize, tip, duration, cpuStart,
    cpuEnd, ramStart, ramEnd, success, length, test, FinishedRequest.record]

/-! ## Reading the log -/

theorem universalNewlines_eq_self {s : List Char} (ret : '\r' ∉ s) : universalNewlines s = s := by
  fun_induction universalNewlines s with
  | case1 => rfl
  | case2 s ih => simp at ret
  | case3 c s other ih =>
      rw [List.mem_cons, not_or] at ret
      rw [ih ret.2, if_neg (Ne.symm ret.1)]

theorem ret_not_mem_entry {r : FinishedRequest} (quiet : r.Quiet) : '\r' ∉ r.logEntry := by
  have inMargin : '\r' ∉ margin := by decide
  have inSeparator : '\r' ∉ separator := by decide
  have inLines : '\r' ∉ r.lines.flatMap line := by
    intro h
    obtain ⟨l, present, inLine⟩ := List.mem_flatMap.mp h
    have label := (isLabel_lines r l present).ret
    have value := (quiet.lines l present).ret
    simp [line, inMargin, label, value] at inLine
  simp [FinishedRequest.logEntry, inMargin, inSeparator, inLines]

/-- An entry holds no separator but its own. -/
theorem avoids_entry {r : FinishedRequest} (quiet : r.Quiet) :
    Avoids separator (gap ++ r.entryText) := by
  have nonempty : separator ≠ [] := by decide
  have plain : ∀ {t : List Char}, '-' ∉ t → ¬ separator <:+: t := by
    intro t absent here
    exact absent (here.subset (by decide))
  have inMargin : Avoids separator margin := by
    have split : margin = List.replicate 7 ' ' ++ ' ' :: [] := rfl
    rw [split, avoids_append_cons (by decide) nonempty]
    exact ⟨plain (by decide), avoids_nil nonempty⟩
  have inLines : ∀ ls : List (String × List Char), (∀ l ∈ ls, IsLabel l.1) →
      (∀ l ∈ ls, Quiet l.2) → Avoids separator (ls.flatMap line ++ margin) := by
    intro ls
    induction ls with
    | nil => exact fun _ _ => inMargin
    | cons l ls ih =>
        intro label value
        rw [List.forall_mem_cons] at label value
        have regroup : (l :: ls).flatMap line ++ margin =
            (margin ++ l.1.toList) ++ ':' :: ([] ++ ' ' :: (l.2 ++ '\n' :: (ls.flatMap line ++ margin))) := by
          simp [line]
        have dash : '-' ∉ margin ++ l.1.toList := by
          have inMargin : '-' ∉ margin := by decide
          simp [inMargin, label.1.dash]
        rw [regroup, avoids_append_cons (by decide) nonempty, avoids_append_cons (by decide) nonempty,
          avoids_append_cons (by decide) nonempty]
        exact ⟨plain dash, plain (by simp), value.1.dashes, ih label.2 value.2⟩
  have regroup : gap ++ r.entryText = [] ++ '\n' :: (r.lines.flatMap line ++ margin) := by
    rw [gap_entryText]
    simp
  rw [regroup, avoids_append_cons (by decide) nonempty]
  exact ⟨plain (by simp), inLines _ (isLabel_lines r) quiet.lines⟩

/-- The log, with the gap before each entry moved to its end. -/
theorem gap_log (rs : List FinishedRequest) :
    gap ++ rs.flatMap FinishedRequest.logEntry =
      (rs.map fun r => gap ++ (gap ++ r.entryText)).flatMap (· ++ separator) ++ gap := by
  induction rs with
  | nil => simp
  | cons r rs ih =>
      rw [List.flatMap_cons, List.map_cons, List.flatMap_cons, logEntry_eq, List.append_assoc _ gap,
        ih]
      simp

theorem entryRaw_gap (t : List Char) : entryRaw (gap ++ t) = entryRaw t := by
  rw [entryRaw_eq, entryRaw_eq, pieces_append_left isSpace_gap]

theorem record_any (r : FinishedRequest) : r.record.any = true := by
  have shown : strip r.time.toISOString ≠ [] := by
    apply trim_ne_nil (c := 'Z') _ rfl
    simp [Date.toISOString]
  simp [Record.any, Record.values, FinishedRequest.record, shown]

theorem getLast_texts {ps : List (List Char)} (some : ps ≠ []) :
    (ps.flatMap (· ++ separator)).getLast? = Option.some '-' := by
  rcases List.eq_nil_or_concat ps with none | ⟨qs, q, rfl⟩
  · exact absurd none some
  · simp [separator]

theorem record_nothing : (entryOf (entryRaw [])).any = false := by decide

/-- The texts between the separators: two gaps meet where one entry follows another. -/
def entryTexts (r : FinishedRequest) (rs : List FinishedRequest) : List (List Char) :=
  r.entryText :: rs.map fun r => gap ++ (gap ++ r.entryText)

theorem log_eq (r : FinishedRequest) (rs : List FinishedRequest) :
    (r :: rs).flatMap FinishedRequest.logEntry =
      gap ++ ((entryTexts r rs).flatMap (· ++ separator) ++ gap) := by
  rw [List.flatMap_cons, logEntry_eq, List.append_assoc _ gap, gap_log, entryTexts,
    List.flatMap_cons]
  simp only [List.append_assoc]

theorem strip_log (r : FinishedRequest) (rs : List FinishedRequest) :
    strip ((r :: rs).flatMap FinishedRequest.logEntry) = (entryTexts r rs).flatMap (· ++ separator) := by
  have start : ((entryTexts r rs).flatMap (· ++ separator)).head? = some 'T' := rfl
  have stop : ((entryTexts r rs).flatMap (· ++ separator)).getLast? = some '-' :=
    getLast_texts (List.cons_ne_nil _ _)
  rw [log_eq, strip, trim_append_left isSpace_gap, trim_append_right isSpace_gap]
  exact trim_eq_self start stop rfl rfl

theorem avoids_entryTexts {r : FinishedRequest} {rs : List FinishedRequest}
    (quiet : ∀ r' ∈ r :: rs, r'.Quiet) : ∀ t ∈ entryTexts r rs, Avoids separator t := by
  rw [List.forall_mem_cons] at quiet
  have other : ∀ c ∈ gap, c ∉ separator := by simp [gap, margin, separator]
  rw [entryTexts, List.forall_mem_cons, List.forall_mem_map]
  exact ⟨(avoids_entry quiet.1).of_append,
    fun r member => (avoids_entry (quiet.2 r member)).append_left (by decide) other⟩

theorem records_entryTexts {r : FinishedRequest} {rs : List FinishedRequest}
    (quiet : ∀ r' ∈ r :: rs, r'.Quiet) :
    ((entryTexts r rs).map fun t => entryOf (entryRaw t)) =
      (r :: rs).map FinishedRequest.record := by
  rw [List.forall_mem_cons] at quiet
  rw [entryTexts, List.map_cons, List.map_cons, List.map_map, entryOf_entryText quiet.1]
  refine congrArg (List.cons r.record) (List.map_congr_left fun r member => ?_)
  rw [Function.comp_apply, entryRaw_gap, entryRaw_gap, entryOf_entryText (quiet.2 r member)]

theorem filter_records (rs : List FinishedRequest) :
    (rs.map FinishedRequest.record).filter Record.any = rs.map FinishedRequest.record := by
  rw [List.filter_eq_self, List.forall_mem_map]
  exact fun r _ => record_any r

/-- Entries that follow each other are read as their records. -/
theorem readData_entries {rs : List FinishedRequest} (quiet : ∀ r ∈ rs, r.Quiet) :
    readData (rs.flatMap FinishedRequest.logEntry) = rs.map FinishedRequest.record := by
  have ret : '\r' ∉ rs.flatMap FinishedRequest.logEntry := by
    intro h
    obtain ⟨r, member, inEntry⟩ := List.mem_flatMap.mp h
    exact ret_not_mem_entry (quiet r member) inEntry
  rw [readData, universalNewlines_eq_self ret]
  cases rs with
  | nil => rfl
  | cons r rs =>
      -- the text after the last separator is empty, and so is its record
      rw [strip_log, splitSeq_flatMap (by decide) (avoids_entryTexts quiet), List.map_append,
        records_entryTexts quiet, List.filter_append, filter_records, List.map_singleton,
        List.filter_singleton, record_nothing]
      exact List.append_nil _

/-- **The text log decodes to what was logged**: one record for every request that
appended an entry, in order, and no other. -/
theorem readData_log (rs : List FinishedRequest) (quiet : ∀ r ∈ rs, r.Quiet) :
    readData (textLog rs) =
      (rs.filter FinishedRequest.printable).map FinishedRequest.record := by
  rw [textLog_eq]
  exact readData_entries fun r logged => quiet r (List.mem_of_mem_filter logged)

theorem readData_log_roles :
    readData (textLog [roleRequest 1 "5Grw", roleRequest 2 "5FHn"]) =
      [(roleRequest 1 "5Grw").record, (roleRequest 2 "5FHn").record] := by
  refine readData_log [roleRequest 1 "5Grw", roleRequest 2 "5FHn"] fun r member => ?_
  simp only [List.mem_cons, List.not_mem_nil, or_false] at member
  rcases member with rfl | rfl
  all_goals exact
    { groupID := ⟨by decide, by decide, by decide⟩
      requestNumber := ⟨by decide, by decide, by decide⟩
      totalTransactions := ⟨by decide, by decide, by decide⟩
      testType := ⟨by decide, by decide, by decide⟩
      urlPath := ⟨by decide, by decide, by decide⟩ }

end PatientAccess.Log
