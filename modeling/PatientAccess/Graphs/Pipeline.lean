/-
# Graphs.Pipeline -- from a finished request to its parsed entry

A finished request is logged twice, as text and as JSON, by loggers that look at the clock
and at the load of the machine on their own.  Text has lost what kind of value a thing was,
and what blanks stood around it; numbers have become digits in it, with a unit or a sign
after them.

None of this shows for a request whose client sent plain values: either entry is parsed to
what its logger measured (`parseEntry_text`, `parseEntry_json`).  So what `read_data` reads
of the text log is the data of the requests that count, in the order of their appends
(`parseData_text`); and `json.load` finds entries that say the same of the requests, but
for the measurements (`logs_agree`).
-/
import PatientAccess.Graphs.ParseData
import PatientAccess.Log.JsonLog

namespace PatientAccess.Graphs

open PatientAccess.Theory PatientAccess.Theory.Numbers PatientAccess.Theory.Doubles
open PatientAccess.Log (FinishedRequest Usage display printInt digits pad)
open PatientAccess.Server (LocalValue)

set_option autoImplicit false

/-! ## What a request is parsed to -/

/-- What a load is, as far as it is logged. -/
def usageLiteral : Usage → Literal
  | .nan => .nan
  | .fixed negative n => .finite negative (n / 100)

def intLiteral : Int → Literal
  | .ofNat n => .finite false n
  | .negSucc n => .finite true (n + 1 : Nat)

/-- What a number sent by the client counts as. -/
def countOf (t : List Char) : Option Int := if t = "N/A".toList then some 0 else readInt t

section

variable {T : Type} (p : Python T)

def gasOf : LocalValue → Double
  | .number n | .codec n => .ofLiteral (.finite false n)
  | .text _ => .zero

/-- The parsed entry of a request; `none` where it does not count, or says no number. -/
def parsedOf (r : FinishedRequest) : Option (ParsedEntry T) :=
  if r.transactionSuccess = "Yes" ∨ r.method = "GET" then do
    let timestamp ← p.fromisoformat ((py r.time.toISOString).replace (lit "Z") (lit "+00:00"))
    let requestNumber ← countOf (display r.loggedNumber)
    let totalTransactions ← countOf (display r.totalTransactions)
    let duration := .ofLiteral (intLiteral r.duration)
    let cpuStart := .ofLiteral (usageLiteral r.startCpu)
    let cpuEnd := .ofLiteral (usageLiteral r.endCpu)
    let ramStart := .ofLiteral (usageLiteral r.startMem)
    let ramEnd := .ofLiteral (usageLiteral r.endMem)
    let refTime := gasOf r.refTime
    let proofSize := gasOf r.proofSize
    some
      { duration
        cpuUsageStart := cpuStart
        cpuUsageEnd := cpuEnd
        ramUsageStart := ramStart
        ramUsageEnd := ramEnd
        cpuUsageDiff := cpuEnd.sub cpuStart
        ramUsageDiff := ramEnd.sub ramStart
        transactionCost := if r.method = "GET" then .zero else refTime.add proofSize
        latency := duration
        timestamp
        groupID := .str (py (display r.groupID))
        requestNumber
        totalTransactions
        testType := p.lower (py (display r.testType))
        parametersLength := r.getParamsLength
        method := .str (lit r.method)
        route := getBaseRoute (py r.route)
        refTime
        proofSize }
  else none

/-- An entry that shows a request: its fields as `parse_data` reads them.  Where the two
files differ in the kind of a value, this says what it comes to. -/
structure ShowsRequest (r : FinishedRequest) (entry : PyDict) : Prop where
  time : entry.find? (lit "time") = some (.str (py r.time.toISOString))
  route : entry.find? (lit "route") = some (.str (py r.route))
  method : entry.find? (lit "method") = some (.str (lit r.method))
  duration : entry.find? (lit "duration") = some (.str (py r.durationText))
  cpuStart : entry.find? (lit "cpuUsageStart") = some (.str (py r.startCpu.percent))
  cpuEnd : entry.find? (lit "cpuUsageEnd") = some (.str (py r.endCpu.percent))
  ramStart : entry.find? (lit "ramUsageStart") = some (.str (py r.startMem.percent))
  ramEnd : entry.find? (lit "ramUsageEnd") = some (.str (py r.endMem.percent))
  success : entry.find? (lit "transactionSuccess") = some (.str (lit r.transactionSuccess))
  groupID : entry.find? (lit "groupID") = some (.str (py (display r.groupID)))
  testType : entry.find? (lit "testType") = some (.str (py (display r.testType)))
  stripped : Log.strip (display r.testType) = display r.testType
  given : display r.groupID ≠ [] ∧ display r.testType ≠ []
  requestNumber : ∃ v, entry.find? (lit "requestNumber") = some v ∧ v.truthy = true ∧
    (if v.isStr "N/A" then some 0 else v.toInt) = countOf (display r.loggedNumber)
  totalTransactions : ∃ v, entry.find? (lit "totalTransactions") = some v ∧ v.truthy = true ∧
    (if v.isStr "N/A" then some 0 else v.toInt) = countOf (display r.totalTransactions)
  parametersLength : ∃ v, entry.find? (lit "parametersLength") = some v ∧
    v.isStr "N/A" = false ∧ v.toInt = some (r.getParamsLength : Int)
  refTime : ∃ v, entry.find? (lit "refTime") = some v ∧ v.orZero = some (gasOf r.refTime)
  proofSize : ∃ v, entry.find? (lit "proofSize") = some v ∧ v.orZero = some (gasOf r.proofSize)

end

/-! ## Reading what was measured -/

theorem getD_of_find {entry : PyDict} {key : String} {v : Value}
    (found : entry.find? (lit key) = some v) (default : Value) : entry.getD key default = v := by
  rw [PyDict.getD, found, Option.getD_some]

/-- A unit at the end goes, where its last character is nowhere else. -/
theorem replace_unit {x init : List Char} {d : Char} (absent : d ∉ x) (single : d ∉ init) :
    (py (x ++ (init ++ [d]))).replace (py (init ++ [d])) [] = py x := by
  have notIn : Utf16.Point.scalar d ∉ py x ++ py init := by
    simp [py, absent, single]
  have avoids : Text.Avoids (py (init ++ [d])) (py x) := by
    intro here
    have unit : py (init ++ [d]) = py init ++ [.scalar d] := List.map_append
    rw [unit, List.dropLast_concat] at here
    exact notIn (here.subset (List.mem_append_right _ (List.mem_singleton_self _)))
  have text : py (x ++ (init ++ [d])) = py x ++ py (init ++ [d]) ++ [] := by
    rw [List.append_nil]
    exact List.map_append
  rw [PyStr.replace, text, Text.splitSeq_append (by simp [py]) avoids]
  show List.intercalate [] [py x, []] = py x
  simp [List.intercalate, List.intersperse]

/-- What is read of a measured value: its number, once the unit is gone. -/
theorem measured_eq {entry : PyDict} {key unit : String}
    {x : List Char} (init : List Char) {d : Char} (isUnit : unit.toList = init ++ [d])
    (found : entry.find? (lit key) = some (.str (py (x ++ (init ++ [d])))))
    (absent : d ∉ x) (single : d ∉ init) (stripped : Log.strip x = x) :
    measured entry key unit = (readFloat x).map .ofLiteral := by
  rw [measured, getD_of_find found, Value.asStr, Option.bind_some, lit, isUnit,
    replace_unit absent single, Value.toFloat, strip_py, stripped, chars?_py]
  rfl

/-! ## The texts of numbers -/

/-- A text without blanks is not stripped of anything. -/
theorem strip_of_noSpace {s : List Char} (none : ∀ c ∈ s, Log.isSpace c = false) :
    Log.strip s = s := by
  cases s with
  | nil => rfl
  | cons c s =>
      have last : (c :: s).getLast? = some ((c :: s).getLast (List.cons_ne_nil c s)) :=
        List.getLast?_eq_some_getLast _
      exact Text.trim_eq_self rfl last (none c List.mem_cons_self) (none _ (List.getLast_mem _))

theorem isSpace_of_isDigit {c : Char} (digit : c.isDigit = true) : Log.isSpace c = false := by
  have range : 48 ≤ c.toNat ∧ c.toNat ≤ 57 := Char.isDigit_iff_toNat.mp digit
  simp [Log.isSpace]
  omega

theorem noSpace_digits (n : Nat) : ∀ c ∈ digits n, Log.isSpace c = false :=
  fun c member => isSpace_of_isDigit ((digits_toDigits n).all c member)

theorem noSpace_pad (width n : Nat) : ∀ c ∈ pad width n, Log.isSpace c = false :=
  fun c member => isSpace_of_isDigit (((digits_toDigits n).pad width).all c member)

/-- The number in the duration. -/
theorem readFloat_printInt (n : Int) : readFloat (printInt n) = some (intLiteral n) := by
  cases n with
  | ofNat n => exact readFloat_digits n false
  | negSucc n => exact readFloat_digits (n + 1) true

theorem noSpace_printInt (n : Int) : ∀ c ∈ printInt n, Log.isSpace c = false := by
  intro c member
  cases n with
  | ofNat n => exact noSpace_digits n c member
  | negSucc n =>
      rcases List.mem_cons.mp member with rfl | inDigits
      · decide
      · exact noSpace_digits (n + 1) c inDigits

theorem not_mem_printInt {d : Char} (other : d.isDigit = false) (notSign : d ≠ '-') (n : Int) :
    d ∉ printInt n := by
  cases n with
  | ofNat n => exact (digits_toDigits n).ne other
  | negSucc n =>
      intro member
      rcases List.mem_cons.mp member with sign | inDigits
      · exact notSign sign
      · exact (digits_toDigits (n + 1)).ne other inDigits

/-- The number in a load. -/
theorem readFloat_toFixed (u : Usage) : readFloat u.toFixed = some (usageLiteral u) := by
  cases u with
  | nan => decide
  | fixed negative n => exact readFloat_hundredths n negative

theorem mem_toFixed {u : Usage} {c : Char} (member : c ∈ u.toFixed) :
    c.isDigit = true ∨ c ∈ ['-', '.', 'N', 'a'] := by
  cases u with
  | nan =>
      simp only [Usage.toFixed, List.mem_cons, List.not_mem_nil, or_false] at member
      rcases member with rfl | rfl | rfl <;> decide
  | fixed negative n =>
      rcases List.mem_append.mp member with sign | rest
      · cases negative with
        | true =>
            rw [List.mem_singleton.mp sign]
            decide
        | false => cases sign
      · rcases List.mem_append.mp rest with whole | fraction
        · exact .inl ((digits_toDigits _).all c whole)
        · rcases List.mem_cons.mp fraction with rfl | inPad
          · decide
          · exact .inl (((digits_toDigits _).pad 2).all c inPad)

theorem noSpace_toFixed (u : Usage) : ∀ c ∈ u.toFixed, Log.isSpace c = false := by
  intro c member
  rcases mem_toFixed member with digit | sign
  · exact isSpace_of_isDigit digit
  · simp only [List.mem_cons, List.not_mem_nil, or_false] at sign
    rcases sign with rfl | rfl | rfl | rfl <;> decide

theorem not_mem_toFixed (u : Usage) : '%' ∉ u.toFixed := by
  intro member
  rcases mem_toFixed member with digit | sign
  · cases digit
  · exact absurd sign (by decide)

/-! ## An entry that shows a request -/

theorem isStr_lit (s t : String) :
    (Value.str (lit s) : Value).isStr t = decide (s = t) := by
  rw [Value.isStr, decide_eq_decide]
  exact ⟨fun same => String.toList_inj.mp (py_injective same), fun same => same ▸ rfl⟩

theorem truthy_py {s : List Char} (nonempty : s ≠ []) :
    (Value.str (py s)).truthy = true := by
  simp [Value.truthy, py, nonempty]

theorem not_allNone {entry : PyDict} {key : PyStr} {s : PyStr}
    (found : entry.find? key = some (.str s)) : entry.allNone = false := by
  have member : (key, Value.str s) ∈ entry := by
    obtain ⟨l₁, l₂, split, -⟩ := List.lookup_eq_some_iff.mp found
    have inReverse : (key, Value.str s) ∈ entry.reverse := by
      rw [split]
      exact List.mem_append_right _ List.mem_cons_self
    exact List.mem_reverse.mp inReverse
  rw [PyDict.allNone, List.all_eq_false]
  refine ⟨_, member, ?_⟩
  rw [found]
  exact Bool.false_ne_true

section

variable {T : Type} {p : Python T} {r : FinishedRequest} {entry : PyDict}

/-- A load as `parse_data` reads it. -/
theorem measured_usage {key : String} {u : Usage}
    (found : entry.find? (lit key) = some (.str (py u.percent))) :
    measured entry key "%" = some (.ofLiteral (usageLiteral u)) := by
  rw [measured_eq [] rfl found (not_mem_toFixed u) List.not_mem_nil (strip_of_noSpace (noSpace_toFixed u)),
    readFloat_toFixed]
  rfl

theorem gas_eq {key : String} {v : Value} (found : entry.find? (lit key) = some v) :
    gas entry key = v.orZero := by
  rw [gas, PyDict.get, getD_of_find found, getD_of_find found, Value.orZero]

theorem ShowsRequest.present (shows : ShowsRequest r entry) :
    (requiredFields.any fun field => !(entry.get field).truthy) = false := by
  obtain ⟨v, foundNumber, number, -⟩ := shows.requestNumber
  obtain ⟨w, foundTotal, total, -⟩ := shows.totalTransactions
  have time : r.time.toISOString ≠ [] := by
    intro empty
    have sign : 'Z' ∈ r.time.toISOString := by simp [Log.Date.toISOString]
    rw [empty] at sign
    cases sign
  have duration : r.durationText ≠ [] := by simp [FinishedRequest.durationText]
  have usage : ∀ u : Usage, u.percent ≠ [] := fun u => by simp [Usage.percent]
  have method : r.method.toList ≠ [] := by
    have all : ∀ m ∈ Log.httpMethods, m.toList ≠ [] := by decide
    exact all r.method r.accepted
  simp only [requiredFields, PyDict.get, List.any_cons, List.any_nil, getD_of_find shows.time,
    getD_of_find shows.duration, getD_of_find shows.cpuStart, getD_of_find shows.cpuEnd,
    getD_of_find shows.ramStart, getD_of_find shows.ramEnd, getD_of_find shows.testType,
    getD_of_find shows.method, getD_of_find shows.groupID, getD_of_find foundNumber,
    getD_of_find foundTotal, truthy_py time, truthy_py duration, truthy_py (usage _), lit,
    truthy_py method, truthy_py shows.given.1, truthy_py shows.given.2, number, total,
    Bool.not_true, Bool.or_self]

theorem ShowsRequest.cost (shows : ShowsRequest r entry) :
    calculateTransactionCost entry =
      some (if r.method = "GET" then .zero else (gasOf r.refTime).add (gasOf r.proofSize)) := by
  obtain ⟨v, foundRef, ref⟩ := shows.refTime
  obtain ⟨w, foundProof, proof⟩ := shows.proofSize
  rw [calculateTransactionCost, PyDict.get, getD_of_find shows.method, isStr_lit]
  by_cases query : r.method = "GET"
  · simp [query]
  · simp only [query, decide_false, Bool.false_eq_true, if_false, getD_of_find foundRef,
      getD_of_find foundProof, ref, proof]
    rfl

theorem ShowsRequest.parse (shows : ShowsRequest r entry) : parseEntry p entry = parsedOf p r := by
  have duration : measured entry "duration" " ms" = some (.ofLiteral (intLiteral r.duration)) := by
    rw [measured_eq [' ', 'm'] rfl shows.duration (not_mem_printInt rfl (by decide) _)
      (by decide) (strip_of_noSpace (noSpace_printInt _)), readFloat_printInt]
    rfl
  obtain ⟨v, foundNumber, -, number⟩ := shows.requestNumber
  obtain ⟨w, foundTotal, -, total⟩ := shows.totalTransactions
  obtain ⟨x, foundLength, isNumber, length⟩ := shows.parametersLength
  obtain ⟨y, foundRef, ref⟩ := shows.refTime
  obtain ⟨z, foundProof, proof⟩ := shows.proofSize
  have testType : normalizedTestType p entry = p.lower (py (display r.testType)) := by
    rw [normalizedTestType, getD_of_find shows.testType]
    show p.lower (py (display r.testType)).strip = _
    rw [strip_py, shows.stripped]
  have counts : ((entry.get "transactionSuccess").isStr "Yes" || (entry.get "method").isStr "GET") =
      decide (r.transactionSuccess = "Yes" ∨ r.method = "GET") := by
    rw [PyDict.get, PyDict.get, getD_of_find shows.success, getD_of_find shows.method, isStr_lit,
      isStr_lit, Bool.decide_or]
  rw [parseEntry, not_allNone shows.time, counts, shows.present, parsedOf]
  by_cases counted_ : r.transactionSuccess = "Yes" ∨ r.method = "GET"
  · simp only [counted_, decide_true, if_true, Bool.false_eq_true, if_false, duration,
      measured_usage shows.cpuStart, measured_usage shows.cpuEnd, measured_usage shows.ramStart,
      measured_usage shows.ramEnd, getD_of_find shows.route, shows.cost, PyDict.get,
      getD_of_find shows.time, Value.asStr, counted, getD_of_find foundNumber,
      getD_of_find foundTotal, getD_of_find foundLength, number, total, isNumber, length,
      gas_eq foundRef, gas_eq foundProof, ref, proof, getD_of_find shows.groupID,
      getD_of_find shows.method, testType]
    rfl
  · simp only [counted_, decide_false, Bool.false_eq_true, if_false]

end

/-! ## The two entries of a request -/

/-- A text with no blank margins, which the text log can hold. -/
structure IsText (v : Json) : Prop where
  text : v = Log.chars (display v)
  stripped : Log.strip (display v) = display v
  quiet : Log.Quiet (display v)

/-- A count, or a text. -/
def IsCount (v : Json) : Prop := IsText v ∨ ∃ n : Nat, v = .num (.ofNat n)

/-- What the client contributes is plain: texts and counts. -/
structure Plain (r : FinishedRequest) : Prop where
  groupID : IsText r.groupID
  testType : IsText r.testType
  requestNumber : IsCount r.loggedNumber
  totalTransactions : IsCount r.totalTransactions
  route : Log.strip r.route = r.route
  urlPath : Log.Quiet r.urlPath

/-- Gas that fits into 64 bits, and goes into JSON as a number. -/
def GasPlain (codecToJSON : Nat → Json) (r : FinishedRequest) : Prop :=
  ∀ n, (r.refTime = .number n ∨ r.refTime = .codec n ∨ r.proofSize = .number n ∨
    r.proofSize = .codec n) → n < 2 ^ 64 ∧ codecToJSON n = .num (.ofNat n)

section

variable {T : Type} (p : Python T) {codecToJSON : Nat → Json} {r : FinishedRequest}

theorem truthy_firstTruthy (vs : List (Option Json)) : Log.truthy (Log.firstTruthy vs) = true := by
  induction vs with
  | nil => decide
  | cons v vs ih =>
      cases v with
      | none => exact ih
      | some v =>
          rw [Log.firstTruthy]
          split
          · assumption
          · exact ih

theorem display_ne_nil {v : Json} (isText : IsText v) (given : Log.truthy v = true) :
    display v ≠ [] := by
  intro empty
  rw [isText.text, empty] at given
  cases given

/-- A string in JSON, as Python has it. -/
theorem ofJson_chars (t : List Char) : (ofJson (Log.chars t)) = .str (py t) := by
  rw [Log.chars, ofJson, Utf16.points_ofText]
  rfl

theorem ofJson_text {v : Json} (isText : IsText v) : ofJson v = .str (py (display v)) := by
  conv_lhs => rw [isText.text]
  exact ofJson_chars _

theorem ofJson_count (n : Nat) : ofJson (.num (.ofNat n)) = .int n := by
  have read : readInt (Numeral.ofNat n).text = some (n : Int) := readInt_digits n
  rw [ofJson, read]

/-- A text as a number: what `int` reads of it, stripped or not. -/
theorem count_text {t : List Char} (stripped : Log.strip t = t) :
    (if (Value.str (py t) : Value).isStr "N/A" then some 0 else (Value.str (py t)).toInt) =
      countOf t := by
  have same : (Value.str (py t) : Value).isStr "N/A" = decide (t = "N/A".toList) := by
    rw [Value.isStr, decide_eq_decide]
    exact ⟨fun eq => py_injective eq, fun eq => eq ▸ rfl⟩
  rw [same, countOf, Value.toInt, strip_py, stripped, chars?_py]
  simp only [decide_eq_true_eq, Option.bind_some]

theorem digits_ne (n : Nat) : digits n ≠ "N/A".toList := by
  intro same
  have letter : 'N' ∈ digits n := by
    rw [same]
    decide
  exact (digits_toDigits n).ne (by decide) letter

theorem isStr_digits (n : Nat) : (Value.str (py (digits n)) : Value).isStr "N/A" = false := by
  rw [Value.isStr, decide_eq_false_iff_not]
  exact fun same => digits_ne n (py_injective same)

theorem countOf_digits (n : Nat) : countOf (digits n) = some (n : Int) := by
  rw [countOf, if_neg (digits_ne n)]
  exact readInt_digits n

/-- A count in JSON counts as its text does. -/
theorem json_count {v : Json} (isCount : IsCount v) (given : Log.truthy v = true) :
    (ofJson v).truthy = true ∧
      (if (ofJson v).isStr "N/A" then some 0 else (ofJson v).toInt) = countOf (display v) := by
  rcases isCount with isText | ⟨n, rfl⟩
  · rw [ofJson_text isText]
    exact ⟨truthy_py (display_ne_nil isText given), count_text isText.stripped⟩
  · have positive : n ≠ 0 := by
      rintro rfl
      revert given
      decide
    have shown : display (.num (.ofNat n)) = digits n := rfl
    rw [ofJson_count, shown, countOf_digits]
    refine ⟨?_, rfl⟩
    simp [Value.truthy, positive]

theorem text_count {v : Json} (isCount : IsCount v) (given : Log.truthy v = true) :
    (Value.str (py (Log.strip (display v)))).truthy = true ∧
      (if (Value.str (py (Log.strip (display v))) : Value).isStr "N/A" then some 0
        else (Value.str (py (Log.strip (display v)))).toInt) = countOf (display v) := by
  have stripped : Log.strip (display v) = display v := by
    rcases isCount with isText | ⟨n, rfl⟩
    · exact isText.stripped
    · exact strip_of_noSpace (noSpace_digits n)
  have nonempty : display v ≠ [] := by
    rcases isCount with isText | ⟨n, rfl⟩
    · exact display_ne_nil isText given
    · exact (digits_toDigits n).nonempty
  rw [stripped]
  exact ⟨truthy_py nonempty, count_text stripped⟩

theorem floatOfInt_nat {n : Nat} (small : n < 2 ^ 64) :
    floatOfInt n = some (.ofLiteral (.finite false n)) := by
  have inRange : |((n : Int) : ℚ)| < Doubles.bound := by
    rw [Int.cast_natCast, Nat.abs_cast]
    exact lt_trans (by exact_mod_cast small) pow_lt_bound
  have literal : Double.ofLiteral (.finite false n) = Double.ofRat ((n : Int) : ℚ) := by
    rw [Int.cast_natCast]
    rfl
  rw [floatOfInt, literal, Double.ofRat_of_lt inRange, Double.finite?]

/-- The gas in JSON counts as its text does. -/
theorem json_gas {v : LocalValue} (text : ∀ s, v = .text s → s = "N/A")
    (bound : ∀ n, v = .number n ∨ v = .codec n →
      n < 2 ^ 64 ∧ codecToJSON n = .num (.ofNat n)) :
    (ofJson (Log.localJson codecToJSON v)).orZero = some (gasOf v) := by
  cases v with
  | number n =>
      rw [Log.localJson, ofJson_count]
      exact floatOfInt_nat (bound n (.inl rfl)).1
  | codec n =>
      obtain ⟨small, isNumber⟩ := bound n (.inr rfl)
      rw [Log.localJson, isNumber, ofJson_count]
      exact floatOfInt_nat small
  | text s =>
      have notAvailable : Log.localJson codecToJSON (.text s) = Log.chars "N/A".toList := by
        rw [text s rfl]
        rfl
      rw [notAvailable, ofJson_chars]
      rfl

theorem text_gas {v : LocalValue} (text : ∀ s, v = .text s → s = "N/A") :
    (Value.str (py (Log.strip (Log.displayLocal v)))).orZero = some (gasOf v) := by
  have number : ∀ n : Nat, (Value.str (py (Log.strip (digits n)))).orZero =
      some (.ofLiteral (.finite false n)) := by
    intro n
    have read : readFloat (digits n) = some (.finite false n) := readFloat_digits n false
    rw [strip_of_noSpace (noSpace_digits n), Value.orZero, isStr_digits, if_neg Bool.false_ne_true,
      Value.toFloat, strip_py, strip_of_noSpace (noSpace_digits n), chars?_py, Option.bind_some, read]
    rfl
  cases v with
  | number n | codec n => exact number n
  | text s =>
      rw [text s rfl]
      rfl

/-- Gas that is text is not there. -/
theorem localOrNA_text {value : Option LocalValue}
    (written : ∀ s, value = some (.text s) → s = "N/A") (s : String)
    (same : Log.localOrNA value = .text s) : s = "N/A" := by
  unfold Log.localOrNA at same
  split at same
  · split at same
    · exact (LocalValue.text.inj same).symm
    · cases same
  · cases same
  · next t =>
    split at same
    · exact (LocalValue.text.inj same).symm
    · exact (LocalValue.text.inj same) ▸ written t rfl
  · exact (LocalValue.text.inj same).symm

theorem refTime_text (s : String) (same : r.refTime = .text s) : s = "N/A" :=
  localOrNA_text r.written.gasWritten.refTime s same

theorem proofSize_text (s : String) (same : r.proofSize = .text s) : s = "N/A" :=
  localOrNA_text r.written.gasWritten.proofSize s same

/-- The texts the server makes itself have no blank margins. -/
theorem strip_time (r : FinishedRequest) : Log.strip r.time.toISOString = r.time.toISOString := by
  have year : ∀ c ∈ r.time.yearText, Log.isSpace c = false := by
    unfold Log.Date.yearText
    split
    · exact noSpace_pad 4 _
    · exact List.forall_mem_cons.mpr ⟨by decide, noSpace_pad 6 _⟩
  refine strip_of_noSpace ?_
  simp only [Log.Date.toISOString, List.forall_mem_append, List.forall_mem_cons]
  exact ⟨year, by decide, noSpace_pad 2 _, by decide, noSpace_pad 2 _, by decide, noSpace_pad 2 _,
    by decide, noSpace_pad 2 _, by decide, noSpace_pad 2 _, by decide, noSpace_pad 3 _, by decide,
    List.forall_mem_nil _⟩

theorem strip_method (r : FinishedRequest) : Log.strip r.method.toList = r.method.toList := by
  have all : ∀ m ∈ Log.httpMethods, Log.strip m.toList = m.toList := by decide
  exact all r.method r.accepted

theorem strip_duration (r : FinishedRequest) : Log.strip r.durationText = r.durationText := by
  have nonempty : printInt r.duration ≠ [] := by
    cases r.duration with
    | ofNat n => exact (digits_toDigits n).nonempty
    | negSucc n => exact List.cons_ne_nil _ _
  obtain ⟨c, x, split⟩ := List.exists_cons_of_ne_nil nonempty
  have first : r.durationText.head? = some c := by
    rw [FinishedRequest.durationText, split]
    rfl
  have last : r.durationText.getLast? = some 's' := by
    simp [FinishedRequest.durationText]
  refine Text.trim_eq_self first last (noSpace_printInt r.duration c ?_) (by decide)
  rw [split]
  exact List.mem_cons_self

theorem strip_percent (u : Usage) : Log.strip u.percent = u.percent := by
  refine strip_of_noSpace (List.forall_mem_append.mpr ⟨noSpace_toFixed u, ?_⟩)
  exact List.forall_mem_cons.mpr ⟨by decide, List.forall_mem_nil _⟩

theorem strip_success (r : FinishedRequest) :
    Log.strip r.transactionSuccess.toList = r.transactionSuccess.toList := by
  unfold FinishedRequest.transactionSuccess
  split <;> decide

/-- The text entry shows the request. -/
theorem shows_text (plain : Plain r) :
    ShowsRequest r (entryOfRecord r.record) where
  time := congrArg (fun t => some (Value.str (py t))) (strip_time r)
  route := congrArg (fun t => some (Value.str (py t))) plain.route
  method := congrArg (fun t => some (Value.str (py t))) (strip_method r)
  duration := congrArg (fun t => some (Value.str (py t))) (strip_duration r)
  cpuStart := congrArg (fun t => some (Value.str (py t))) (strip_percent r.startCpu)
  cpuEnd := congrArg (fun t => some (Value.str (py t))) (strip_percent r.endCpu)
  ramStart := congrArg (fun t => some (Value.str (py t))) (strip_percent r.startMem)
  ramEnd := congrArg (fun t => some (Value.str (py t))) (strip_percent r.endMem)
  success := congrArg (fun t => some (Value.str (py t))) (strip_success r)
  groupID := congrArg (fun t => some (Value.str (py t))) plain.groupID.stripped
  testType := congrArg (fun t => some (Value.str (py t))) plain.testType.stripped
  stripped := plain.testType.stripped
  given := ⟨display_ne_nil plain.groupID (truthy_firstTruthy _),
    display_ne_nil plain.testType (truthy_firstTruthy _)⟩
  requestNumber := ⟨_, rfl, text_count plain.requestNumber (truthy_firstTruthy _)⟩
  totalTransactions := ⟨_, rfl, text_count plain.totalTransactions (truthy_firstTruthy _)⟩
  parametersLength := by
    refine ⟨.str (py (digits r.getParamsLength)), ?_, isStr_digits _, ?_⟩
    · exact congrArg (fun t => some (Value.str (py t))) (strip_of_noSpace (noSpace_digits _))
    · rw [Value.toInt, strip_py, strip_of_noSpace (noSpace_digits _), chars?_py]
      exact readInt_digits _
  refTime := ⟨_, rfl, text_gas refTime_text⟩
  proofSize := ⟨_, rfl, text_gas proofSize_text⟩

/-- The JSON entry shows it too. -/
theorem shows_json (plain : Plain r) (gasPlain : GasPlain codecToJSON r) :
    ∃ entry, entryOfJson (Log.logEntry codecToJSON r) = some entry ∧ ShowsRequest r entry := by
  refine ⟨_, rfl, ?_⟩
  exact
    { time := congrArg some (ofJson_chars _)
      route := congrArg some (ofJson_chars _)
      method := congrArg some (ofJson_chars _)
      duration := congrArg some (ofJson_chars _)
      cpuStart := congrArg some (ofJson_chars _)
      cpuEnd := congrArg some (ofJson_chars _)
      ramStart := congrArg some (ofJson_chars _)
      ramEnd := congrArg some (ofJson_chars _)
      success := congrArg some (ofJson_chars _)
      groupID := congrArg some (ofJson_text plain.groupID)
      testType := congrArg some (ofJson_text plain.testType)
      stripped := plain.testType.stripped
      given := ⟨display_ne_nil plain.groupID (truthy_firstTruthy _),
        display_ne_nil plain.testType (truthy_firstTruthy _)⟩
      requestNumber := ⟨_, rfl, json_count plain.requestNumber (truthy_firstTruthy _)⟩
      totalTransactions := ⟨_, rfl, json_count plain.totalTransactions (truthy_firstTruthy _)⟩
      parametersLength := ⟨_, rfl, by rw [ofJson_count]; rfl, by rw [ofJson_count]; rfl⟩
      refTime := ⟨_, rfl, json_gas refTime_text fun n is => gasPlain n (by tauto)⟩
      proofSize := ⟨_, rfl, json_gas proofSize_text fun n is => gasPlain n (by tauto)⟩ }

theorem parseEntry_text (plain : Plain r) :
    parseEntry p (entryOfRecord r.record) = parsedOf p r := (shows_text plain).parse

theorem parseEntry_json (plain : Plain r) (gasPlain : GasPlain codecToJSON r) :
    (entryOfJson (Log.logEntry codecToJSON r)).map (parseEntry p) = some (parsedOf p r) := by
  obtain ⟨entry, read, shows⟩ := shows_json plain gasPlain
  rw [read, Option.map_some, shows.parse]

end

/-! ## The logs -/

theorem IsText.printable {v : Json} (isText : IsText v) : Log.printable v = true := by
  rw [isText.text]
  rfl

theorem IsCount.printable {v : Json} (isCount : IsCount v) : Log.printable v = true := by
  rcases isCount with isText | ⟨n, rfl⟩
  · exact isText.printable
  · rfl

theorem IsCount.quiet {v : Json} (isCount : IsCount v) : Log.Quiet (display v) := by
  rcases isCount with isText | ⟨n, rfl⟩
  · exact isText.quiet
  · exact Log.quiet_digits n

section

variable {T : Type} (p : Python T) {codecToJSON : Nat → Json} {r : FinishedRequest}
  {rs : List FinishedRequest}

theorem Plain.printable (plain : Plain r) : r.printable = true := by
  simp [FinishedRequest.printable, plain.groupID.printable, plain.testType.printable,
    plain.requestNumber.printable, plain.totalTransactions.printable]

theorem Plain.quiet (plain : Plain r) : r.Quiet where
  groupID := plain.groupID.quiet
  requestNumber := plain.requestNumber.quiet
  totalTransactions := plain.totalTransactions.quiet
  testType := plain.testType.quiet
  urlPath := plain.urlPath

/-- What the data of a log are: those of the requests that count, in their order. -/
def dataOf (rs : List FinishedRequest) : List (ParsedEntry T) := rs.filterMap (parsedOf p)

/-- The text log of plain requests is parsed to what was measured. -/
theorem parseData_text (plain : ∀ r ∈ rs, Plain r) :
    (readData "text" (Log.textLog rs)).map (parseData p) = some (dataOf p rs) := by
  have all : rs.filter FinishedRequest.printable = rs :=
    List.filter_eq_self.mpr fun r member => (plain r member).printable
  have other : ¬ "text" = "json" := by decide
  rw [readData, if_neg other, Log.textLog_eq, all,
    Log.readData_entries fun r member => (plain r member).quiet, Option.map_some, parseData,
    List.map_map, List.filterMap_map]
  exact congrArg some (List.filterMap_congr fun r member => parseEntry_text p (plain r member))

/-- The items of a log are its entries. -/
theorem mapM_entries (plain : ∀ r ∈ rs, Plain r) (gasPlain : ∀ r ∈ rs, GasPlain codecToJSON r) :
    ((rs.map (Log.logEntry codecToJSON)).mapM (entryOfJson)).map (parseData p) =
      some (dataOf p rs) := by
  induction rs with
  | nil => rfl
  | cons r rs ih =>
      obtain ⟨first, rest⟩ := List.forall_mem_cons.mp plain
      obtain ⟨firstGas, restGas⟩ := List.forall_mem_cons.mp gasPlain
      obtain ⟨entry, read, shows⟩ := shows_json first firstGas
      obtain ⟨entries, readAll, parsed⟩ := Option.map_eq_some_iff.mp (ih rest restGas)
      rw [List.map_cons, List.mapM_cons, read, readAll]
      show some (parseData p (entry :: entries)) = _
      rw [parseData] at parsed ⊢
      rw [List.filterMap_cons, shows.parse, parsed, dataOf, dataOf, List.filterMap_cons]

/-- So are the entries in the JSON log of plain requests. -/
theorem parseData_json {content : List Char} (plain : ∀ r ∈ rs, Plain r)
    (gasPlain : ∀ r ∈ rs, GasPlain codecToJSON r)
    (parses : Json.parse content = some (Log.logOf codecToJSON rs)) :
    (jsonLoad content).map (parseData p) = some (dataOf p rs) := by
  rw [jsonLoad, parses, Log.logOf]
  exact mapM_entries p plain gasPlain

/-- What becomes of the JSON log. -/
theorem exists_data (codecToJSON : Nat → Json) (start : Log.LogStart) (es : List Log.LogEvent)
    (plain : ∀ r ∈ Log.finishedRequests es, Plain r)
    (gasPlain : ∀ r ∈ Log.finishedRequests es, GasPlain codecToJSON r)
    (none : Log.NoneReadsDuringWrite codecToJSON start es)
    (complete : ((Log.jsonLog codecToJSON start).run es).Complete)
    (logged : Log.finishedRequests es ≠ []) :
    ∃ content data, ((Log.jsonLog codecToJSON start).run es).file = some content ∧
      (jsonLoad content).map (parseData p) = some data ∧
      data.Perm (dataOf p (Log.finishedRequests es)) ∧
      (Log.OneAtATime codecToJSON start es → data = dataOf p (Log.finishedRequests es)) := by
  obtain ⟨a, shown, clean, -, order⟩ := Log.run_shows codecToJSON start es
  have quiet := shown.complete.mp complete
  have items : a.jobs.map Rewrites.Job.item = Log.finishedRequests es := by
    rw [← Log.run_requests codecToJSON start, shown.requests]
  have cell : a.cell.Perm (Log.finishedRequests es) := items ▸ (clean none).exact quiet
  have written : a.cell ≠ [] := by
    intro nothing
    rw [nothing] at cell
    exact logged cell.nil_eq.symm
  obtain ⟨content, file, parses⟩ := Option.bind_eq_some_iff.mp (shown.parse (.inl written))
  refine ⟨content, dataOf p a.cell, file,
    parseData_json p (fun r member => plain r (cell.subset member))
      (fun r member => gasPlain r (cell.subset member)) parses, cell.filterMap _, ?_⟩
  intro alone
  rw [(order alone).exact quiet, items]

end

/-! ## What the two loggers share -/

/-- Two readings of one request as it finishes: what came with it and what its handlers left
are the same, the clock and the loads are each logger's own. -/
structure SameResponse (r r' : FinishedRequest) : Prop where
  method : r.method = r'.method
  originalUrl : r.originalUrl = r'.originalUrl
  body : r.body = r'.body
  query : r.query = r'.query
  requestNumber : r.requestNumber = r'.requestNumber
  locals : r.locals = r'.locals

/-- What an entry says of its request, the measurements left out. -/
structure Said where
  transactionCost : Double
  groupID : Value
  requestNumber : Int
  totalTransactions : Int
  testType : PyStr
  parametersLength : Int
  method : Value
  route : PyStr
  refTime : Double
  proofSize : Double

section

variable {T : Type} (p : Python T) {r r' : FinishedRequest} {rs rs' : List FinishedRequest}

def ParsedEntry.said (e : ParsedEntry T) : Said :=
  { transactionCost := e.transactionCost
    groupID := e.groupID
    requestNumber := e.requestNumber
    totalTransactions := e.totalTransactions
    testType := e.testType
    parametersLength := e.parametersLength
    method := e.method
    route := e.route
    refTime := e.refTime
    proofSize := e.proofSize }

/-- `parse_data` reads the time a request is logged with. -/
def HasDate (r : FinishedRequest) : Prop :=
  (p.fromisoformat ((py r.time.toISOString).replace (lit "Z") (lit "+00:00"))).isSome = true

/-- What is said of a request whose date can be read. -/
def saidOf (r : FinishedRequest) : Option Said :=
  if r.transactionSuccess = "Yes" ∨ r.method = "GET" then do
    let requestNumber ← countOf (display r.loggedNumber)
    let totalTransactions ← countOf (display r.totalTransactions)
    some
      { transactionCost :=
          if r.method = "GET" then .zero else (gasOf r.refTime).add (gasOf r.proofSize)
        groupID := .str (py (display r.groupID))
        requestNumber
        totalTransactions
        testType := p.lower (py (display r.testType))
        parametersLength := r.getParamsLength
        method := .str (lit r.method)
        route := getBaseRoute (py r.route)
        refTime := gasOf r.refTime
        proofSize := gasOf r.proofSize }
  else none

theorem said_parsedOf (date : HasDate p r) :
    (parsedOf p r).map ParsedEntry.said = saidOf p r := by
  obtain ⟨time, read⟩ := Option.isSome_iff_exists.mp date
  rw [parsedOf, saidOf, read]
  split
  · cases countOf (display r.loggedNumber) with
    | none => rfl
    | some requestNumber => cases countOf (display r.totalTransactions) with
      | none => rfl
      | some totalTransactions => rfl
  · rfl

theorem SameResponse.groupID (same : SameResponse r r') : r.groupID = r'.groupID := by
  rw [FinishedRequest.groupID, same.body, same.query]
  rfl

theorem SameResponse.testType (same : SameResponse r r') : r.testType = r'.testType := by
  rw [FinishedRequest.testType, same.body, same.query]
  rfl

theorem SameResponse.loggedNumber (same : SameResponse r r') : r.loggedNumber = r'.loggedNumber := by
  rw [FinishedRequest.loggedNumber, same.requestNumber]
  rfl

theorem SameResponse.totalTransactions (same : SameResponse r r') :
    r.totalTransactions = r'.totalTransactions := by
  rw [FinishedRequest.totalTransactions, same.body, same.query]
  rfl

theorem SameResponse.urlPath (same : SameResponse r r') : r.urlPath = r'.urlPath := by
  rw [FinishedRequest.urlPath, same.originalUrl]
  rfl

theorem SameResponse.route (same : SameResponse r r') : r.route = r'.route := by
  rw [FinishedRequest.route, same.method, same.urlPath]
  rfl

theorem SameResponse.plain (same : SameResponse r r') (plain : Plain r') : Plain r where
  groupID := same.groupID ▸ plain.groupID
  testType := same.testType ▸ plain.testType
  requestNumber := same.loggedNumber ▸ plain.requestNumber
  totalTransactions := same.totalTransactions ▸ plain.totalTransactions
  route := same.route ▸ plain.route
  urlPath := same.urlPath ▸ plain.urlPath

/-- What is said depends on the response alone. -/
theorem SameResponse.saidOf (same : SameResponse r r') : saidOf p r = saidOf p r' := by
  have success : r.transactionSuccess = r'.transactionSuccess := by
    rw [FinishedRequest.transactionSuccess, same.locals]
    rfl
  have length : r.getParamsLength = r'.getParamsLength := by
    rw [FinishedRequest.getParamsLength, same.body]
    rfl
  have refTime : r.refTime = r'.refTime := by
    rw [FinishedRequest.refTime, same.locals]
    rfl
  have proofSize : r.proofSize = r'.proofSize := by
    rw [FinishedRequest.proofSize, same.locals]
    rfl
  rw [Graphs.saidOf, Graphs.saidOf, success, length, refTime, proofSize, same.method, same.route,
    same.groupID, same.testType, same.loggedNumber, same.totalTransactions]

theorem map_said_dataOf (dates : ∀ r ∈ rs, HasDate p r) :
    (dataOf p rs).map ParsedEntry.said = rs.filterMap (saidOf p) := by
  rw [dataOf, List.map_filterMap]
  exact List.filterMap_congr fun r member => said_parsedOf p (dates r member)

theorem filterMap_saidOf (same : List.Forall₂ SameResponse rs rs') :
    rs.filterMap (saidOf p) = rs'.filterMap (saidOf p) := by
  induction same with
  | nil => rfl
  | cons first _ ih => rw [List.filterMap_cons, List.filterMap_cons, first.saidOf, ih]

/-- **Both logs say the same of the requests.**  Requests with plain values finish, and each
logger takes its own reading of them, `texts` those of the text log, with dates that can be
parsed.  The text log has them in the order of their appends, whichever that is; the JSON
log is written by its handlers, and no file was read during a write.  Then what `read_data`
gives of the text log is parsed to what its requests say, and what `json.load` gives of the
JSON log to entries that say the same, but for their order and the measurements; and in one
order, if the requests came one at a time. -/
theorem logs_agree (codecToJSON : Nat → Json) (start : Log.LogStart) (es : List Log.LogEvent)
    {texts appended : List FinishedRequest}
    (same : List.Forall₂ SameResponse texts (Log.finishedRequests es))
    (appends : texts.Perm appended) (plain : ∀ r ∈ Log.finishedRequests es, Plain r)
    (gasPlain : ∀ r ∈ Log.finishedRequests es, GasPlain codecToJSON r)
    (dates : ∀ r ∈ Log.finishedRequests es, HasDate p r) (textDates : ∀ r ∈ texts, HasDate p r)
    (none : Log.NoneReadsDuringWrite codecToJSON start es)
    (complete : ((Log.jsonLog codecToJSON start).run es).Complete)
    (logged : Log.finishedRequests es ≠ []) :
    ∃ content json text, ((Log.jsonLog codecToJSON start).run es).file = some content ∧
      (jsonLoad content).map (parseData p) = some json ∧
      (readData "text" (Log.textLog appended)).map (parseData p) = some text ∧
      text.map ParsedEntry.said = appended.filterMap (saidOf p) ∧
      (json.map ParsedEntry.said).Perm (text.map ParsedEntry.said) ∧
      (Log.OneAtATime codecToJSON start es → texts = appended →
        json.map ParsedEntry.said = text.map ParsedEntry.said) := by
  obtain ⟨content, json, file, parsed, perm, order⟩ :=
    exists_data p codecToJSON start es plain gasPlain none complete logged
  have plainTexts : ∀ r ∈ texts, Plain r := by
    intro r member
    obtain ⟨i, inside, rfl⟩ := List.getElem_of_mem member
    have inside' : i < (Log.finishedRequests es).length := same.length_eq ▸ inside
    have reading := (List.forall₂_iff_get.mp same).2 i inside inside'
    exact reading.plain (plain _ (List.getElem_mem inside'))
  have readings : (dataOf p texts).map ParsedEntry.said =
      (dataOf p (Log.finishedRequests es)).map ParsedEntry.said := by
    rw [map_said_dataOf p textDates, map_said_dataOf p dates, filterMap_saidOf p same]
  have inLog : (dataOf p texts).Perm (dataOf p appended) := appends.filterMap _
  have inFile := perm.map ParsedEntry.said
  rw [← readings] at inFile
  refine ⟨content, json, _, file, parsed,
    parseData_text p fun r member => plainTexts r (appends.symm.subset member),
    map_said_dataOf p fun r member => textDates r (appends.symm.subset member),
    inFile.trans (inLog.map _), ?_⟩
  rintro alone rfl
  rw [order alone, readings]

end

/-! ### An example -/

theorem display_chars (s : List Char) : display (Log.chars s) = s := Utf16.toText_ofText s

theorem isText_chars {s : List Char} (stripped : Log.strip s = s) (quiet : Log.Quiet s) :
    IsText (Log.chars s) where
  text := by rw [display_chars]
  stripped := by rw [display_chars, stripped]
  quiet := by rwa [display_chars]

/-- Python on ASCII text, with dates as they are written. -/
def asciiPython : Python PyStr where
  lower s := s.map fun
    | .scalar c => .scalar c.toLower
    | .lone u => .lone u
  str _ := []
  fromisoformat s := some s
  medianOfNan _ := .nan

theorem roleRequests_oneByOne {r : FinishedRequest} (member : r ∈ Log.finishedRequests Log.oneByOne) :
    r = Log.roleRequest 1 "5Grw" ∨ r = Log.roleRequest 2 "5FHn" := by
  simpa [Log.finishedRequests, Log.oneByOne, Log.LogEvent.finished?] using member

theorem plain_roleRequests : ∀ r ∈ Log.finishedRequests Log.oneByOne, Plain r := by
  intro r member
  rcases roleRequests_oneByOne member with rfl | rfl
  all_goals exact
    { groupID := isText_chars (s := "9b1d: \"first\" run]".toList) (by decide)
        ⟨by decide, by decide, by decide⟩
      testType := isText_chars (s := "sequential".toList) (by decide)
        ⟨by decide, by decide, by decide⟩
      requestNumber := .inr ⟨_, rfl⟩
      totalTransactions := .inl (isText_chars (s := "2".toList) (by decide)
        ⟨by decide, by decide, by decide⟩)
      route := by decide
      urlPath := ⟨by decide, by decide, by decide⟩ }

theorem gasPlain_roleRequests :
    ∀ r ∈ Log.finishedRequests Log.oneByOne, GasPlain Log.codecNumber r := by
  intro r member
  have unpaid : r.refTime = .text "N/A" ∧ r.proofSize = .text "N/A" := by
    rcases roleRequests_oneByOne member with rfl | rfl
    · exact ⟨rfl, rfl⟩
    · exact ⟨rfl, rfl⟩
  rw [GasPlain, unpaid.1, unpaid.2]
  rintro n (ref | ref | proof | proof)
  · cases ref
  · cases ref
  · cases proof
  · cases proof

/-- The other logger's reading: it has started earlier. -/
def readEarlier (r : FinishedRequest) : FinishedRequest :=
  { r with duration := r.duration + 1, startCpu := .nan }

theorem sameResponse_readEarlier (rs : List FinishedRequest) :
    List.Forall₂ SameResponse (rs.map readEarlier) rs :=
  List.forall₂_map_left_iff.mpr (List.forall₂_same.mpr fun _ _ => ⟨rfl, rfl, rfl, rfl, rfl, rfl⟩)

theorem hasDate_ascii (r : FinishedRequest) : HasDate asciiPython r := Option.isSome_some

theorem oneByOne_quiet : Log.NoneReadsDuringWrite Log.codecNumber .absent Log.oneByOne := by
  show (Log.jsonLog Log.codecNumber .absent).AllSteps _
    ([] ++ [.finish (Log.roleRequest 1 "5Grw")] ++ [.finish (Log.roleRequest 2 "5FHn")] ++
      [.readDone 1] ++ [.writeDone 1])
  simp only [Machine.allSteps_concat]
  refine ⟨⟨⟨⟨Machine.allSteps_nil _ _, id⟩, id⟩, ?_⟩, id⟩
  rintro ⟨-, h, member, writing⟩
  have either : h ∈ [(⟨Log.roleRequest 1 "5Grw", .done⟩ : Log.Logging),
      ⟨Log.roleRequest 2 "5FHn", .reading⟩] := member
  simp only [List.mem_cons, List.not_mem_nil, or_false] at either
  rcases either with rfl | rfl
  · cases writing
  · cases writing

theorem oneByOne_logged : Log.finishedRequests Log.oneByOne ≠ [] := by
  simp [Log.finishedRequests, Log.oneByOne, Log.LogEvent.finished?]

/-- The appends of the two text entries overtake each other. -/
theorem logs_agree_oneByOne :
    ∃ content json text, ((Log.jsonLog Log.codecNumber .absent).run Log.oneByOne).file = some content ∧
      (jsonLoad content).map (parseData asciiPython) = some json ∧
      (readData "text" (Log.textLog
        ((Log.finishedRequests Log.oneByOne).map readEarlier).reverse)).map (parseData asciiPython) =
          some text ∧
      (json.map ParsedEntry.said).Perm (text.map ParsedEntry.said) := by
  obtain ⟨content, json, text, file, readJson, readText, -, agree, -⟩ :=
    logs_agree asciiPython Log.codecNumber .absent Log.oneByOne (sameResponse_readEarlier _)
      (List.reverse_perm _).symm plain_roleRequests gasPlain_roleRequests
      (fun r _ => hasDate_ascii r) (fun r _ => hasDate_ascii r) oneByOne_quiet Log.oneByOne_complete
      oneByOne_logged
  exact ⟨content, json, text, file, readJson, readText, agree⟩

end PatientAccess.Graphs
