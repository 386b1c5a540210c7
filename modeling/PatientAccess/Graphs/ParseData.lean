/-
# Graphs.ParseData -- what the graph maker keeps of the log

`read_data` reads the text log; it loads the JSON log as well, if it is told to, but then
returns nothing.  `parse_data` keeps the entries of successful transactions and of queries,
turns their texts into numbers, and drops an entry it cannot make sense of.
`get_base_route` files an entry under its route without what varies in it.
-/
import PatientAccess.Graphs.Values

namespace PatientAccess.Graphs

open PatientAccess.Theory PatientAccess.Theory.Numbers PatientAccess.Theory.Doubles

set_option autoImplicit false

section

variable {T : Type} (p : Python T)

/-! ## `read_data` -/

/-- A field of a text record; `None` where the text has no such line. -/
def ofText : Option (List Char) → Value
  | some s => .str (py s)
  | none => .none

/-- The entry `read_data` makes of a text record. -/
def entryOfRecord (r : Log.Record) : PyDict :=
  [("time", r.time), ("requestNumber", r.requestNumber), ("route", r.route), ("method", r.method),
    ("refTime", r.refTime), ("proofSize", r.proofSize), ("tip", r.tip), ("duration", r.duration),
    ("groupID", r.groupID), ("cpuUsageStart", r.cpuUsageStart), ("cpuUsageEnd", r.cpuUsageEnd),
    ("ramUsageStart", r.ramUsageStart), ("ramUsageEnd", r.ramUsageEnd),
    ("transactionSuccess", r.transactionSuccess), ("parametersLength", r.parametersLength),
    ("testType", r.testType), ("totalTransactions", r.totalTransactions)].map
    fun (key, value) => (lit key, ofText value)

/-- An item of the JSON log; what is no object has no `values()`. -/
def entryOfJson : Json → Option PyDict
  | .obj fields => some (fields.map fun (key, value) => (Utf16.points key, ofJson value))
  | _ => none

/-- `json.load` on the JSON log; `none` where it raises, or gives no list of entries. -/
def jsonLoad (content : List Char) : Option (List PyDict) :=
  match Json.parse content with
  | some (.arr items) => items.mapM entryOfJson
  | _ => none

/-- `read_data` on the content of the file `FILE_TYPE` chooses.  The `return` belongs to the
branch of the text log: what was loaded of the JSON log is dropped. -/
def readData (fileType : String) (content : List Char) : Option (List PyDict) :=
  if fileType = "json" then none else some ((Log.readData content).map entryOfRecord)

/-! ## `parse_data` -/

/-- `float(v) if v != 'N/A' else 0.0`. -/
def Value.orZero (v : Value) : Option Double :=
  if v.isStr "N/A" then some .zero else v.toFloat

def calculateTransactionCost (entry : PyDict) : Option Double :=
  if (entry.get "method").isStr "GET" then some .zero
  else do
    let refTime ← (entry.getD "refTime" (.str (lit "0"))).orZero
    let proofSize ← (entry.getD "proofSize" (.str (lit "0"))).orZero
    some (refTime.add proofSize)

def getBaseRoute (route : PyStr) : PyStr :=
  let route :=
    if (lit "GET ").isPrefixOf route then route.drop (lit "GET ").length
    else if (lit "POST ").isPrefixOf route then route.drop (lit "POST ").length
    else route
  if (lit "/role/").isPrefixOf route then lit "GET /role/"
  else if (lit "/has_permission/").isPrefixOf route then lit "GET /has_permission/"
  else if (lit "/create_user_with_dynamic_gas").isPrefixOf route then
    lit "POST /create_user_with_dynamic_gas"
  else route

structure ParsedEntry (T : Type) where
  duration : Double
  cpuUsageStart : Double
  cpuUsageEnd : Double
  ramUsageStart : Double
  ramUsageEnd : Double
  cpuUsageDiff : Double
  ramUsageDiff : Double
  transactionCost : Double
  latency : Double
  timestamp : T
  groupID : Value
  requestNumber : Int
  totalTransactions : Int
  testType : PyStr
  parametersLength : Int
  method : Value
  route : PyStr
  refTime : Double
  proofSize : Double

def requiredFields : List String :=
  ["time", "duration", "cpuUsageStart", "cpuUsageEnd", "ramUsageStart", "ramUsageEnd", "testType",
    "method", "groupID", "requestNumber", "totalTransactions"]

/-- `float(entry.get(key, '0').replace(unit, ''))`. -/
def measured (entry : PyDict) (key unit : String) : Option Double :=
  (entry.getD key (.str (lit "0"))).asStr.bind fun s =>
    (Value.str (s.replace (lit unit) [])).toFloat

/-- `int(entry.get(key, 0)) if entry.get(key, 'N/A') != 'N/A' else 0`. -/
def counted (entry : PyDict) (key : String) : Option Int :=
  if (entry.getD key (.str (lit "N/A"))).isStr "N/A" then some 0
  else (entry.getD key (.int 0)).toInt

/-- `float(entry.get(key, '0')) if entry.get(key) != 'N/A' else 0.0`. -/
def gas (entry : PyDict) (key : String) : Option Double :=
  if (entry.get key).isStr "N/A" then some .zero
  else (entry.getD key (.str (lit "0"))).toFloat

def normalizedTestType (entry : PyDict) : PyStr :=
  match entry.getD "testType" (.str (lit "Unknown")) with
  | .str s => p.lower s.strip
  | v => p.str v

/-- One turn of the loop of `parse_data`; an exception is caught, and the entry left out. -/
def parseEntry (entry : PyDict) : Option (ParsedEntry T) :=
  if entry.allNone then none
  else if (entry.get "transactionSuccess").isStr "Yes" || (entry.get "method").isStr "GET" then
    if requiredFields.any fun field => !(entry.get field).truthy then none
    else do
      let duration ← measured entry "duration" " ms"
      let cpuStart ← measured entry "cpuUsageStart" "%"
      let cpuEnd ← measured entry "cpuUsageEnd" "%"
      let ramStart ← measured entry "ramUsageStart" "%"
      let ramEnd ← measured entry "ramUsageEnd" "%"
      let route ← (entry.getD "route" (.str (lit "Unknown"))).asStr
      let transactionCost ← calculateTransactionCost entry
      let time ← (entry.get "time").asStr
      let timestamp ← p.fromisoformat (time.replace (lit "Z") (lit "+00:00"))
      let requestNumber ← counted entry "requestNumber"
      let totalTransactions ← counted entry "totalTransactions"
      let parametersLength ← counted entry "parametersLength"
      let refTime ← gas entry "refTime"
      let proofSize ← gas entry "proofSize"
      some
        { duration
          cpuUsageStart := cpuStart
          cpuUsageEnd := cpuEnd
          ramUsageStart := ramStart
          ramUsageEnd := ramEnd
          cpuUsageDiff := cpuEnd.sub cpuStart
          ramUsageDiff := ramEnd.sub ramStart
          transactionCost
          latency := duration
          timestamp
          groupID := entry.getD "groupID" (.str (lit "N/A"))
          requestNumber
          totalTransactions
          testType := normalizedTestType p entry
          parametersLength
          method := entry.getD "method" (.str (lit "Unknown"))
          route := getBaseRoute route
          refTime
          proofSize }
  else none

def parseData (data : List PyDict) : List (ParsedEntry T) := data.filterMap (parseEntry p)

end

end PatientAccess.Graphs
