/-
# Log.Entry -- what the two loggers read of a finished request

Both logging middlewares gather the same values when a request finishes: parameters
from its body or its query, what the handlers left in `res.locals`, the clock and the
load of the machine.  A value is what JavaScript has there: a JSON value, except the gas
in `res.locals`, which may be a codec object of the chain library.  How such an object
goes into JSON is the library's, so it is a parameter here.

The gas and the tip are written by `addUser` alone, and a `FinishedRequest` carries
that: `written_values` is what it says of them.
-/
import PatientAccess.Theory.JsonRoundTrip
import PatientAccess.Server.Transactions

namespace PatientAccess.Log

open PatientAccess.Theory PatientAccess.Server

set_option autoImplicit false

/-! ## Printing -/

/-- `n` in decimal. -/
def digits (n : Nat) : List Char := Nat.toDigits 10 n

/-- `n` in decimal, filled up with zeros. -/
def pad (width n : Nat) : List Char := (digits n).leftpad width '0'

/-- A `Date`, by its UTC fields. -/
structure Date where
  year : Nat
  month : Nat
  day : Nat
  hours : Nat
  minutes : Nat
  seconds : Nat
  milliseconds : Nat

/-- Four digits, or a sign and six from the year 10000 on. -/
def Date.yearText (d : Date) : List Char :=
  if d.year < 10000 then pad 4 d.year else '+' :: pad 6 d.year

def Date.toISOString (d : Date) : List Char :=
  d.yearText ++ '-' :: (pad 2 d.month ++ '-' :: (pad 2 d.day ++ 'T' :: (pad 2 d.hours ++ ':' ::
    (pad 2 d.minutes ++ ':' :: (pad 2 d.seconds ++ '.' :: (pad 3 d.milliseconds ++ ['Z']))))))

/-- A load in percent, as far as `toFixed(2)` shows it. -/
inductive Usage where
  | nan
  | fixed (negative : Bool) (hundredths : Nat)

def Usage.toFixed : Usage → List Char
  | .nan => ['N', 'a', 'N']
  | .fixed negative n =>
      (if negative then ['-'] else []) ++ (digits (n / 100) ++ '.' :: pad 2 (n % 100))

def Usage.percent (u : Usage) : List Char := u.toFixed ++ ['%']

/-- A whole number of milliseconds. -/
def printInt : Int → List Char
  | .ofNat n => digits n
  | .negSucc n => '-' :: digits (n + 1)

/-! ## JavaScript values -/

/-- Whether the numeral is that of zero. -/
def isZero (n : Numeral) : Bool :=
  (n.text.takeWhile fun c => c ≠ 'e' && c ≠ 'E').all fun c => c ∈ ['-', '0', '.']

def truthy : Json → Bool
  | .null => false
  | .bool b => b
  | .num n => !isZero n
  | .str s => s ≠ []
  | .arr _ => true
  | .obj _ => true

def text (s : String) : Json := .str (Utf16.ofText s.toList)

/-- A property of an object; every other value has none of the names asked for. -/
def property (name : String) : Json → Option Json
  | .obj fields => fields.lookup (Utf16.ofText name.toList)
  | _ => none

/-- `a || b || .. || 'N/A'`. -/
def firstTruthy : List (Option Json) → Json
  | [] => text "N/A"
  | some v :: vs => if truthy v then v else firstTruthy vs
  | none :: vs => firstTruthy vs

def isNull : Json → Bool
  | .null => true
  | _ => false

mutual

/-- Whether `${v}` has a text.  An object with a `toString` of its own has none: what
stands there came as JSON and cannot be called. -/
def printable : Json → Bool
  | .arr items => printableItems items
  | .obj fields => (property "toString" (.obj fields)).isNone
  | _ => true

def printableItems : List Json → Bool
  | [] => true
  | v :: vs => printable v && printableItems vs

end

mutual

/-- `${v}`, where it has a text. -/
def display : Json → List Char
  | .null => "null".toList
  | .bool b => (toString b).toList
  | .num n => n.text
  | .str s => s.toText
  | .arr items => displayItems items
  | .obj _ => "[object Object]".toList

/-- The items of an array, joined by commas; `null` shows as nothing. -/
def displayItems : List Json → List Char
  | [] => []
  | [v] => if isNull v then [] else display v
  | v :: w :: vs => (if isNull v then [] else display v) ++ ',' :: displayItems (w :: vs)

end

/-! ## `res.locals` -/

/-- What the handlers can have left in `res.locals`: `addUser` writes all of it, and
the other routes nothing but `transactionSuccess`. -/
inductive Written : Locals → Prop
  | fresh : Written .fresh
  | addUser {l l' : Locals} (tip numberTransaction : Nat) (sending : Sending) (before : Written l)
      (left : (Server.addUser tip numberTransaction (some l) sending).locals = some l') :
      Written l'
  | succeeded {l : Locals} (success : Bool) (before : Written l) :
      Written { l with transactionSuccess := some success }

/-- The gas is numbers but for `'N/A'`, and the tip is a number in decimal. -/
structure GasWritten (l : Locals) : Prop where
  refTime : ∀ s, l.refTime = some (.text s) → s = "N/A"
  proofSize : ∀ s, l.proofSize = some (.text s) → s = "N/A"
  tip : ∀ s, l.tip = some s → ∃ n : Nat, s = toString n

theorem orNA_text {gas : Option Nat} {s : String} (same : orNA gas = .text s) : s = "N/A" := by
  cases gas with
  | none => cases same; rfl
  | some n => cases same

theorem gasWritten_callback (tip k : Nat) (st : AddUserState) (n : Notification)
    (written : ∀ l, st.locals = some l → GasWritten l) (l : Locals)
    (left : (addUserCallback tip k st n).locals = some l) : GasWritten l := by
  obtain ⟨sameLocals, -⟩ := foldl_readGas n.events st
  unfold addUserCallback at left
  by_cases inBlock : n.status = .inBlock
  · rw [if_pos inBlock] at left
    exact written l left
  · rw [if_neg inBlock] at left
    by_cases final : n.isFinalized = true
    · rw [if_pos final] at left
      cases given : st.locals with
      | none => simp_all
      | some before =>
          rw [given] at sameLocals
          simp only [sameLocals, Option.some.injEq] at left
          subst left
          refine ⟨fun s same => ?_, fun s same => ?_, fun s same => ?_⟩
          · exact orNA_text (Option.some.inj same)
          · exact orNA_text (Option.some.inj same)
          · exact ⟨tip, (Option.some.inj same).symm⟩
    · rw [if_neg final] at left
      exact written l left

theorem gasWritten_foldl (tip k : Nat) (ns : List Notification) (st : AddUserState)
    (written : ∀ l, st.locals = some l → GasWritten l) (l : Locals)
    (left : (ns.foldl (addUserCallback tip k) st).locals = some l) : GasWritten l := by
  induction ns generalizing st with
  | nil => exact written l left
  | cons n ns ih => exact ih _ (gasWritten_callback tip k st n written) left

/-- `addUser` leaves the gas and the tip as it writes them, or as they were. -/
theorem gasWritten_addUser (tip k : Nat) (sending : Sending) {l l' : Locals}
    (written : GasWritten l)
    (left : (Server.addUser tip k (some l) sending).locals = some l') : GasWritten l' := by
  cases sending with
  | notBuilt error =>
      cases left
      exact written
  | refused error =>
      cases left
      refine ⟨fun s same => ?_, fun s same => ?_, fun s same => ?_⟩
      · cases same
      · cases same
      · cases same
        exact ⟨0, rfl⟩
  | accepted ns =>
      refine gasWritten_foldl tip k ns _ (fun before given => ?_) l' left
      cases given
      exact written

theorem Written.gasWritten {l : Locals} (written : Written l) : GasWritten l := by
  induction written with
  | fresh => refine ⟨fun s same => ?_, fun s same => ?_, fun s same => ?_⟩ <;> cases same
  | addUser tip k sending before left ih => exact gasWritten_addUser tip k sending ih left
  | succeeded success before ih => exact ⟨ih.refTime, ih.proofSize, ih.tip⟩

/-- `value || 'N/A'`.  A codec object is truthy. -/
def localOrNA : Option LocalValue → LocalValue
  | some (.number n) => if n = 0 then .text "N/A" else .number n
  | some (.codec n) => .codec n
  | some (.text s) => if s = "" then .text "N/A" else .text s
  | none => .text "N/A"

def displayLocal : LocalValue → List Char
  | .number n => digits n
  | .codec n => digits n
  | .text s => s.toList

def tipOrNA : Option String → String
  | some s => if s = "" then "N/A" else s
  | none => "N/A"

/-! ## Requests -/

/-- The methods Node's HTTP server accepts. -/
def httpMethods : List String :=
  ["ACL", "BIND", "CHECKOUT", "CONNECT", "COPY", "DELETE", "GET", "HEAD", "LINK", "LOCK",
    "M-SEARCH", "MERGE", "MKACTIVITY", "MKCALENDAR", "MKCOL", "MOVE", "NOTIFY", "OPTIONS", "PATCH",
    "POST", "PROPFIND", "PROPPATCH", "PURGE", "PUT", "QUERY", "REBIND", "REPORT", "SEARCH", "SOURCE",
    "SUBSCRIBE", "TRACE", "UNBIND", "UNLINK", "UNLOCK", "UNSUBSCRIBE"]

/-- A request at its `finish` event: what came with it, what is in `res.locals`, and
what the clock and the system say at its two ends. -/
structure FinishedRequest where
  method : String
  accepted : method ∈ httpMethods
  originalUrl : List Char
  body : Json
  query : Json
  /-- `res.locals.requestNumber`, which the middleware writes first. -/
  requestNumber : Json
  locals : Locals
  written : Written locals
  time : Date
  duration : Int
  startCpu : Usage
  endCpu : Usage
  startMem : Usage
  endMem : Usage

namespace FinishedRequest

variable (r : FinishedRequest)

/-- `JSON.stringify(req.body).length`, in UTF-16 units, where the body is an object. -/
def getParamsLength : Nat :=
  match r.body with
  | .arr items => (Utf16.ofText (Json.stringify (.arr items))).length
  | .obj fields => (Utf16.ofText (Json.stringify (.obj fields))).length
  | _ => 0

def groupID : Json := firstTruthy [property "groupID" r.body, property "groupID" r.query]

def totalTransactions : Json :=
  firstTruthy [property "totalTransactions" r.body, property "totalTransactions" r.query]

def loggedNumber : Json := firstTruthy [some r.requestNumber]

def testType : Json := firstTruthy [property "testType" r.body, property "testType" r.query]

/-- `req.originalUrl.split('?')[0]`. -/
def urlPath : List Char := r.originalUrl.takeWhile (· ≠ '?')

def route : List Char := r.method.toList ++ ' ' :: r.urlPath

def refTime : LocalValue := localOrNA r.locals.refTime

def proofSize : LocalValue := localOrNA r.locals.proofSize

def tip : String := tipOrNA r.locals.tip

def durationText : List Char := printInt r.duration ++ [' ', 'm', 's']

def transactionSuccess : String := if r.locals.transactionSuccess = some true then "Yes" else "No"

end FinishedRequest

/-- A request for a role, the values of the test in its query. -/
def roleRequest (number : Nat) (account : String) : FinishedRequest :=
  { method := "GET"
    accepted := by decide
    originalUrl := "/role/".toList ++ account.toList ++ "?groupID=9b1d".toList
    body := .obj []
    query := .obj [(Utf16.ofText "groupID".toList, text "9b1d: \"first\" run]"),
      (Utf16.ofText "totalTransactions".toList, text "2"),
      (Utf16.ofText "testType".toList, text "sequential")]
    requestNumber := .num (.ofNat number)
    locals := .fresh
    written := .fresh
    time := ⟨2024, 11, 24, 4, 42, 13, 251⟩
    duration := 12
    startCpu := .fixed false 100
    endCpu := .fixed false 100
    startMem := .fixed false 3360
    endMem := .fixed false 3363 }

end PatientAccess.Log
