/-
# Graphs.Values -- the Python values the graph maker handles

An entry of the log is a `dict` from names to values, which came from JSON or from
text.  Its numbers are read by `int` and `float`, and each of them accepts some kinds of
value and raises on the others; here raising is `none`.

Floats are doubles, up to the sign of zero.  The tables behind `lower` and `str` are
Python's, and so are its dates and what it makes of a NaN among others: they are
parameters, collected in `Python`.
-/
import PatientAccess.Log.TextLog
import PatientAccess.Theory.Doubles

namespace PatientAccess.Graphs

open PatientAccess.Theory PatientAccess.Theory.Numbers PatientAccess.Theory.Doubles
open PatientAccess.Log (isSpace)

set_option autoImplicit false

/-! ## Strings -/

/-- A `str`: characters, and the lone surrogates JSON may bring. -/
abbrev PyStr := List Utf16.Point

def py (s : List Char) : PyStr := s.map .scalar

def lit (s : String) : PyStr := py s.toList

namespace PyStr

def isSpace : Utf16.Point → Bool
  | .scalar c => Log.isSpace c
  | .lone _ => false

def strip (s : PyStr) : PyStr := Text.trim PyStr.isSpace s

/-- `s.replace(old, new)`. -/
def replace (s old new : PyStr) : PyStr := List.intercalate new (Text.splitSeq old s)

/-- The characters of a string that has no lone surrogate. -/
def chars? (s : PyStr) : Option (List Char) :=
  s.mapM fun
    | .scalar c => some c
    | .lone _ => none

end PyStr

/-! ## Values -/

/-- What `json.load` makes of a value; what is in a `list` or a `dict` is not looked at. -/
inductive Value where
  | none
  | bool (b : Bool)
  | int (n : Int)
  | float (x : Double)
  | str (s : PyStr)
  | container (v : Json)

/-- What is taken from Python as it is. -/
structure Python (T : Type) where
  lower : PyStr → PyStr
  /-- `str(v)`, where `v` is no string. -/
  str : Value → PyStr
  /-- `datetime.fromisoformat`. -/
  fromisoformat : PyStr → Option T
  /-- `median` of values among which is a NaN, where `sorted` finds no order. -/
  medianOfNan : List Double → Double

/-- `float(n)`; an integer too large overflows. -/
def floatOfInt (n : Int) : Option Double := (Double.ofRat n).finite?

namespace Value

/-- `bool(v)`. -/
def truthy : Value → Bool
  | .none => false
  | .bool b => b
  | .int n => n ≠ 0
  | .float x => x ≠ .zero
  | .str s => s ≠ []
  | .container (.arr []) | .container (.obj []) => false
  | .container _ => true

/-- `v == s`. -/
def isStr (s : String) : Value → Bool
  | .str t => t = lit s
  | _ => false

def asStr : Value → Option PyStr
  | .str s => some s
  | _ => Option.none

/-- `float(v)`. -/
def toFloat : Value → Option Double
  | .bool b => some (.ofRat (if b then 1 else 0))
  | .int n => floatOfInt n
  | .float x => some x
  | .str s => (s.strip.chars?.bind readFloat).map .ofLiteral
  | .none | .container _ => Option.none

/-- `int(v)`, without its limit on the digits of a text. -/
def toInt : Value → Option Int
  | .bool b => some (if b then 1 else 0)
  | .int n => some n
  | .float x => x.truncate
  | .str s => s.strip.chars?.bind readInt
  | .none | .container _ => Option.none

end Value

/-- The value of JSON `json.load` reads.  A numeral without point and exponent is an
`int`. -/
def ofJson : Json → Value
  | .null => .none
  | .bool b => .bool b
  | .num n =>
      match readInt n.text with
      | some i => .int i
      | none => .float (.ofLiteral ((readFloat n.text).getD .nan))
  | .str s => .str (Utf16.points s)
  | .arr items => .container (.arr items)
  | .obj fields => .container (.obj fields)

/-! ## Dictionaries -/

/-- A `dict`, as the pairs it was made from; the last one of a key counts. -/
abbrev PyDict := List (PyStr × Value)

namespace PyDict

variable (d : PyDict)

def find? (key : PyStr) : Option Value := d.reverse.lookup key

/-- `d.get(key, default)`. -/
def getD (key : String) (default : Value) : Value := (d.find? (lit key)).getD default

/-- `d.get(key)`. -/
def get (key : String) : Value := d.getD key .none

def isNone : Value → Bool
  | .none => true
  | _ => false

/-- `all(value is None for value in d.values())`. -/
def allNone : Bool := d.all fun kv => (d.find? kv.1).all isNone

end PyDict

/-! ## Strings as they are written -/

theorem chars?_py (s : List Char) : (py s).chars? = some s := by
  induction s with
  | nil => rfl
  | cons c s ih =>
      rw [PyStr.chars?, py] at ih ⊢
      simp only [List.map_cons, List.mapM_cons, ih]
      rfl

theorem py_injective {s t : List Char} (same : py s = py t) : s = t :=
  List.map_injective_iff.mpr (fun _ _ same => Utf16.Point.scalar.inj same) same

theorem strip_py (s : List Char) : (py s).strip = py (Log.strip s) := Text.trim_map _ s

end PatientAccess.Graphs
