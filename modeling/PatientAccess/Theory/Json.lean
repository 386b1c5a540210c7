/-
# Theory.Json -- JSON values, their text, and a reader of it

`stringify` writes a value as `JSON.stringify` does, without blanks; `parse` reads any
JSON text.  Strings are JavaScript's, and a number is kept as its numeral.

`stringify_concat` is how the text of an array grows by one item: the last character
goes, then a comma, the item and a bracket.
-/
import PatientAccess.Theory.Utf16
import Mathlib.Data.List.TakeWhile

namespace PatientAccess.Theory

set_option autoImplicit false

namespace Json

open Utf16

/-! ## Quoting -/

/-- `\u` and four hexadecimal digits. -/
def escape (u : UInt16) : List Char :=
  ['\\', 'u', (u.toNat / 0x1000).digitChar, (u.toNat / 0x100 % 0x10).digitChar,
    (u.toNat / 0x10 % 0x10).digitChar, (u.toNat % 0x10).digitChar]

def quotePoint : Point → List Char
  | .lone u => escape u
  | .scalar c =>
      if c = '"' then ['\\', '"']
      else if c = '\\' then ['\\', '\\']
      else if c = Char.ofNat 8 then ['\\', 'b']
      else if c = Char.ofNat 12 then ['\\', 'f']
      else if c = '\n' then ['\\', 'n']
      else if c = '\r' then ['\\', 'r']
      else if c = '\t' then ['\\', 't']
      else if c.toNat < 0x20 then escape (UInt16.ofNat c.toNat)
      else [c]

/-- The points of a string between quotation marks. -/
def quote (s : Utf16) : List Char := '"' :: (points s).flatMap quotePoint ++ ['"']

/-- What a character other than `u` stands for after a backslash. -/
def unescape (c : Char) : Option UInt16 :=
  if c = '"' then some 0x22
  else if c = '\\' then some 0x5C
  else if c = '/' then some 0x2F
  else if c = 'b' then some 8
  else if c = 'f' then some 12
  else if c = 'n' then some 10
  else if c = 'r' then some 13
  else if c = 't' then some 9
  else none

def hexDigit (c : Char) : Option Nat :=
  if '0' ≤ c ∧ c ≤ '9' then some (c.toNat - 48)
  else if 'a' ≤ c ∧ c ≤ 'f' then some (c.toNat - 87)
  else if 'A' ≤ c ∧ c ≤ 'F' then some (c.toNat - 55)
  else none

def hexUnit (a b c d : Char) : Option UInt16 :=
  match hexDigit a, hexDigit b, hexDigit c, hexDigit d with
  | some a, some b, some c, some d => some (UInt16.ofNat (((a * 16 + b) * 16 + c) * 16 + d))
  | _, _, _, _ => none

/-- Put `us` in front of what was read. -/
def prepend (us : Utf16) : Option (Utf16 × List Char) → Option (Utf16 × List Char) :=
  Option.map fun (read, rest) => (us ++ read, rest)

/-- The string up to the closing quotation mark, and what follows that. -/
def parseUnits : List Char → Option (Utf16 × List Char)
  | [] => none
  | ['\\'] => none
  | '\\' :: 'u' :: a :: b :: c :: d :: s =>
      match hexUnit a b c d with
      | some u => prepend [u] (parseUnits s)
      | none => none
  | '\\' :: e :: s =>
      match unescape e with
      | some u => prepend [u] (parseUnits s)
      | none => none
  | c :: s =>
      if c = '"' then some ([], s)
      else if c.toNat < 0x20 then none
      else prepend (ofChar c) (parseUnits s)

/-! ## Numerals -/

def isNumeralChar (c : Char) : Bool := c.isDigit || c ∈ ['-', '+', '.', 'e', 'E']

/-- One or more digits. -/
def isDigits (t : List Char) : Bool := t ≠ [] && t.all Char.isDigit

/-- `[eE] [+-]? [0-9]+`, or nothing. -/
def isExponent : List Char → Bool
  | [] => true
  | e :: '+' :: t => (e == 'e' || e == 'E') && isDigits t
  | e :: '-' :: t => (e == 'e' || e == 'E') && isDigits t
  | e :: t => (e == 'e' || e == 'E') && isDigits t

/-- A fraction or nothing, and an exponent or nothing. -/
def isFraction : List Char → Bool
  | '.' :: t => isDigits (t.takeWhile Char.isDigit) && isExponent (t.dropWhile Char.isDigit)
  | t => isExponent t

/-- A numeral without its sign: no leading zero but a single one. -/
def isUnsigned (t : List Char) : Bool :=
  isDigits (t.takeWhile Char.isDigit) &&
    (t.takeWhile Char.isDigit == ['0'] || t.head? != some '0') &&
    isFraction (t.dropWhile Char.isDigit)

def isNumeral : List Char → Bool
  | '-' :: t => isUnsigned t
  | t => isUnsigned t

end Json

/-- A number, as its numeral. -/
structure Numeral where
  text : List Char
  valid : Json.isNumeral text = true
  deriving DecidableEq

theorem head_toDigits {n : Nat} (positive : 0 < n) : (Nat.toDigits 10 n).head? ≠ some '0' := by
  induction n using Nat.strongRecOn with
  | ind n ih =>
      by_cases small : n < 10
      · rw [Nat.toDigits_of_lt_base small]
        simp only [List.head?_cons, ne_eq, Option.some.injEq, Nat.digitChar_eq_zero]
        omega
      · -- the first digit is that of `n / 10`
        have lead := ih (n / 10) (by omega) (by omega)
        obtain ⟨d, ds, split⟩ := List.exists_cons_of_ne_nil
          (Nat.toDigits_ne_nil (n := n / 10) (b := 10))
        rw [split] at lead
        rw [Nat.toDigits_of_base_le (by decide) (by omega), split]
        exact lead

/-- The digits of a natural number are a numeral: no zero leads but a single one. -/
theorem isNumeral_toDigits (n : Nat) : Json.isNumeral (Nat.toDigits 10 n) = true := by
  have digits : ∀ c ∈ Nat.toDigits 10 n, c.isDigit = true :=
    fun c h => Nat.isDigit_of_mem_toDigits (by decide) (by decide) h
  have all : (Nat.toDigits 10 n).takeWhile Char.isDigit = Nat.toDigits 10 n :=
    List.takeWhile_eq_self_iff.mpr digits
  have rest : (Nat.toDigits 10 n).dropWhile Char.isDigit = [] :=
    List.dropWhile_eq_nil_iff.mpr digits
  have unsigned : Json.isUnsigned (Nat.toDigits 10 n) = true := by
    have some : Json.isDigits (Nat.toDigits 10 n) = true := by
      simpa [Json.isDigits, Nat.toDigits_ne_nil] using digits
    rcases Nat.eq_zero_or_pos n with rfl | positive
    · rfl
    · have lead := head_toDigits positive
      simp [Json.isUnsigned, all, rest, some, lead, Json.isFraction, Json.isExponent]
  rw [Json.isNumeral]
  · exact unsigned
  · intro t same
    have sign : '-' ∈ Nat.toDigits 10 n := by
      rw [same]
      exact List.mem_cons_self
    exact absurd (digits _ sign) (by decide)

def Numeral.ofNat (n : Nat) : Numeral := ⟨Nat.toDigits 10 n, isNumeral_toDigits n⟩

/-! ## Values -/

inductive Json where
  | null
  | bool (b : Bool)
  | num (n : Numeral)
  | str (s : Utf16)
  | arr (items : List Json)
  | obj (fields : List (Utf16 × Json))

namespace Json

open Utf16

mutual

/-- `JSON.stringify`. -/
def stringify : Json → List Char
  | .null => ['n', 'u', 'l', 'l']
  | .bool true => ['t', 'r', 'u', 'e']
  | .bool false => ['f', 'a', 'l', 's', 'e']
  | .num n => n.text
  | .str s => quote s
  | .arr items => '[' :: stringifyItems items ++ [']']
  | .obj fields => '{' :: stringifyFields fields ++ ['}']

/-- The texts of items, with commas between them. -/
def stringifyItems : List Json → List Char
  | [] => []
  | [v] => stringify v
  | v :: w :: vs => stringify v ++ ',' :: stringifyItems (w :: vs)

/-- The texts of the members of an object, with commas between them. -/
def stringifyFields : List (Utf16 × Json) → List Char
  | [] => []
  | [(k, v)] => quote k ++ ':' :: stringify v
  | (k, v) :: f :: fs => quote k ++ ':' :: stringify v ++ ',' :: stringifyFields (f :: fs)

end

/-! ## Reading -/

def isBlank (c : Char) : Bool := c ∈ [' ', '\t', '\n', '\r']

/-- What follows the blanks at the front. -/
def skipBlank (s : List Char) : List Char := s.dropWhile isBlank

/-- What follows `word`, if `s` starts with it. -/
def expect (word s : List Char) : Option (List Char) :=
  if word.isPrefixOf s then some (s.drop word.length) else none

def parseNumeral (s : List Char) : Option (Json × List Char) :=
  if valid : isNumeral (s.takeWhile isNumeralChar) = true then
    some (.num ⟨s.takeWhile isNumeralChar, valid⟩, s.dropWhile isNumeralChar)
  else none

mutual

/-- The value `s` starts with, and what follows it.  The first argument bounds the
depth of the recursion; the length of `s` is enough. -/
def parseValue : Nat → List Char → Option (Json × List Char)
  | 0, _ => none
  | fuel + 1, s =>
      match skipBlank s with
      | [] => none
      | c :: s =>
          if c = '"' then (parseUnits s).map fun (us, s) => (.str us, s)
          else if c = '[' then
            match skipBlank s with
            | ']' :: s => some (.arr [], s)
            | s => (parseItems fuel s).map fun (vs, s) => (.arr vs, s)
          else if c = '{' then
            match skipBlank s with
            | '}' :: s => some (.obj [], s)
            | s => (parseFields fuel s).map fun (fs, s) => (.obj fs, s)
          else if c = 'n' then (expect ['u', 'l', 'l'] s).map fun s => (.null, s)
          else if c = 't' then (expect ['r', 'u', 'e'] s).map fun s => (.bool true, s)
          else if c = 'f' then (expect ['a', 'l', 's', 'e'] s).map fun s => (.bool false, s)
          else parseNumeral (c :: s)

/-- The items up to the closing bracket. -/
def parseItems : Nat → List Char → Option (List Json × List Char)
  | 0, _ => none
  | fuel + 1, s =>
      match parseValue fuel s with
      | none => none
      | some (v, s) =>
          match skipBlank s with
          | ',' :: s => (parseItems fuel s).map fun (vs, s) => (v :: vs, s)
          | ']' :: s => some ([v], s)
          | _ => none

/-- The members up to the closing brace. -/
def parseFields : Nat → List Char → Option (List (Utf16 × Json) × List Char)
  | 0, _ => none
  | fuel + 1, s =>
      match skipBlank s with
      | '"' :: s =>
          match parseUnits s with
          | none => none
          | some (k, s) =>
              match skipBlank s with
              | ':' :: s =>
                  match parseValue fuel s with
                  | none => none
                  | some (v, s) =>
                      match skipBlank s with
                      | ',' :: s => (parseFields fuel s).map fun (fs, s) => ((k, v) :: fs, s)
                      | '}' :: s => some ([(k, v)], s)
                      | _ => none
              | _ => none
      | _ => none

end

/-- The value of a JSON text. -/
def parse (s : List Char) : Option Json :=
  match parseValue (s.length + 1) s with
  | some (v, rest) => if rest.all isBlank then some v else none
  | none => none

/-! ## Growing an array -/

theorem stringifyItems_concat (v w : Json) (vs : List Json) :
    stringifyItems (v :: vs ++ [w]) = stringifyItems (v :: vs) ++ ',' :: stringify w := by
  induction vs generalizing v with
  | nil => rfl
  | cons u vs ih =>
      rw [List.cons_append, List.cons_append, stringifyItems, ← List.cons_append, ih, stringifyItems,
        List.append_assoc, List.cons_append]

theorem stringify_singleton (v : Json) : stringify (.arr [v]) = '[' :: stringify v ++ [']'] := by
  rw [stringify, stringifyItems]

/-- One more item: without its last character, the text of the array goes on with a
comma, the item and the bracket. -/
theorem stringify_concat {vs : List Json} (some : vs ≠ []) (w : Json) :
    stringify (.arr (vs ++ [w])) =
      (stringify (.arr vs)).dropLast ++ (',' :: stringify w ++ [']']) := by
  obtain ⟨v, vs, rfl⟩ := List.exists_cons_of_ne_nil some
  rw [stringify, stringify, stringifyItems_concat, List.dropLast_concat]
  simp

end Json

end PatientAccess.Theory
