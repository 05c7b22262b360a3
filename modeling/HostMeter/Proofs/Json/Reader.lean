import HostMeter.Json
import HostMeter.Proofs.Text.Numerals
/-!
# Reader — JSON texts and what they say

A reader for JSON as the standard has it: any blanks between tokens, all escapes in strings, fractions
and exponents in numbers, nested arrays and objects. It knows nothing of the writer. Numbers are kept
as they are written, and it takes whole texts only.

* `Value`, `Number`: what a text says; `Number.integer?` and `Number.toBinary64` are the two ways in
  which a number is taken.
* `pieces?`, `join?`: the characters of a string, where an escape may stand for half of a character.
* `number?`: a number in decimal notation.
* `value?`, `read`: a value, and the value of a whole text.
-/

namespace HostMeter.Json

/-! ## Values

What a text says. Numbers stay as they are written, since the standard does not say what they are to be
taken for. -/

/-- A number as it is written: `coefficient * 10 ^ exponent`, and a sign. -/
structure Number where
  negative : Bool
  coefficient : Nat
  exponent : Int
  /-- Is it written without a point and without a power of ten? -/
  integral : Bool
  deriving DecidableEq, Repr

namespace Number

/-- The integer that a number without a point stands for. -/
def integer? (n : Number) : Option Int :=
  if n.integral then some (if n.negative then -n.coefficient else n.coefficient) else none

/-- The magnitude of a number in the units of doubles, as a quotient. -/
def quotient (n : Number) : Nat × Nat :=
  (n.coefficient * Nat.pow 10 n.exponent.toNat * Binary64.unitsPerOne,
    Nat.pow 10 (-n.exponent).toNat)

/-- The double nearest to a number, the even one of two that are equally near. -/
def toBinary64 (n : Number) : Binary64 :=
  let magnitude := Binary64.ofQuotient n.quotient.1 n.quotient.2
  let sign := if n.negative then Binary64.exponentCount * Binary64.fractionCount else 0
  ⟨UInt64.ofNat (sign + magnitude.bits.toNat)⟩

end Number

inductive Value where
  | null
  | bool (value : Bool)
  | number (value : Number)
  | string (value : String)
  | array (items : List Value)
  | object (members : List (String × Value))

/-! ## Strings

A string is read in two steps: into parts, and then the parts into characters, as two code units may stand
for one. -/

/-- A part of a string: a character, or a code unit that is written as an escape. -/
inductive Piece where
  | char (c : Char)
  | unit (n : Nat)
  deriving DecidableEq, Repr

def hexDigit? (c : Char) : Option Nat :=
  if c.isDigit then some (c.toNat - '0'.toNat)
  else if 'a' ≤ c && c ≤ 'f' then some (10 + (c.toNat - 'a'.toNat))
  else if 'A' ≤ c && c ≤ 'F' then some (10 + (c.toNat - 'A'.toNat))
  else none

def hexValue? (cs : List Char) : Option Nat :=
  cs.foldl (fun n c => do return 16 * (← n) + (← hexDigit? c)) (some 0)

/-- The characters that have an escape of one letter. -/
def escaped? (c : Char) : Option Char :=
  if c = '"' || c = '\\' || c = '/' then some c
  else if c = 'b' then some '\x08'
  else if c = 'f' then some '\x0c'
  else if c = 'n' then some '\n'
  else if c = 'r' then some '\r'
  else if c = 't' then some '\t'
  else none

/-- Puts something before the items that were read. -/
def before {α : Type} (a : α) (r : Option (List α × List Char)) : Option (List α × List Char) :=
  r.map fun (as, rest) => (a :: as, rest)

/-- The parts of a string up to the quote that ends it, and what follows. -/
def pieces? : List Char → Option (List Piece × List Char)
  | [] => none
  | c :: rest =>
    if c = '"' then some ([], rest)
    else if c = '\\' then
      match rest with
      | [] => none
      | e :: rest =>
        if e = 'u' then
          match rest with
          | h₃ :: h₂ :: h₁ :: h₀ :: rest =>
            match hexValue? [h₃, h₂, h₁, h₀] with
            | some n => before (.unit n) (pieces? rest)
            | none => none
          | _ => none
        else
          match escaped? e with
          | some c => before (.char c) (pieces? rest)
          | none => none
    else if c.toNat < 0x20 then none
    else before (.char c) (pieces? rest)

/-- The first of the two code units of a character beyond `U+FFFF`. -/
def isHighUnit (n : Nat) : Bool := 0xd800 ≤ n && n < 0xdc00

def isLowUnit (n : Nat) : Bool := 0xdc00 ≤ n && n < 0xe000

/-- The characters that the parts of a string stand for. A half without its other half is refused. -/
def join? : List Piece → Option (List Char)
  | [] => some []
  | .char c :: ps => (join? ps).map (c :: ·)
  | .unit n :: ps =>
    if isHighUnit n then
      match ps with
      | .unit m :: ps =>
        if isLowUnit m then
          (join? ps).map (Char.ofNat (0x10000 + 0x400 * (n - 0xd800) + (m - 0xdc00)) :: ·)
        else none
      | _ => none
    else if isLowUnit n then none
    else (join? ps).map (Char.ofNat n :: ·)

def string? (cs : List Char) : Option (String × List Char) := do
  let (ps, rest) ← pieces? cs
  return (String.ofList (← join? ps), rest)

/-! ## Numbers

The grammar of numbers, from the sign to the power of ten. -/

def digitRun? (cs : List Char) : Option (List Char × List Char) :=
  let ds := cs.takeWhile Char.isDigit
  if ds.isEmpty then none else some (ds, cs.dropWhile Char.isDigit)

/-- The digits before the point: a zero stands alone. -/
def whole? (cs : List Char) : Option (List Char × List Char) := do
  let (ds, rest) ← digitRun? cs
  if ds.head? = some '0' && 1 < ds.length then none else return (ds, rest)

/-- The digits behind the point, and none if there is no point. -/
def fraction? : List Char → Option (List Char × List Char)
  | [] => some ([], [])
  | c :: cs => if c = '.' then digitRun? cs else some ([], c :: cs)

/-- The sign of a number, or that of its power of ten. -/
def sign : List Char → Bool × List Char
  | [] => (false, [])
  | c :: cs => if c = '-' then (true, cs) else (false, c :: cs)

def dropPlus : List Char → List Char
  | [] => []
  | c :: cs => if c = '+' then cs else c :: cs

def power? : List Char → Option (Option Int × List Char)
  | [] => some (none, [])
  | c :: cs =>
    if c = 'e' || c = 'E' then do
      let (negative, cs) := sign cs
      let (ds, rest) ← digitRun? (if negative then cs else dropPlus cs)
      let power := Text.digitsValue ds
      return (some (if negative then -power else power), rest)
    else some (none, c :: cs)

def number? (cs : List Char) : Option (Number × List Char) := do
  let (negative, cs) := sign cs
  let (whole, cs) ← whole? cs
  let (fraction, cs) ← fraction? cs
  let (power, rest) ← power? cs
  let exponent := power.getD 0 - fraction.length
  return (⟨negative, Text.digitsValue (whole ++ fraction), exponent, fraction.isEmpty && power.isNone⟩,
    rest)

/-! ## Whole texts

Values are nested, so the reader carries fuel; the length of the text is always enough. -/

def isBlank (c : Char) : Bool := c = ' ' || c = '\t' || c = '\n' || c = '\r'

def skipBlanks (cs : List Char) : List Char := cs.dropWhile isBlank

/-- What follows a character that has to come next, after any blanks. -/
def expect? (c : Char) (cs : List Char) : Option (List Char) :=
  match skipBlanks cs with
  | [] => none
  | d :: rest => if d = c then some rest else none

/-- Items with commas between them, up to a closing character; `fuel` items at most. -/
def items? {α : Type} (item : List Char → Option (α × List Char)) (close : Char) :
    Nat → List Char → Option (List α × List Char)
  | 0, _ => none
  | fuel + 1, cs => do
    let (a, rest) ← item cs
    match expect? ',' rest with
    | some rest => before a (items? item close fuel rest)
    | none => return ([a], ← expect? close rest)

/-- Items up to a closing character, or none. -/
def list? {α : Type} (item : List Char → Option (α × List Char)) (close : Char) (fuel : Nat)
    (cs : List Char) : Option (List α × List Char) :=
  match expect? close cs with
  | some rest => some ([], rest)
  | none => items? item close fuel cs

/-- A name, a colon and a value. -/
def member? (value : List Char → Option (Value × List Char)) (cs : List Char) :
    Option ((String × Value) × List Char) := do
  let (name, rest) ← string? (← expect? '"' cs)
  let (v, rest) ← value (← expect? ':' rest)
  return ((name, v), rest)

def literal? (word : List Char) (v : Value) (cs : List Char) : Option (Value × List Char) :=
  if word.isPrefixOf cs then some (v, cs.drop word.length) else none

/-- A value, which is nested less than `fuel` deep and has at most `fuel` items in a list. -/
def value? : Nat → List Char → Option (Value × List Char)
  | 0, _ => none
  | fuel + 1, cs =>
    match skipBlanks cs with
    | [] => none
    | c :: cs =>
      if c = '\x7b' then (list? (member? (value? fuel)) '\x7d' fuel cs).map fun (ms, r) => (.object ms, r)
      else if c = '[' then (list? (value? fuel) ']' fuel cs).map fun (vs, r) => (.array vs, r)
      else if c = '"' then (string? cs).map fun (s, r) => (.string s, r)
      else if c = 'n' then literal? "ull".toList .null cs
      else if c = 't' then literal? "rue".toList (.bool true) cs
      else if c = 'f' then literal? "alse".toList (.bool false) cs
      else (number? (c :: cs)).map fun (n, r) => (.number n, r)

/-- The value of a whole text. No text is nested deeper, or has more items, than it has characters. -/
def read (text : String) : Option Value := do
  let (v, rest) ← value? (text.toList.length + 1) text.toList
  if (skipBlanks rest).isEmpty then some v else none

end HostMeter.Json
