import HostMeter.Decimal.Shortest
/-!
# JSON — compact text of objects of scalars

The library writes JSON without any blanks: scalars, objects whose members are scalars, and arrays of
such objects. Members keep their order.

* `quoteChar`, `quoted`: strings escape the quote, the backslash and the characters below U+0020, and
  write all else as it stands.
* `NumberLayout`, `numberLayout`: where a double is written in plain decimal notation.
* `Scalar.chars`, `objectChars`, `arrayChars`: the texts.
-/

namespace HostMeter.Json

inductive Scalar where
  | null
  | int (value : Int)
  | double (value : Binary64)
  | text (value : String)
  deriving DecidableEq, Repr

/-- An object: its members in order. -/
abbrev Object := List (String × Scalar)

/-! ## Strings -/

def quoteChar (c : Char) : List Char :=
  if c = '"' then ['\\', '"']
  else if c = '\\' then ['\\', '\\']
  else if c = '\x08' then ['\\', 'b']
  else if c = '\x0c' then ['\\', 'f']
  else if c = '\n' then ['\\', 'n']
  else if c = '\r' then ['\\', 'r']
  else if c = '\t' then ['\\', 't']
  else if c.toNat < 0x20 then ['\\', 'u'] ++ Text.hex 4 c.toNat
  else [c]

def quoted (s : String) : List Char := '"' :: (s.toList.flatMap quoteChar ++ ['"'])

/-! ## Numbers -/

/-- Which decimals are written in plain notation: those whose leading digit counts a power of ten
between the two bounds. -/
structure NumberLayout where
  least : Int
  greatest : Int

/-- Doubles from `0.00001` up to below `1e+16` are written in plain notation. -/
def numberLayout : NumberLayout := ⟨-5, 15⟩

/-- Digits in plain notation, with at least one digit on either side of the point. -/
def plain (ds : List Char) (exponent : Int) : List Char :=
  if 0 ≤ exponent then ds ++ List.replicate exponent.toNat '0' ++ ['.', '0']
  else
    let places := (-exponent).toNat
    if places < ds.length then ds.take (ds.length - places) ++ '.' :: ds.drop (ds.length - places)
    else '0' :: '.' :: List.replicate (places - ds.length) '0' ++ ds

/-- Digits with a point after the first and the power of ten that it counts, always with a sign. -/
def withExponent (ds : List Char) (power : Int) : List Char :=
  let tail := ds.drop 1
  ds.take 1 ++ (if tail.isEmpty then [] else '.' :: tail) ++
    'e' :: (if power < 0 then '-' else '+') :: Text.digits power.natAbs

/-- A positive decimal in the notation that a layout asks for. -/
def decimalChars (layout : NumberLayout) (d : Decimal.Scientific) : List Char :=
  let ds := Text.digits d.coefficient
  let power := d.exponent + ds.length - 1
  if layout.least ≤ power && power ≤ layout.greatest then plain ds d.exponent
  else withExponent ds power

/-- A double: its shortest decimal, and `null` for an infinity or a NaN. -/
def doubleChars (x : Binary64) : List Char :=
  if x.isFinite then
    (if x.isNegative then ['-'] else []) ++
      (if x.units = 0 then ['0', '.', '0']
       else decimalChars numberLayout (Decimal.Shortest.decimal x))
  else "null".toList

/-! ## Values -/

def Scalar.chars : Scalar → List Char
  | .null => "null".toList
  | .int i => (Text.ofInt i).toList
  | .double x => doubleChars x
  | .text s => quoted s

def commaSeparated : List (List Char) → List Char
  | [] => []
  | [t] => t
  | t :: ts => t ++ ',' :: commaSeparated ts

def memberChars (m : String × Scalar) : List Char := quoted m.1 ++ ':' :: m.2.chars

def objectChars (o : Object) : List Char :=
  '\x7b' :: commaSeparated (o.map memberChars) ++ ['\x7d']

def arrayChars (os : List Object) : List Char :=
  '[' :: commaSeparated (os.map objectChars) ++ [']']

def objectText (o : Object) : String := String.ofList (objectChars o)

def arrayText (os : List Object) : String := String.ofList (arrayChars os)

end HostMeter.Json
