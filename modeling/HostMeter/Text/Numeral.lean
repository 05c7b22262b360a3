/-!
# Text — decimal numerals

A numeral is an optional single `+` and then one or more of the digits `0` to `9`. Leading zeros are
allowed, other digits, a minus sign and separators are not, and a numeral is read only if its value
is below the bound of the word that shall hold it.

* `numeralBelow?`: the value of a numeral, put together digit by digit below a bound.
* `uint32?`, `uint64?`: the two words that the library reads.
* `digits`: the shortest numeral of a number.
-/

namespace HostMeter.Text

/-- The digits of a numeral: the text without one leading plus sign. -/
def dropPlus : List Char → List Char
  | '+' :: cs => cs
  | cs => cs

/-- The number that a digit more makes of a number. There is none if the character is no digit or if
the bound is reached. -/
def pushDigit? (bound n : Nat) (c : Char) : Option Nat :=
  let m := 10 * n + (c.toNat - '0'.toNat)
  if c.isDigit && m < bound then some m else none

/-- The value of a numeral that stands for a number below `bound`. The bound is tested at each digit. -/
def numeralBelow? (bound : Nat) (cs : List Char) : Option Nat :=
  let ds := dropPlus cs
  if ds.isEmpty then none else ds.foldlM (pushDigit? bound) 0

def uint32? (cs : List Char) : Option UInt32 := (numeralBelow? UInt32.size cs).map UInt32.ofNat

def uint64? (cs : List Char) : Option UInt64 := (numeralBelow? UInt64.size cs).map UInt64.ofNat

/-- A plain numeral: no sign, no leading zero. -/
def digits (n : Nat) : List Char := Nat.toDigits 10 n

def ofNat (n : Nat) : String := String.ofList (digits n)

/-- The numeral of a signed number: a minus sign before the numeral of its absolute value. -/
def ofInt (i : Int) : String :=
  if i < 0 then String.ofList ('-' :: digits i.natAbs) else ofNat i.natAbs

/-- The lower-case hexadecimal digits of a number, with zeros before them up to a width. -/
def hex (width n : Nat) : List Char :=
  let ds := Nat.toDigits 16 n
  List.replicate (width - ds.length) '0' ++ ds

end HostMeter.Text
