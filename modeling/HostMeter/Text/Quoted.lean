import HostMeter.Text.Hidden
import HostMeter.Text.Numeral
/-!
# Text — quoted texts

A message that repeats a text it was given puts it between double quotes. A quote and a backslash
are preceded by a backslash, line feed, carriage return, tab and NUL have a letter each, every other
character without a shape of its own is written by its hexadecimal number, and all else stands for
itself.

* `quoteChar`: the written form of one character.
* `quoted`: the written form of a text, quotes included.
-/

namespace HostMeter.Text

/-- The written form of one character of a quoted text. -/
def quoteChar (c : Char) : List Char :=
  if c = '"' then ['\\', '"']
  else if c = '\\' then ['\\', '\\']
  else if c = '\n' then ['\\', 'n']
  else if c = '\r' then ['\\', 'r']
  else if c = '\t' then ['\\', 't']
  else if c = '\x00' then ['\\', '0']
  else if isHidden c then ['\\', 'u', '\x7b'] ++ Nat.toDigits 16 c.toNat ++ ['\x7d']
  else [c]

def quoted (s : String) : String :=
  String.ofList (['"'] ++ s.toList.flatMap quoteChar ++ ['"'])

end HostMeter.Text
