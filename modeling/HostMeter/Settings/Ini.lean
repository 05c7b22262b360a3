import HostMeter.Host.View
import HostMeter.Text.Line
/-!
# Settings — the configuration text

A configuration is a text of lines `[heading]` and `key = value`. Blanks around headings, keys and
values do not count, nor do empty lines and lines that start with `;` or `#`. A heading holds until
the next one; before the first one it is the empty text. When a key is set twice under one heading,
the first value counts.

* `Line.ofText`: what one line says.
* `Ini.parse`: the assignments of a text, or the first line that is malformed.
* `Ini.get?`: the value of a key under a heading.
* `Ini.render`: a text with given assignments.
-/

namespace HostMeter

/-- The value of a key under a heading. -/
structure Assignment where
  heading : String
  key : String
  value : String
  deriving DecidableEq, Repr

/-- A configuration: its assignments in order. -/
structure Ini where
  assignments : List Assignment
  deriving DecidableEq, Repr

/-- Which line is malformed. Lines count from one. -/
inductive IniFault where
  | openHeading (line : Nat)
  /-- A line that is neither a heading nor an assignment. -/
  | noAssignment (line : Nat)
  deriving DecidableEq, Repr

def IniFault.message : IniFault → String
  | .openHeading n => "config line " ++ Text.ofNat n ++ ": missing ']'"
  | .noAssignment n => "config line " ++ Text.ofNat n ++ ": expected key=value"

/-- A malformed configuration is a fault of parsing. -/
def IniFault.toFault (f : IniFault) : Fault := .parse f.message

namespace Ini

/-! ## One line -/

/-- What a line of a configuration says. -/
inductive Line where
  /-- Nothing: an empty line or a comment. -/
  | silent
  | heading (name : String)
  | assignment (key value : String)
  | openHeading
  | noAssignment
  deriving DecidableEq, Repr

def Line.ofTrimmed : List Char → Line
  | [] => .silent
  | ';' :: _ => .silent
  | '#' :: _ => .silent
  | '[' :: rest =>
    match Text.cut? ']' rest with
    | some (name, _) => .heading (String.ofList (Text.trim name))
    | none => .openHeading
  | line =>
    match Text.cut? '=' line with
    | some (key, value) =>
      .assignment (String.ofList (Text.trim key)) (String.ofList (Text.trim value))
    | none => .noAssignment

def Line.ofText (line : List Char) : Line := Line.ofTrimmed (Text.trim line)

/-! ## The whole text -/

/-- The assignments in lines that follow a heading, the first line having the given number. -/
def ofLines : Nat → String → List (List Char) → Except IniFault (List Assignment)
  | _, _, [] => .ok []
  | n, heading, line :: rest =>
    match Line.ofText line with
    | .silent => ofLines (n + 1) heading rest
    | .heading name => ofLines (n + 1) name rest
    | .assignment key value => do
      let later ← ofLines (n + 1) heading rest
      return ⟨heading, key, value⟩ :: later
    | .openHeading => .error (.openHeading n)
    | .noAssignment => .error (.noAssignment n)

def empty : Ini := ⟨[]⟩

def parse (text : String) : Except IniFault Ini := do
  let assignments ← ofLines 1 "" (Text.lines text.toList)
  return ⟨assignments⟩

/-- The first value of a key under a heading. -/
def get? (ini : Ini) (heading key : String) : Option String :=
  (ini.assignments.find? fun a => a.heading == heading && a.key == key).map Assignment.value

def size (ini : Ini) : Nat := ini.assignments.length

def isEmpty (ini : Ini) : Bool := ini.assignments.isEmpty

/-- A text with the given assignments, each under a heading line of its own. -/
def render (assignments : List Assignment) : String :=
  String.join (assignments.map fun a =>
    "[" ++ a.heading ++ "]\n" ++ a.key ++ "=" ++ a.value ++ "\n")

/-! ## From a file -/

/-- Reads a configuration from a file of the host. -/
def load (host : HostView) (path : Path) : Except Fault Ini :=
  match host.read path with
  | .error cause => .error (.io ("failed to open config file " ++ path.text) cause)
  | .ok text => (parse text).mapError IniFault.toFault

end Ini

end HostMeter
