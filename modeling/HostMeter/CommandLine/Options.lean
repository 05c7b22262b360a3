import HostMeter.Settings.Values
import HostMeter.Text.Line
/-!
# Command line — options

Options are read from left to right. A long option starts with two hyphens and may carry its value
after `=`; short options start with one hyphen, may stand together, and the first of them that takes
a value takes the rest, with or without `=`. A value may also be the next argument, unless that
starts with a hyphen and is longer than it. Every option but `-v` may be given once, nothing else may
be given, and the version and the help are shown as soon as they are asked for, provided that nothing
before was wrong.

* `Options.ofArgs`: the options, or why the program stops before it starts.
-/

namespace HostMeter

structure Options where
  config : Option String
  /-- The number of rounds after which the program ends. -/
  iterations : Option UInt64
  json : Bool
  roots : Roots
  verbosity : Nat
  quiet : Bool
  deriving DecidableEq, Repr

/-- Why the program stops before it starts. -/
inductive EarlyStop where
  | usage
  | help
  | version
  deriving DecidableEq, Repr

namespace Options

def standard : Options where
  config := none
  iterations := none
  json := false
  roots := .standard
  verbosity := 0
  quiet := false

/-! ## The options there are -/

/-- The options that take a value. -/
inductive Valued where
  | config
  | iterations
  | procRoot
  | sysRoot
  deriving DecidableEq, Repr

/-- The options without a value. -/
inductive Switch where
  | json
  | verbose
  | quiet
  | help
  | version
  deriving DecidableEq, Repr

abbrev AnyOption := Valued ⊕ Switch

def ofLong? : String → Option AnyOption
  | "config" => some (.inl .config)
  | "iterations" => some (.inl .iterations)
  | "proc-path" => some (.inl .procRoot)
  | "sys-path" => some (.inl .sysRoot)
  | "json" => some (.inr .json)
  | "verbose" => some (.inr .verbose)
  | "quiet" => some (.inr .quiet)
  | "help" => some (.inr .help)
  | "version" => some (.inr .version)
  | _ => none

def ofShort? : Char → Option AnyOption
  | 'c' => some (.inl .config)
  | 'n' => some (.inl .iterations)
  | 'v' => some (.inr .verbose)
  | 'q' => some (.inr .quiet)
  | 'h' => some (.inr .help)
  | 'V' => some (.inr .version)
  | _ => none

/-! ## Reading arguments -/

structure Progress where
  options : Options
  /-- The options that have been given. -/
  given : List AnyOption
  /-- The last option with a value, if its value has not been taken over yet. -/
  pending : Option (Valued × Option String)
  /-- Has the mark been read after which no options follow? -/
  closed : Bool

def Progress.start : Progress := ⟨.standard, [], none, false⟩

def setValue (o : Options) (v : Valued) (value : String) : Except EarlyStop Options :=
  match v with
  | .config => if value.isEmpty then .error .usage else .ok { o with config := some value }
  | .iterations =>
    match Text.uint64? value.toList with
    | some n => .ok { o with iterations := some n }
    | none => .error .usage
  | .procRoot => .ok { o with roots := { o.roots with proc := value } }
  | .sysRoot => .ok { o with roots := { o.roots with sys := value } }

namespace Progress

/-- Notes that an option is given; only the verbosity may be given again. -/
def note (p : Progress) (o : AnyOption) : Except EarlyStop Progress :=
  if o != .inr .verbose && p.given.contains o then .error .usage
  else .ok { p with given := o :: p.given }

/-- Takes over the value of an option. -/
def assign (p : Progress) (v : Valued) (value : String) : Except EarlyStop Progress := do
  let p ← p.note (.inl v)
  let options ← setValue p.options v value
  return { p with options }

/-- Takes over the value that is pending. An option without its value is wrong. -/
def settle (p : Progress) : Except EarlyStop Progress :=
  match p.pending with
  | none => .ok p
  | some (_, none) => .error .usage
  | some (v, some value) => { p with pending := none }.assign v value

def turnOn (p : Progress) (s : Switch) : Except EarlyStop Progress := do
  let p ← p.settle
  let p ← p.note (.inr s)
  -- the version and the help stop the reading, so what follows them is not looked at
  match s with
  | .json => return { p with options := { p.options with json := true } }
  | .verbose =>
    return { p with options := { p.options with verbosity := p.options.verbosity + 1 } }
  | .quiet => return { p with options := { p.options with quiet := true } }
  | .help => throw .help
  | .version => throw .version

/-- Reads an option with its value, or with its value to follow. -/
def readValued (p : Progress) (v : Valued) (attached : Option String) : Except EarlyStop Progress := do
  let p ← p.settle
  match attached with
  | some value => p.assign v value
  | none => return { p with pending := some (v, none) }

/-- Reads a long option, given without its hyphens. -/
def readLong (p : Progress) (body : List Char) : Except EarlyStop Progress :=
  let (name, attached) :=
    match Text.cut? '=' body with
    | some (name, value) => (name, some (String.ofList value))
    | none => (body, none)
  match ofLong? (String.ofList name), attached with
  | some (.inl v), _ => p.readValued v attached
  | some (.inr s), none => p.turnOn s
  | some (.inr _), some _ => .error .usage
  | none, _ => .error .usage

/-- The value that is attached to a short option. -/
def attachedValue : List Char → Option String
  | [] => none
  | '=' :: rest => some (String.ofList rest)
  | rest => some (String.ofList rest)

/-- Reads short options that stand together. -/
def readShort (p : Progress) : List Char → Except EarlyStop Progress
  | [] => .ok p
  | c :: rest =>
    match ofShort? c with
    | some (.inl v) => p.readValued v (attachedValue rest)
    | some (.inr s) => do
      let p ← p.turnOn s
      p.readShort rest
    | none => .error .usage

/-- Reads an argument that is no option: the value that an option waits for. -/
def readValue (p : Progress) (arg : String) : Except EarlyStop Progress :=
  match p.pending with
  | some (v, none) => .ok { p with pending := some (v, some arg) }
  | _ => .error .usage

def read (p : Progress) (arg : String) : Except EarlyStop Progress :=
  if p.closed then .error .usage
  else
    match arg.toList with
    | ['-', '-'] => .ok { p with closed := true }
    | '-' :: '-' :: body => p.readLong body
    | '-' :: c :: rest => p.readShort (c :: rest)
    | _ => p.readValue arg

end Progress

def ofArgs (args : List String) : Except EarlyStop Options := do
  let p ← args.foldlM Progress.read .start
  -- the last option may still wait for its value
  let p ← p.settle
  return p.options

end Options

end HostMeter
