import HostMeter.Text.Quoted
/-!
# Faults — why an operation failed

A failed query to the host has a cause (`HostFault`); every failed operation of the library has a
class and a text (`Fault`). Only exhausted memory is fatal to the round or the construction in
progress, all other faults are contained by the monitor.

* `HostFault.kind`, `HostFault.message`: the class and the wording of a failed query.
* `Fault.kind`, `Fault.message`: the same for operations.
* `Fault.asUnsupported`: a probe that cannot start is one that the host does not support.
-/

namespace HostMeter

/-! ## Queries to the host -/

inductive HostFault.Kind where
  | notFound
  | permissionDenied
  | notADirectory
  | isADirectory
  | invalidFilename
  | invalidData
  | invalidInput
  | unsupported
  | other
  deriving DecidableEq, Repr

/-- Why a query to the host failed. -/
inductive HostFault where
  | noStoredFile (path : String)
  | noStoredDirectory (path : String)
  | noStoredMount (path : String)
  /-- The path leads nowhere. -/
  | noEntry
  | notADirectory
  | isADirectory
  /-- The path or one of its names is longer than the host allows. -/
  | nameTooLong
  /-- The file holds bytes that are no text. -/
  | notText
  | nulInPath
  /-- The path of a mount contains a NUL, first at this byte. -/
  | nulAt (position : Nat)
  /-- The followed interface is no longer listed. -/
  | interfaceGone (name : String)
  /-- The platform cannot tell how full a mount is. -/
  | noUsage
  /-- A fault that brings its own class and text. -/
  | stated (kind : HostFault.Kind) (text : String)
  deriving DecidableEq, Repr

namespace HostFault

def kind : HostFault → Kind
  | .noStoredFile _ | .noStoredDirectory _ | .noStoredMount _ => .notFound
  | .noEntry | .interfaceGone _ => .notFound
  | .notADirectory => .notADirectory
  | .isADirectory => .isADirectory
  | .nameTooLong => .invalidFilename
  | .notText => .invalidData
  | .nulInPath | .nulAt _ => .invalidInput
  | .noUsage => .unsupported
  | .stated kind _ => kind

def message : HostFault → String
  | .noStoredFile path => "file not found: " ++ Text.quoted path
  | .noStoredDirectory path => "directory not found: " ++ Text.quoted path
  | .noStoredMount path => "no filesystem mounted at " ++ Text.quoted path
  | .noEntry => "No such file or directory (os error 2)"
  | .notADirectory => "Not a directory (os error 20)"
  | .isADirectory => "Is a directory (os error 21)"
  | .nameTooLong => "File name too long (os error 36)"
  | .notText => "stream did not contain valid UTF-8"
  | .nulInPath => "file name contained an unexpected NUL byte"
  | .nulAt position => "nul byte found in provided data at position: " ++ Text.ofNat position
  | .interfaceGone name => "interface " ++ name ++ " disappeared"
  | .noUsage => "statvfs is not available on this platform"
  | .stated _ text => text

end HostFault

/-! ## Operations -/

inductive Fault.Kind where
  | invalidArgument
  | io
  | parse
  | notSupported
  | outOfMemory
  | internal
  deriving DecidableEq, Repr

/-- The name of a class in prose. -/
def Fault.Kind.text : Fault.Kind → String
  | .invalidArgument => "invalid argument"
  | .io => "I/O error"
  | .parse => "parse error"
  | .notSupported => "not supported"
  | .outOfMemory => "out of memory"
  | .internal => "internal error"

/-- Why an operation failed. -/
inductive Fault where
  /-- An operation was called with an argument that it does not take. -/
  | invalidArgument (message : String)
  /-- A query to the host failed that should have succeeded; the context says what it was for. -/
  | io (context : String) (cause : HostFault)
  /-- A configured value or the text of a source is malformed. -/
  | parse (message : String)
  /-- The host does not have what a probe measures. -/
  | notSupported (message : String)
  | outOfMemory (message : String)
  /-- A rule of the library itself was broken. -/
  | internal (message : String)
  deriving DecidableEq, Repr

namespace Fault

def kind : Fault → Kind
  | .invalidArgument _ => .invalidArgument
  | .io _ _ => .io
  | .parse _ => .parse
  | .notSupported _ => .notSupported
  | .outOfMemory _ => .outOfMemory
  | .internal _ => .internal

/-- The wording of a fault: its class, or the context of a failed query, and then the particulars. -/
def message : Fault → String
  | .invalidArgument m => "invalid argument: " ++ m
  | .io context cause => context ++ ": " ++ cause.message
  | .parse m => "parse error: " ++ m
  | .notSupported m => "not supported: " ++ m
  | .outOfMemory m => "out of memory: " ++ m
  | .internal m => "internal error: " ++ m

/-- Does the fault end the round or the construction in progress? -/
def isFatal (f : Fault) : Bool := f.kind == .outOfMemory

theorem isFatal_iff (f : Fault) : f.isFatal = true ↔ f.kind = .outOfMemory := beq_iff_eq

/-- A buffer was asked for that is larger than any buffer can be. -/
def capacityOverflow : Fault :=
  .outOfMemory
    "memory allocation failed because the computed capacity exceeded the collection's maximum"

/-- A fault met while a probe starts: the host does not support the probe. Faults that say so
already, and exhausted memory, stay as they are. -/
def asUnsupported : Fault → Fault
  | .notSupported m => .notSupported m
  | .outOfMemory m => .outOfMemory m
  | f => .notSupported f.message

theorem kind_asUnsupported (f : Fault) :
    f.asUnsupported.kind = if f.isFatal then .outOfMemory else .notSupported := by
  cases f <;> rfl

end Fault

end HostMeter
