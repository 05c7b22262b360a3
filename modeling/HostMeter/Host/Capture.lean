import HostMeter.Host.View
/-!
# Host — answers taken down beforehand

A running host can only be asked by doing something. A capture holds the answers to the queries that
the probes of a session can make, taken down at one moment; a query that was not taken down leads
nowhere.

* `Capture.sources`, `Capture.supplySources`: the files that the probes read.
* `Capture.view`: the answers.
-/

namespace HostMeter

/-- Answers taken down at one moment. -/
structure Capture where
  files : List (Path × Except HostFault String)
  directories : List (Path × Except HostFault (List Path))

namespace Capture

/-- The directory that lists the power supplies. -/
def supplies (sysRoot : String) : Path := (Path.mk sysRoot).join "class/power_supply"

def sources (procRoot : String) : List Path :=
  ["stat", "meminfo", "net/dev"].map (Path.mk procRoot).join

/-- The files of a power supply that the probes read. -/
def supplySources (supply : Path) : List Path := ["capacity", "status"].map supply.join

def answer {α : Type} (answers : List (Path × Except HostFault α)) (p : Path) :
    Except HostFault α :=
  match answers.find? fun a => a.1 == p with
  | some (_, answer) => answer
  | none => .error .noEntry

/-- The answers of a capture. How full a mount is cannot be taken down. -/
def view (c : Capture) : HostView where
  read := answer c.files
  has p :=
    match answer c.files p with
    | .ok _ => true
    | .error fault => fault != .noEntry && fault != .notADirectory
  entries := answer c.directories
  usage _ := .error .noUsage

end Capture

end HostMeter
