import HostMeter.CommandLine.Options
import HostMeter.Monitor.Builtin
import HostMeter.Snapshot.Text
/-!
# Command line — a session

A session loads the configuration, builds a monitor over the built-in probes and writes a line for
every round. The number of rounds is tested after each round.

* `Session.start`: the monitor of a session.
* `Session.rounds`: the lines of its rounds.
* `Session.outcomeFrom`, `Session.outcome`: what a whole run of the program leaves behind.
-/

namespace HostMeter

/-- What a run of the program leaves behind. -/
structure Outcome where
  exitCode : UInt8
  output : String
  /-- The wording of the fault that ended the run. -/
  report : Option String
  deriving DecidableEq, Repr

namespace Session

def versionLine : String := "sysmon 0.1.0"

/-- The options, in short. -/
def usageText : String :=
  "Usage: sysmon [-c FILE] [-n N] [--json] [--proc-path DIR] [--sys-path DIR] [-v] [-q] [-h] [-V]"

/-- The fault that ended the run, as the program reports it. -/
def reportLine (fault : Fault) : String := "sysmon: " ++ fault.message

def settings (o : Options) (host : HostView) : Except Fault Ini :=
  match o.config with
  | none => .ok .empty
  | some path => Ini.load host ⟨path⟩

def start (o : Options) (host : HostView) : Except Fault (Monitor Builtin) := do
  let ini ← settings o host
  Monitor.ofSettings ini host o.roots

def render (o : Options) (s : Snapshot) : String := if o.json then s.json else s.human

/-- Has a session come to its end after some rounds? One without a limit never has. -/
def isOver (o : Options) (done : Nat) : Bool := o.iterations.any fun n => n.toNat ≤ done

/-- The lines of at most a number of rounds, the first of which has the given number, and the fault that
ended them. -/
def rounds (o : Options) (moments : Nat → Moment) :
    Nat → Nat → Monitor Builtin → List String × Option Fault
  | 0, _, _ => ([], none)
  | left + 1, number, m =>
    let moment := moments number
    match m.poll moment.now moment.host with
    | (_, .error fault) => ([], some fault)
    | (m, .ok s) =>
      -- the limit is tested when the round is over
      if isOver o (number + 1) then ([render o s], none)
      else
        let (later, fault) := rounds o moments left (number + 1) m
        (render o s :: later, fault)

/-- A number of rounds that a session does not exceed. Without a limit it is interrupted after
`interrupt` rounds; with one it comes to its end before. -/
def mostRounds (o : Options) (interrupt : Nat) : Nat :=
  match o.iterations with
  | none => interrupt
  | some n => n.toNat + 1

/-- What a run of the program leaves behind, if it starts on the given host, and the host and the clock
are as given in each round. -/
def outcomeFrom (args : List String) (host : HostView) (moments : Nat → Moment) (interrupt : Nat) :
    Outcome :=
  match Options.ofArgs args with
  | .error .usage => ⟨2, "", none⟩
  | .error .help => ⟨0, "", none⟩
  | .error .version => ⟨0, versionLine ++ "\n", none⟩
  | .ok o =>
    match start o host with
    | .error fault => ⟨1, "", some (reportLine fault)⟩
    | .ok m =>
      let (lines, fault) := rounds o moments (mostRounds o interrupt) 0 m
      let output := String.join (lines.map fun line => line ++ "\n")
      match fault with
      | none => ⟨0, output, none⟩
      | some fault => ⟨1, output, some (reportLine fault)⟩

/-- What a run of the program leaves behind, if the host stays as it is until the first round. -/
def outcome (args : List String) (moments : Nat → Moment) (interrupt : Nat) : Outcome :=
  outcomeFrom args (moments 0).host moments interrupt

end Session

end HostMeter
