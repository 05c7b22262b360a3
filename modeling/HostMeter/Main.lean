import HostMeter.CommandLine.Session
import HostMeter.Host.Capture
/-!
# Command line — the program

Takes down what the probes can ask of the host, hands it to the session, prints a line for every
round and sleeps between rounds.
-/

namespace HostMeter.Program

/-- The system's code for a directory that stands where a file is needed. -/
def isADirectoryCode : UInt32 := 21

/-- The fault that a failed read of a file stands for. -/
def readFault : IO.Error → HostFault
  | .noFileOrDirectory .. => .noEntry
  | .inappropriateType _ code _ =>
    if code = isADirectoryCode then .isADirectory else .notADirectory
  | .permissionDenied .. => .stated .permissionDenied "Permission denied (os error 13)"
  | other => .stated .other (toString other)

def readFile (p : Path) : IO (Except HostFault String) := do
  match ← (IO.FS.readBinFile p.text).toBaseIO with
  | .error fault => return .error (readFault fault)
  | .ok bytes =>
    match String.fromUTF8? bytes with
    | some text => return .ok text
    | none => return .error .notText

def listDirectory (p : Path) : IO (Except HostFault (List Path)) := do
  match ← (do (← IO.FS.realPath p.text).readDir : IO _).toBaseIO with
  | .error fault => return .error (readFault fault)
  | .ok entries => return .ok (entries.toList.map fun e => p.join e.fileName)

/-- Takes down what the probes can ask. -/
def capture (o : Options) : IO Capture := do
  let supplies := Capture.supplies o.roots.sys
  let listing ← listDirectory supplies
  let found := (listing.toOption.getD []).flatMap Capture.supplySources
  let wanted := Capture.sources o.roots.proc ++ found ++ o.config.toList.map Path.mk
  let files ← wanted.mapM fun p => do return (p, ← readFile p)
  return { files, directories := [(supplies, listing)] }

def fail (fault : Fault) : IO UInt32 := do
  IO.eprintln (Session.reportLine fault)
  return 1

/-- Runs rounds until the options end them. -/
partial def runRounds (o : Options) (done : Nat) (m : Monitor Builtin) : IO UInt32 := do
  let host := (← capture o).view
  match ← m.pollBy (UInt64.ofNat <$> IO.monoMsNow) host with
  | (_, .error fault) => fail fault
  | (m, .ok s) =>
    IO.println (Session.render o s)
    (← IO.getStdout).flush
    if Session.isOver o (done + 1) then return 0
    IO.sleep m.interval
    runRounds o (done + 1) m

def run (args : List String) : IO UInt32 := do
  match Options.ofArgs args with
  | .error .version =>
    IO.println Session.versionLine
    return 0
  | .error .help =>
    IO.println Session.usageText
    return 0
  | .error .usage =>
    IO.eprintln Session.usageText
    return 2
  | .ok o =>
    match Session.start o (← capture o).view with
    | .error fault => fail fault
    | .ok m => runRounds o 0 m

end HostMeter.Program

def main (args : List String) : IO UInt32 := HostMeter.Program.run args
