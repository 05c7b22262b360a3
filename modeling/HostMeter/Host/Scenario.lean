import HostMeter.Host.Memory
import HostMeter.Text.Numeral
/-!
# Host — made-up hosts

Texts in the kernel's formats for given numbers, and two complete hosts made of them: a laptop and a
server. The files stand where a Linux host has them.
-/

namespace HostMeter.Scenario

open Text (ofNat)

/-! ## Texts in the kernel's formats -/

def coreCount : Nat := 4

/-- A line of processor ticks: busy ticks as user time, idle ticks, and six columns of zeros. -/
def tickLine (label : String) (busy idle : Nat) : String :=
  label ++ " " ++ ofNat busy ++ " 0 0 " ++ ofNat idle ++ " 0 0 0 0 0 0\n"

/-- Processor statistics with the given busy and idle ticks, shared out equally among the cores. -/
def processorText (busy idle : UInt64) : String :=
  tickLine "cpu " busy.toNat idle.toNat ++
    String.join ((List.range coreCount).map fun core =>
      tickLine ("cpu" ++ ofNat core) (busy.toNat / coreCount) (idle.toNat / coreCount)) ++
    "ctxt 500000\nbtime 1700000000\nprocesses 10000\n"

def memoryText (total free available : UInt64) : String :=
  "MemTotal:       " ++ ofNat total.toNat ++ " kB\n" ++
    "MemFree:        " ++ ofNat free.toNat ++ " kB\n" ++
    "MemAvailable:   " ++ ofNat available.toNat ++ " kB\n" ++
    "Buffers:          512000 kB\n" ++
    "Cached:          2048000 kB\n" ++
    "SwapTotal:       4096000 kB\n" ++
    "SwapFree:        4096000 kB\n"

def interfaceHeading : String :=
  "Inter-|   Receive                                                |  Transmit\n" ++
    " face |bytes    packets errs drop fifo frame compressed multicast" ++
    "|bytes    packets errs drop fifo colls carrier compressed\n"

/-- The width to which an interface's name is filled up with spaces on its left. -/
def nameWidth : Nat := 6

def interfaceLine (name : String) (received sent : UInt64) : String :=
  String.ofList (List.replicate (nameWidth - name.length) ' ') ++ name ++ ": " ++
    ofNat received.toNat ++ " 100 0 0 0 0 0 0 " ++ ofNat sent.toNat ++ " 80 0 0 0 0 0 0\n"

def interfacesText (rows : List (String × UInt64 × UInt64)) : String :=
  interfaceHeading ++
    String.join (rows.map fun (name, received, sent) => interfaceLine name received sent)

def capacityText (capacity : UInt32) : String := ofNat capacity.toNat ++ "\n"

/-! ## Writing them into a host -/

def setProcessor (busy idle : UInt64) : List MemoryHost.Change :=
  [.addFile ⟨"/proc/stat"⟩ (processorText busy idle)]

def setMemory (total free available : UInt64) : List MemoryHost.Change :=
  [.addFile ⟨"/proc/meminfo"⟩ (memoryText total free available)]

def setInterfaces (rows : List (String × UInt64 × UInt64)) : List MemoryHost.Change :=
  [.addFile ⟨"/proc/net/dev"⟩ (interfacesText rows)]

def setBattery (name : String) (capacity : UInt32) (status : String) : List MemoryHost.Change :=
  let base := "/sys/class/power_supply/" ++ name
  [.addFile ⟨base ++ "/capacity"⟩ (capacityText capacity),
   .addFile ⟨base ++ "/status"⟩ (status ++ "\n")]

/-! ## Two hosts -/

/-- A laptop with a battery, a wireless interface beside the loopback, and a root file system. -/
def laptop : MemoryHost :=
  MemoryHost.empty.applyAll
    (setProcessor 1000 9000 ++
      setMemory 16384000 8192000 12000000 ++
      setInterfaces [("lo", 5000, 5000), ("wlan0", 1000000, 250000)] ++
      [.addFile ⟨"/sys/class/power_supply/AC/online"⟩ "0\n"] ++
      setBattery "BAT0" 87 "Discharging" ++
      [.setMount ⟨"/"⟩ ⟨500000000000, 200000000000, 175000000000⟩])

/-- A server without a battery whose wired interface is listed after the loopback. -/
def server : MemoryHost :=
  MemoryHost.empty.applyAll
    (setProcessor 50000 150000 ++
      setMemory 65536000 1024000 0 ++
      setInterfaces [("lo", 12345678, 12345678), ("eth0", 987654321, 123456789)] ++
      [.addDir ⟨"/sys/class/power_supply"⟩,
       .setMount ⟨"/"⟩ ⟨2000000000000, 1500000000000, 1400000000000⟩])

end HostMeter.Scenario
