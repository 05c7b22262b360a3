import HostMeter.Settings.Ini
import HostMeter.Settings.Truth
import HostMeter.Text.Numeral
/-!
# Settings — values and what they configure

A configured value is a truth value or a 32-bit number. A truth value that is not understood falls
back to its default; a number that is not understood is a fault, and only an absent or empty one
falls back.

* `Ini.flag`, `Ini.word32`: the two readings of a value.
* `Ini.Decides`, `Ini.flag_eq_iff`: a truth value that is configured, told without the reader.
* `MonitorSettings.ofIni`: the pace of the monitor.
* `ProbeSettings.ofIni`: whether a probe takes part, and how often it asks the host again.
* `Roots`: where the kernel's files are mounted.
-/

namespace HostMeter

/-- Why a configured value cannot be used. -/
inductive SettingFault where
  /-- The value is not a 32-bit number. -/
  | notWord (heading key value : String)
  | zeroInterval
  deriving DecidableEq, Repr

def SettingFault.message : SettingFault → String
  | .notWord heading key value =>
    "invalid " ++ heading ++ "." ++ key ++ " = " ++ Text.quoted value ++
      " (must be an unsigned 32-bit integer)"
  | .zeroInterval => "invalid sysmon.interval_ms (must be an integer > 0)"

/-- A value that cannot be used is a fault of parsing. -/
def SettingFault.toFault (f : SettingFault) : Fault := .parse f.message

/-! ## Reading values -/

namespace Ini

/-- A configured truth value, or its default. -/
def flag (ini : Ini) (heading key : String) (default : Bool) : Bool :=
  ((ini.get? heading key).bind truthValue?).getD default

/-- What a configuration decides with a key: what its value means, and the default if there is no value or if
it means nothing. -/
inductive Decides (ini : Ini) (heading key : String) (default : Bool) : Bool → Prop where
  | stated {value : String} {b : Bool} (h : ini.get? heading key = some value) (hmeans : Means value b) :
      Decides ini heading key default b
  | fallback (h : ∀ value, ini.get? heading key = some value → ∀ b, ¬Means value b) :
      Decides ini heading key default default

section Decides

variable {ini : Ini} {heading key : String} {default b b' : Bool}

/-- There are no two things that a configuration decides. -/
theorem Decides.unique (h : ini.Decides heading key default b) (h' : ini.Decides heading key default b') :
    b = b' := by
  cases h with
  | stated hvalue hmeans =>
    cases h' with
    | stated hvalue' hmeans' =>
      obtain rfl := Option.some.inj (hvalue.symm.trans hvalue')
      exact hmeans.unique hmeans'
    | fallback hnone => exact absurd hmeans (hnone _ hvalue _)
  | fallback hnone =>
    cases h' with
    | stated hvalue hmeans => exact absurd hmeans (hnone _ hvalue _)
    | fallback _ => rfl

/-- The reader finds something that the configuration decides. -/
theorem decides_flag (ini : Ini) (heading key : String) (default : Bool) :
    ini.Decides heading key default (ini.flag heading key default) := by
  rw [flag]
  cases hvalue : ini.get? heading key with
  | none =>
    refine .fallback fun value h => ?_
    rw [hvalue] at h
    cases h
  | some value =>
    rw [Option.bind_some]
    cases hmeans : truthValue? value with
    | some b => exact .stated hvalue (truthValue?_eq_some_iff.mp hmeans)
    | none =>
      -- a value that means something would have been read
      refine .fallback fun value' h b hb => ?_
      obtain rfl := Option.some.inj (hvalue.symm.trans h)
      rw [truthValue?_eq_some_iff.mpr hb] at hmeans
      cases hmeans

/-- **A flag is what the configuration decides.** -/
theorem flag_eq_iff : ini.flag heading key default = b ↔ ini.Decides heading key default b := by
  have hflag := decides_flag ini heading key default
  constructor
  · rintro rfl
    exact hflag
  · exact hflag.unique

end Decides

instance (ini : Ini) (heading key : String) (default b : Bool) : Decidable (ini.Decides heading key default b) :=
  decidable_of_iff _ flag_eq_iff

/-- A configured number, or its default if the value is absent or empty. -/
def word32 (ini : Ini) (heading key : String) (default : UInt32) : Except SettingFault UInt32 :=
  match ini.get? heading key with
  | none => .ok default
  | some value =>
    if value.isEmpty then .ok default
    else
      match Text.uint32? value.toList with
      | some n => .ok n
      | none => .error (.notWord heading key value)

end Ini

/-! ## What is configured -/

structure MonitorSettings where
  /-- Milliseconds between rounds. -/
  interval : UInt32
  deriving DecidableEq, Repr

namespace MonitorSettings

def heading : String := "sysmon"

def defaultInterval : UInt32 := 1000

def ofIni (ini : Ini) : Except SettingFault MonitorSettings := do
  let interval ← ini.word32 heading "interval_ms" defaultInterval
  if interval = 0 then throw .zeroInterval
  return ⟨interval⟩

end MonitorSettings

structure ProbeSettings where
  enabled : Bool
  /-- The least number of milliseconds between two refreshes; zero refreshes in every round. -/
  refresh : UInt32
  deriving DecidableEq, Repr

namespace ProbeSettings

def heading (probe : String) : String := "module." ++ probe

def ofIni (ini : Ini) (probe : String) : Except SettingFault ProbeSettings := do
  let enabled := ini.flag (heading probe) "enabled" true
  let refresh ← ini.word32 (heading probe) "refresh_ms" 0
  return ⟨enabled, refresh⟩

end ProbeSettings

/-- Where the kernel's files are mounted. -/
structure Roots where
  proc : String
  sys : String
  deriving DecidableEq, Repr

def Roots.standard : Roots := ⟨"/proc", "/sys"⟩

end HostMeter
