import HostMeter.Proofs.CommandLine.Arguments
import HostMeter.Proofs.CommandLine.Rounds
import HostMeter.Proofs.Monitor.Resilience
/-!
# Sessions — when a session succeeds

Whether a session with a limit succeeds is decided before its first round, and by its configuration
alone: the file has to be text, the text has to be a configuration, and the configuration has to provide
what the monitor needs. Nothing else that the host holds, then or later, can make it fail.

* `WorkTree.Holds`, `WorkTree.read_eq_ok_iff`: the bytes of a file, and when they are text.
* `Session.Provides`, `Session.Obstacle`: a configuration that is in order, and the first thing that is
  not; `Session.start_of_provides`, `Session.start_of_obstacle`.
* `Session.outcomeFrom_plain`: the law.
-/

namespace HostMeter

/-! ## Files of a tree

What a path leads to in a tree of files. The file may hold any bytes, and only some of them are a text. -/

namespace WorkTree

/-- A path leads to a file with these bytes. -/
def Holds (t : WorkTree) (p : Path) (content : ByteArray) : Prop :=
  '\x00' ∉ p.text.toList ∧ ∃ place, t.find p = .ok (.inside place (.file content))

/-- Bytes are a text exactly if they are its encoding. -/
theorem fromUTF8?_eq_some_iff {content : ByteArray} {text : String} :
    String.fromUTF8? content = some text ↔ content = text.toUTF8 := by
  rw [String.fromUTF8?]
  constructor
  · intro h
    split at h
    · cases h
      rfl
    · cases h
  · rintro rfl
    rw [String.toUTF8_eq_toByteArray, dif_pos text.isValidUTF8]
    rfl

/-- **A text can be read exactly if the path leads to a file with its bytes.** -/
theorem read_eq_ok_iff {t : WorkTree} {p : Path} {text : String} :
    t.read p = .ok text ↔ t.Holds p text.toUTF8 := by
  have hnul : hasNul p = true ↔ '\x00' ∈ p.text.toList := List.contains_iff_mem
  rw [read, Holds, ← hnul]
  cases hasNul p with
  -- a path with a zero character leads nowhere
  | true => exact iff_of_false nofun fun h => h.1 rfl
  | false =>
    rw [and_iff_right Bool.false_ne_true]
    simp only [Bool.false_eq_true, if_false]
    cases t.find p with
    -- the path leads nowhere
    | error cause => exact iff_of_false nofun nofun
    | ok spot =>
      cases spot with
      -- it leads above the tree
      | above => exact iff_of_false nofun nofun
      | inside place node =>
        cases node with
        -- a directory has no text
        | directory => exact iff_of_false nofun nofun
        | file content =>
          simp only [bind, Except.bind, Except.ok.injEq, Spot.inside.injEq, TreeNode.file.injEq,
            exists_eq_left', ← fromUTF8?_eq_some_iff]
          cases String.fromUTF8? content <;> simp [pure, Except.pure, throw, throwThe, MonadExceptOf.throw]

end WorkTree

/-! ## The start of a session

The file is looked at first, then its text, and then the demands, in their order. The first obstacle counts.
-/

namespace Session

/-- The configuration in a file of the host, which has all that the monitor needs. -/
structure Provides (host : HostView) (file : String) (ini : Ini) : Prop where
  parses : ∃ text, host.read ⟨file⟩ = .ok text ∧ Ini.parse text = .ok ini
  meets : ∀ d ∈ Monitor.demands, d.Met ini

/-- The first thing that keeps a session from its start: the file is not to be read, or its text has a
malformed line, or the configuration does not meet a demand. -/
inductive Obstacle (host : HostView) (file : String) : Fault → Prop where
  | unreadable {cause : HostFault} (hread : host.read ⟨file⟩ = .error cause) :
      Obstacle host file (.io ("failed to open config file " ++ file) cause)
  | malformed {text : String} {f : IniFault} (hread : host.read ⟨file⟩ = .ok text)
      (hparse : Ini.parse text = .error f) : Obstacle host file (.parse f.message)
  | unmet {text : String} {ini : Ini} {earlier later : List Demand} {d : Demand} {f : Fault}
      (hread : host.read ⟨file⟩ = .ok text) (hparse : Ini.parse text = .ok ini)
      (hdemands : Monitor.demands = earlier ++ d :: later) (hearlier : ∀ e ∈ earlier, e.Met ini)
      (hfails : d.Fails ini f) : Obstacle host file f

/-- There is nothing between the two. -/
theorem provides_or_obstacle (host : HostView) (file : String) :
    (∃ ini, Provides host file ini) ∨ ∃ f, Obstacle host file f := by
  cases hread : host.read ⟨file⟩ with
  | error cause => exact Or.inr ⟨_, .unreadable hread⟩
  | ok text =>
    cases hparse : Ini.parse text with
    | error f => exact Or.inr ⟨_, .malformed hread hparse⟩
    | ok ini =>
      cases hdemands : Monitor.demands.findSome? (·.fault? ini) with
      -- all demands are met
      | none =>
        simp only [List.findSome?_eq_none_iff, Demand.fault?_eq_none_iff] at hdemands
        exact Or.inl ⟨ini, ⟨text, hread, hparse⟩, hdemands⟩
      -- the first demand that is not met is the obstacle
      | some f =>
        simp only [List.findSome?_eq_some_iff, Demand.fault?_eq_none_iff,
          Demand.fault?_eq_some_iff] at hdemands
        obtain ⟨earlier, d, later, hdemands, hfails, hearlier⟩ := hdemands
        exact Or.inr ⟨f, .unmet hread hparse hdemands hearlier hfails⟩

section Start

variable {o : Options} {host : HostView} {file : String}

/-- A session with a configuration starts by loading it. -/
theorem start_eq (hconfig : o.config = some file) :
    start o host = Ini.load host ⟨file⟩ >>= fun ini => Monitor.ofSettings ini host o.roots := by
  rw [start, settings, hconfig]

/-- A configuration that can be read and parsed is what the monitor is built from. -/
theorem start_of_parse {text : String} {ini : Ini} (hconfig : o.config = some file)
    (hread : host.read ⟨file⟩ = .ok text) (hparse : Ini.parse text = .ok ini) :
    start o host = Monitor.ofSettings ini host o.roots := by
  have hload : Ini.load host ⟨file⟩ = .ok ini := by
    rw [Ini.load, hread]
    show (Ini.parse text).mapError _ = _
    rw [hparse]
    rfl
  rw [start_eq hconfig, hload]
  rfl

/-- With all demands met, the session starts. -/
theorem start_of_provides (hconfig : o.config = some file) {ini : Ini} (h : Provides host file ini) :
    ∃ m, Monitor.ofSettings ini host o.roots = .ok m ∧ start o host = .ok m := by
  obtain ⟨⟨text, hread, hparse⟩, hmeets⟩ := h
  have hnone : failure? (Monitor.ofSettings ini host o.roots) = none := by
    simp only [Monitor.failure?_ofSettings, List.findSome?_eq_none_iff, Demand.fault?_eq_none_iff]
    exact hmeets
  obtain ⟨m, hm⟩ := failure?_eq_none_iff.mp hnone
  exact ⟨m, hm, (start_of_parse hconfig hread hparse).trans hm⟩

/-- With an obstacle in its way, it does not, and the fault is that of the obstacle. -/
theorem start_of_obstacle (hconfig : o.config = some file) {f : Fault} (h : Obstacle host file f) :
    start o host = .error f := by
  cases h with
  | unreadable hread =>
    rw [start_eq hconfig, Ini.load, hread]
    rfl
  | malformed hread hparse =>
    rw [start_eq hconfig, Ini.load, hread]
    show (Ini.parse _).mapError _ >>= _ = _
    rw [hparse]
    rfl
  | unmet hread hparse hdemands hearlier hfails =>
    rw [start_of_parse hconfig hread hparse, ← failure?_eq_some_iff, Monitor.failure?_ofSettings]
    simp only [List.findSome?_eq_some_iff, Demand.fault?_eq_none_iff, Demand.fault?_eq_some_iff]
    exact ⟨_, _, _, hdemands, hfails, hearlier⟩

/-! ## Its end

A session that has started goes through its rounds, and nothing that the host does can stop it. -/

variable {args : List String}

/-- A session that starts ends well, after as many lines as the limit says. -/
theorem outcomeFrom_of_provides {n : UInt64} (hargs : Options.ofArgs args = .ok o)
    (hconfig : o.config = some file) (hlimit : o.iterations = some n) (hn : n ≠ 0) {ini : Ini}
    (hini : Provides host file ini) (moments : Nat → Moment) (interrupt : Nat) :
    ∃ (m : Monitor Builtin) (snapshots : List Snapshot),
      Monitor.ofSettings ini host o.roots = .ok m ∧ snapshots.length = n.toNat ∧
      (m.run ((List.range n.toNat).map moments)).2 = snapshots.map .ok ∧
      outcomeFrom args host moments interrupt =
        ⟨0, String.join (snapshots.map fun s => render o s ++ "\n"), none⟩ := by
  obtain ⟨m, hm, hstart⟩ := start_of_provides hconfig hini
  obtain ⟨snapshots, hlength, hrun, houtcome⟩ :=
    outcomeFrom_of_start hargs hlimit hstart moments interrupt
  rw [roundCount_of_ne_zero hn] at hlength hrun
  exact ⟨m, snapshots, hm, hlength, hrun, houtcome⟩

/-- A session that does not start reports why, and prints nothing. -/
theorem outcomeFrom_of_obstacle (hargs : Options.ofArgs args = .ok o) (hconfig : o.config = some file)
    {f : Fault} (hf : Obstacle host file f) (moments : Nat → Moment) (interrupt : Nat) :
    outcomeFrom args host moments interrupt = ⟨1, "", some (reportLine f)⟩ := by
  simp only [outcomeFrom, hargs, start_of_obstacle hconfig hf]

/-- The exit code tells whether the configuration is in order. -/
theorem exitCode_eq_zero_iff {n : UInt64} (hargs : Options.ofArgs args = .ok o)
    (hconfig : o.config = some file) (hlimit : o.iterations = some n) (hn : n ≠ 0)
    (moments : Nat → Moment) (interrupt : Nat) :
    (outcomeFrom args host moments interrupt).exitCode = 0 ↔ ∃ ini, Provides host file ini := by
  constructor
  · intro hexit
    refine (provides_or_obstacle host file).resolve_right fun ⟨f, hf⟩ => ?_
    rw [outcomeFrom_of_obstacle hargs hconfig hf] at hexit
    have hone : (1 : UInt8) ≠ 0 := by decide
    exact hone hexit
  · rintro ⟨ini, hini⟩
    obtain ⟨_, _, _, _, _, houtcome⟩ :=
      outcomeFrom_of_provides hargs hconfig hlimit hn hini moments interrupt
    rw [houtcome]

end Start

/-! ## The law

Both ends in one statement, over all plain command lines. -/

/-- **When a session succeeds.** Take the command line of a session with a configuration, a limit that is
not zero and roots of its own, started on any host and run through any moments.

* It succeeds exactly if the file provides a configuration. Then it reports nothing, and what it writes
  are the snapshots of as many rounds of one monitor as the limit says, in order, each on a line.
* Otherwise it writes nothing, and reports the first thing that kept it from its start.
* On a tree of files, the configuration can be read exactly if its bytes are those of a text. -/
theorem outcomeFrom_plain {file numeral : String} {n : UInt64} {roots : Roots} (json : Bool)
    (hfile : Options.IsValue file) (hne : file ≠ "") (hnumeral : Text.IsNumeral numeral.toList n.toNat)
    (hn : n ≠ 0) (hproc : Options.IsValue roots.proc) (hsys : Options.IsValue roots.sys)
    (host : HostView) (moments : Nat → Moment) (interrupt : Nat) :
    let left := outcomeFrom (Options.plain file numeral json roots) host moments interrupt
    (left.exitCode = 0 ↔ ∃ ini, Provides host file ini) ∧
    (∀ ini, Provides host file ini → ∃ (m : Monitor Builtin) (snapshots : List Snapshot),
      Monitor.ofSettings ini host roots = .ok m ∧ snapshots.length = n.toNat ∧
      (m.run ((List.range n.toNat).map moments)).2 = snapshots.map .ok ∧
      left =
        ⟨0, String.join (snapshots.map fun s => (if json then s.json else s.human) ++ "\n"), none⟩) ∧
    ((¬∃ ini, Provides host file ini) → ∃ f, Obstacle host file f) ∧
    (∀ f, Obstacle host file f → left = ⟨1, "", some ("sysmon: " ++ f.message)⟩) ∧
    (∀ tree : WorkTree, host = tree.view → ∀ text,
      host.read ⟨file⟩ = .ok text ↔ tree.Holds ⟨file⟩ text.toUTF8) := by
  intro left
  have hargs := Options.ofArgs_plain json hfile hne hnumeral hproc hsys
  refine ⟨exitCode_eq_zero_iff hargs rfl rfl hn moments interrupt, fun ini hini => ?_,
    (provides_or_obstacle host file).resolve_left, fun f hf => ?_, ?_⟩
  · exact outcomeFrom_of_provides hargs rfl rfl hn hini moments interrupt
  · exact outcomeFrom_of_obstacle hargs rfl hf moments interrupt
  · rintro tree rfl text
    exact WorkTree.read_eq_ok_iff

/-- The tree of the example has a configuration that meets all demands. -/
theorem provides_bareTree : ∃ ini, Provides bareTree.view "c.ini" ini := by
  obtain ⟨m, hm⟩ := start_bareTree 1
  refine (provides_or_obstacle bareTree.view "c.ini").resolve_right fun ⟨f, hf⟩ => ?_
  rw [start_of_obstacle rfl hf] at hm
  cases hm

/-- A tree whose configuration has a line that says nothing. -/
def brokenTree : WorkTree := WorkTree.empty.writeFile ⟨"c.ini"⟩ "[sysmon]\ninterval_ms\n".toUTF8

/-- With a configuration in order the session prints three lines; with a malformed one it reports the
line. -/
theorem outcomeFrom_plain_three :
    let roots : Roots := ⟨"proc", "sys"⟩
    let args := Options.plain "c.ini" "3" true roots
    Options.IsValue "c.ini" ∧ Options.IsValue roots.proc ∧ Options.IsValue roots.sys ∧
      Text.IsNumeral "3".toList (3 : UInt64).toNat ∧
      (∃ snapshots : List Snapshot, snapshots.length = 3 ∧
        outcomeFrom args bareTree.view bareMoments 1 =
          ⟨0, String.join (snapshots.map fun s => s.json ++ "\n"), none⟩) ∧
      outcomeFrom args brokenTree.view bareMoments 1 =
        ⟨1, "", some "sysmon: parse error: config line 2: expected key=value"⟩ := by
  intro roots args
  have hfile : Options.IsValue "c.ini" := by decide
  have hproc : Options.IsValue roots.proc := by decide
  have hsys : Options.IsValue roots.sys := by decide
  have hnumeral : Text.IsNumeral "3".toList (3 : UInt64).toNat := Text.uint64?_eq_some_iff.mp rfl
  refine ⟨hfile, hproc, hsys, hnumeral, ?_, ?_⟩
  · obtain ⟨_, hsucceeds, _⟩ := outcomeFrom_plain true hfile (by decide) hnumeral (by decide) hproc
      hsys bareTree.view bareMoments 1
    obtain ⟨ini, hini⟩ := provides_bareTree
    obtain ⟨_, snapshots, _, hlength, _, houtcome⟩ := hsucceeds ini hini
    exact ⟨snapshots, hlength, houtcome⟩
  · obtain ⟨_, _, _, hreports, _⟩ := outcomeFrom_plain true hfile (by decide) hnumeral (by decide) hproc
      hsys brokenTree.view bareMoments 1
    exact hreports _ (.malformed rfl rfl)

end Session

end HostMeter
