import HostMeter.CommandLine.Options
import HostMeter.Proofs.Settings.Numbers
/-!
# Arguments — a command line in its plain form

Options may be spelled in many ways. In the plain form each is an argument of its own, and its value the
argument after it. Reading such a command line goes through states in which an option waits for its
value, or for being taken over when the next one comes; what counts is what the state would settle to.

* `Options.IsValue`: the arguments that can stand for a value.
* `Options.Progress.HasRead`, `Options.Reads`: what has been read so far, and what some arguments add to
  it; `Options.reads_valued`, `Options.reads_json` for one option, `Options.Reads.append` for several.
* `Options.ofArgs_plain`: the options of a plain command line.
-/

namespace HostMeter

/-! ## Values

An argument that starts with a dash is an option, and can be no value, but for the dash alone. -/

namespace Options

/-- Can an argument stand for the value of the option before it? Any can that is no option: those that
do not start with a hyphen, and the hyphen alone. -/
def IsValue (arg : String) : Prop := arg = "-" ∨ arg.toList.head? ≠ some '-'

instance (arg : String) : Decidable (IsValue arg) := inferInstanceAs (Decidable (_ ∨ _))

/-- A numeral can stand for a value, since it starts with a digit or with a plus. -/
theorem isValue_of_isNumeral {arg : String} {n : Nat} (h : Text.IsNumeral arg.toList n) :
    IsValue arg := by
  refine Or.inr ?_
  obtain ⟨ds, hcs, hne, hdigits, _⟩ := h
  rcases hcs with hcs | hcs
  · rw [hcs]
    intro hhead
    have hhyphen : '-'.isDigit = true := hdigits '-' (List.mem_of_head? hhead)
    exact absurd hhyphen (by decide)
  · rw [hcs]
    simp

/-! ## Spellings

Of the ways to spell an option, the plain command line has one for each. -/

/-- The plain spelling of an option with a value. -/
def Valued.spelling : Valued → String
  | .config => "-c"
  | .iterations => "-n"
  | .procRoot => "--proc-path"
  | .sysRoot => "--sys-path"

/-! ## One step

Reading an argument leaves either nothing pending, or an option that waits for its value. A pending option
is put in place when the next argument is read, or at the end. -/

namespace Progress

variable {p : Progress} {o o' : Options} {given : List AnyOption} {v : Valued}

/-- What has been read so far, once the last option has got its value. -/
structure HasRead (p : Progress) (o : Options) (given : List AnyOption) : Prop where
  notClosed : p.closed = false
  settles : p.settle = .ok ⟨o, given, none, false⟩

theorem hasRead_start : HasRead .start .standard [] := ⟨rfl, rfl⟩

/-- The spelling of an option with a value is read as this option, without a value attached. -/
theorem read_spelling (hclosed : p.closed = false) (v : Valued) :
    p.read v.spelling = p.readValued v none := by
  cases v <;> (rw [read, hclosed]; rfl)

theorem read_json (hclosed : p.closed = false) : p.read "--json" = p.turnOn .json := by
  rw [read, hclosed]
  rfl

/-- An argument that can stand for a value is taken for one. -/
theorem read_value {arg : String} (hclosed : p.closed = false) (harg : IsValue arg) :
    p.read arg = p.readValue arg := by
  rw [read, hclosed, if_neg Bool.false_ne_true]
  rcases harg with rfl | hhead
  · rfl
  · cases harg : arg.toList with
    | nil => rfl
    | cons c cs =>
      rw [harg] at hhead
      have hc : c ≠ '-' := fun h => hhead (by rw [h]; rfl)
      split
      · next heq => exact absurd (List.cons.inj heq).1 hc
      · next heq => exact absurd (List.cons.inj heq).1 hc
      · next heq => exact absurd (List.cons.inj heq).1 hc
      · rfl

/-- An option is taken over with its value when what comes next asks for it. -/
theorem settle_pending {value : String} (hnew : given.contains (.inl v) = false)
    (hset : setValue o v value = .ok o') :
    settle ⟨o, given, some (v, some value), false⟩ = .ok ⟨o', .inl v :: given, none, false⟩ := by
  show assign ⟨o, given, none, false⟩ v value = _
  rw [assign, note, hnew, Bool.and_false, if_neg Bool.false_ne_true]
  show (setValue o v value >>= _) = _
  rw [hset]
  rfl

end Progress

/-! ## Some arguments

A piece of a command line is told by the options before and after it, so that pieces can be put together. -/

/-- What some arguments make of what has been read before them. -/
def Reads (args : List String) (o : Options) (given : List AnyOption) (o' : Options)
    (given' : List AnyOption) : Prop :=
  ∀ p : Progress, p.HasRead o given → ∃ q, args.foldlM Progress.read p = .ok q ∧ q.HasRead o' given'

section Reads

variable {o o' o'' : Options} {given given' given'' : List AnyOption} {args more : List String}

theorem Reads.nil : Reads [] o given o given := fun p hp => ⟨p, rfl, hp⟩

/-- Arguments are read one behind the other. -/
theorem Reads.append (h : Reads args o given o' given') (h' : Reads more o' given' o'' given'') :
    Reads (args ++ more) o given o'' given'' := by
  intro p hp
  obtain ⟨q, hq, hread⟩ := h p hp
  obtain ⟨r, hr, hread'⟩ := h' q hread
  refine ⟨r, ?_, hread'⟩
  rw [List.foldlM_append, hq]
  exact hr

/-- An option and its value set the option, if it was not given before. -/
theorem reads_valued (v : Valued) {value : String} (hvalue : IsValue value)
    (hnew : given.contains (.inl v) = false) (hset : setValue o v value = .ok o') :
    Reads [v.spelling, value] o given o' (.inl v :: given) := by
  intro p hp
  have hoption : p.read v.spelling = .ok ⟨o, given, some (v, none), false⟩ := by
    rw [Progress.read_spelling hp.notClosed, Progress.readValued, hp.settles]
    rfl
  have hargument : Progress.read ⟨o, given, some (v, none), false⟩ value =
      .ok ⟨o, given, some (v, some value), false⟩ := by
    rw [Progress.read_value rfl hvalue]
    rfl
  refine ⟨⟨o, given, some (v, some value), false⟩, ?_, rfl, Progress.settle_pending hnew hset⟩
  rw [List.foldlM_cons, hoption]
  show ([value].foldlM Progress.read _ : Except EarlyStop Progress) = _
  rw [List.foldlM_cons, hargument]
  rfl

/-- The switch turns the other rendering on, if it was not given before. -/
theorem reads_json (hnew : given.contains (.inr .json) = false) :
    Reads ["--json"] o given { o with json := true } (.inr .json :: given) := by
  intro p hp
  refine ⟨⟨{ o with json := true }, .inr .json :: given, none, false⟩, ?_, rfl, rfl⟩
  rw [List.foldlM_cons, Progress.read_json hp.notClosed, Progress.turnOn, hp.settles]
  show (Progress.note ⟨o, given, none, false⟩ (.inr .json) >>= _) >>= _ = _
  rw [Progress.note, hnew, Bool.and_false, if_neg Bool.false_ne_true]
  rfl

/-- What all arguments make of nothing is what the command line says. -/
theorem ofArgs_of_reads (h : Reads args .standard [] o given) : ofArgs args = .ok o := by
  obtain ⟨p, hp, hread⟩ := h .start Progress.hasRead_start
  rw [ofArgs, hp]
  show (p.settle >>= _) = _
  rw [hread.settles]
  rfl

end Reads

/-! ## A whole command line

The command line of the sessions that the other modules speak of. -/

/-- The plain command line of a session with a configuration and a limit. -/
def plain (file numeral : String) (json : Bool) (roots : Roots) : List String :=
  ["-c", file] ++ ["-n", numeral] ++ (if json then ["--json"] else []) ++
    ["--proc-path", roots.proc] ++ ["--sys-path", roots.sys]

/-- **What a plain command line says.** The five pieces are read in turn; none of them was given before. -/
theorem ofArgs_plain {file numeral : String} {n : UInt64} {roots : Roots} (json : Bool)
    (hfile : IsValue file) (hne : file ≠ "") (hnumeral : Text.IsNumeral numeral.toList n.toNat)
    (hproc : IsValue roots.proc) (hsys : IsValue roots.sys) :
    ofArgs (plain file numeral json roots) = .ok ⟨some file, some n, json, roots, 0, false⟩ := by
  have hconfig : setValue .standard .config file = .ok { standard with config := some file } :=
    if_neg fun hempty => hne (String.isEmpty_iff.mp hempty)
  have hlimit : setValue { standard with config := some file } .iterations numeral =
      .ok ⟨some file, some n, false, .standard, 0, false⟩ := by
    rw [setValue, Text.uint64?_eq_some_iff.mpr hnumeral]
    rfl
  have hread : Reads (["-c", file] ++ ["-n", numeral]) .standard []
      ⟨some file, some n, false, .standard, 0, false⟩ [.inl .iterations, .inl .config] :=
    .append (reads_valued .config hfile rfl hconfig)
      (reads_valued .iterations (isValue_of_isNumeral hnumeral) rfl hlimit)
  cases json with
  -- without the switch, the roots follow the limit
  | false =>
    exact ofArgs_of_reads (((hread.append .nil).append
      (reads_valued .procRoot hproc rfl rfl)).append (reads_valued .sysRoot hsys rfl rfl))
  -- with it, the switch stands between them
  | true =>
    exact ofArgs_of_reads (((hread.append (reads_json rfl)).append
      (reads_valued .procRoot hproc rfl rfl)).append (reads_valued .sysRoot hsys rfl rfl))

end Options

end HostMeter
