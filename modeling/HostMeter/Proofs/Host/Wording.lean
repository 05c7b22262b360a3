import HostMeter.Host.Memory
import HostMeter.Host.WorkTree
import HostMeter.Proofs.Monitor.Start
import HostMeter.Proofs.Snapshot.OneLine
/-!
# Wording — faults of a host in one line

A host words its faults itself, and whoever asks it repeats the wording. The hosts of the library quote
the path that they were asked for or do not mention it, so that no path can bring a line feed with it.

* `HostView.Worded`: a host that words its faults in one line.
* `MemoryHost.worded_view`, `WorkTree.worded_view`: the hosts of the library do.
-/

namespace HostMeter

/-- A host that words its faults in one line. -/
structure HostView.Worded (host : HostView) : Prop where
  read : ∀ {p f}, host.read p = .error f → OneLine f.message
  usage : ∀ {p f}, host.usage p = .error f → OneLine f.message

/-- A host in memory quotes the path, and quoting leaves no line feed in it. -/
theorem MemoryHost.worded_view (h : MemoryHost) : h.view.Worded where
  read {p f} hf := by
    cases hfile : h.files.get? p with
    | some content => simp [view, hfile] at hf
    | none =>
      obtain rfl : HostFault.noStoredFile p.text = f := by simpa [view, hfile] using hf
      exact OneLine.append (by decide) (oneLine_quoted p.text)
  usage {p f} hf := by
    cases hmount : h.mounts.get? p with
    | some usage => simp [view, hmount] at hf
    | none =>
      obtain rfl : HostFault.noStoredMount p.text = f := by simpa [view, hmount] using hf
      exact OneLine.append (by decide) (oneLine_quoted p.text)

namespace WorkTree

variable {t : WorkTree} {p : Path} {f : HostFault}

/-- A step down a tree fails in one of three ways, none of which mentions the segment. -/
theorem fault_of_step {spot : Spot} {segment : List Char} (h : t.step spot segment = .error f) :
    f = .noEntry ∨ f = .notADirectory ∨ f = .nameTooLong := by
  cases spot with
  -- above the tree, only steps on the spot and steps back are known to lead anywhere
  | above =>
    simp only [step] at h
    split at h
    · cases h
    · split at h
      · exact Or.inr (Or.inr (Except.error.inj h).symm)
      · exact Or.inl (Except.error.inj h).symm
  | inside place node =>
    cases node with
    -- nothing is below a file
    | file content => exact Or.inr (Or.inl (Except.error.inj h).symm)
    -- in a directory a segment may be a step on the spot, a step back or the name of an entry
    | directory =>
      simp only [step] at h
      split at h
      · cases h
      · split at h
        · split at h <;> cases h
        · split at h
          · exact Or.inr (Or.inr (Except.error.inj h).symm)
          · split at h
            · cases h
            · exact Or.inl (Except.error.inj h).symm

/-- A walk down a tree fails as one of its steps does. -/
theorem oneLine_of_walk {spot : Spot} {segments : List (List Char)}
    (h : segments.foldlM t.step spot = .error f) : OneLine f.message := by
  induction segments generalizing spot with
  | nil => cases h
  | cons segment segments ih =>
    rw [List.foldlM_cons] at h
    rcases error_of_bind h with hstep | ⟨next, _, hrest⟩
    · rcases fault_of_step hstep with rfl | rfl | rfl <;> decide
    · exact ih hrest

theorem oneLine_of_find (h : t.find p = .error f) : OneLine f.message := by
  rw [find] at h
  split at h
  · cases h
    decide
  · split at h
    · cases h
      decide
    · exact oneLine_of_walk h

/-- A tree of files words its faults without the path. -/
theorem worded_view (t : WorkTree) : t.view.Worded where
  read {p f} hf := by
    have hread : t.read p = .error f := hf
    rw [WorkTree.read] at hread
    split at hread
    · cases hread
      decide
    · rcases error_of_bind hread with hfind | ⟨spot, _, hrest⟩
      · exact oneLine_of_find hfind
      · repeat' split at hrest
        all_goals first | (cases hrest; decide) | cases hrest
  usage {p f} hf := by
    have husage : t.usage p = .error f := hf
    rw [WorkTree.usage] at husage
    split at husage
    · cases husage
      exact OneLine.append (by decide) (oneLine_ofNat _)
    · rcases error_of_bind husage with hfind | ⟨spot, _, hrest⟩
      · exact oneLine_of_find hfind
      · cases hrest

end WorkTree

end HostMeter
