import HostMeter.Host.Shared
import HostMeter.Proofs.Host.Respelling
/-!
# Copies — one host in memory behind many handles

All copies of a host in memory share its store. Whatever copies are taken and whichever of them the
changes go through, each handle shows the host after all the changes, in their order. So a host in memory
is a map from what paths name to contents and amounts, whoever writes and however paths are spelt.

* `HostBank.changes`: the changes among some steps.
* `HostBank.get?_run_eq_some_iff`: each handle shows the host after all the changes.
* `HostBank.answers_of_run`: the answers through any handle.
-/

namespace HostMeter.HostBank

/-- What a step changes on the one host: a copy changes nothing. -/
def change? : Step → Option MemoryHost.Change
  | .copy _ => none
  | .change _ c => some c

/-- The changes among the steps, whichever handles they went through. -/
def changes (steps : List Step) : List MemoryHost.Change := steps.filterMap change?

/-- All handles refer to one host. -/
structure Shares (b : HostBank) (h : MemoryHost) : Prop where
  values_eq : b.values = #[h]
  shown_eq : ∀ i ∈ b.shown, i = 0

variable {b : HostBank} {h : MemoryHost}

/-- Whatever number a handle has, it refers to the first host, and so does one that was never handed out. -/
theorem Shares.getD_shown (hb : b.Shares h) (handle : Nat) : b.shown.getD handle 0 = 0 := by
  rw [Array.getD_eq_getD_getElem?]
  cases hi : b.shown[handle]? with
  | none => rfl
  | some i => exact hb.shown_eq i (Array.mem_of_getElem? hi)

/-- A copy adds a handle to the same host, and a change through any handle changes that host. -/
theorem Shares.step (hb : b.Shares h) (s : Step) :
    (b.step s).Shares (((change? s).map h.apply).getD h) := by
  cases s with
  | copy handle =>
    refine ⟨hb.values_eq, fun i hi => ?_⟩
    rcases Array.mem_push.mp hi with hi | rfl
    · exact hb.shown_eq i hi
    · exact hb.getD_shown handle
  | change handle c =>
    refine ⟨?_, hb.shown_eq⟩
    rw [HostBank.step, Bank.modify, hb.getD_shown, hb.values_eq]
    rfl

/-- After any steps the handles share the host that has seen all the changes. -/
theorem Shares.run (hb : b.Shares h) (steps : List Step) :
    (b.run steps).Shares (h.applyAll (changes steps)) := by
  induction steps generalizing b h with
  | nil => exact hb
  | cons s steps ih =>
    have hlater := ih (hb.step s)
    -- a copy leaves the host as it is and is none of the changes
    cases s with
    | copy handle => exact hlater
    | change handle c => exact hlater

theorem shares_single (h : MemoryHost) : (single h).Shares h :=
  ⟨rfl, fun i hi => by simpa [single, Bank.add, Bank.empty] using hi⟩

/-- **Each handle shows the host after all the changes.** -/
theorem get?_run_eq_some_iff {steps : List Step} {handle : Nat} {h' : MemoryHost} :
    ((single h).run steps).get? handle = some h' ↔
      handle < ((single h).run steps).shown.size ∧ h' = h.applyAll (changes steps) := by
  have hb := (shares_single h).run steps
  rw [Bank.get?, Option.bind_eq_some_iff]
  constructor
  · rintro ⟨i, hi, hvalue⟩
    obtain ⟨hlt, _⟩ := Array.getElem?_eq_some_iff.mp hi
    rw [hb.shown_eq i (Array.mem_of_getElem? hi), hb.values_eq] at hvalue
    exact ⟨hlt, (Option.some.inj hvalue).symm⟩
  · rintro ⟨hlt, rfl⟩
    refine ⟨_, Array.getElem?_eq_getElem hlt, ?_⟩
    rw [hb.shown_eq _ (Array.getElem_mem hlt), hb.values_eq]
    rfl

open MemoryHost in
/-- **A host in memory is a map from what paths name.** Through any copy of it, after changes through any
copies: a file is read with the content that the last change about its path gave it, and a mount is as the
last change about it has left it; else they are not found. A path is there if there is such a file, if a
directory or a mount was made at it, or if it is above a path at which a file or a directory was. Respelling
the paths of the changes and of the queries changes nothing but the spelling of the answers. -/
theorem answers_of_run {steps steps' : List Step} {handle handle' : Nat} {h h' : MemoryHost}
    (hh : ((single empty).run steps).get? handle = some h)
    (hh' : ((single empty).run steps').get? handle' = some h') :
    (∀ p content, h.view.read p = .ok content ↔ Stored (changes steps) p content) ∧
    (∀ p f, h.view.read p = .error f ↔
      (∀ content, ¬Stored (changes steps) p content) ∧ f = .noStoredFile p.text) ∧
    (∀ p usage, h.view.usage p = .ok usage ↔ Mounted (changes steps) p usage) ∧
    (∀ p f, h.view.usage p = .error f ↔
      (∀ usage, ¬Mounted (changes steps) p usage) ∧ f = .noStoredMount p.text) ∧
    (∀ p, h.view.has p = true ↔
      (∃ content, Stored (changes steps) p content) ∨ ∃ c ∈ changes steps, c.Makes p) ∧
    (List.Forall₂ Change.Respelt (changes steps) (changes steps') →
      ∀ p p', p.Respelt p' → h.view.AnswersAlike h'.view p p') := by
  obtain rfl := (get?_run_eq_some_iff.mp hh).2
  obtain rfl := (get?_run_eq_some_iff.mp hh').2
  refine ⟨fun p content => read_eq_ok_iff, fun p f => read_eq_error_iff, fun p usage => usage_eq_ok_iff,
    fun p f => usage_eq_error_iff, fun p => has_iff, fun hcs p p' hp => ?_⟩
  exact (Alike.refl_empty.applyAll hcs).answers hp.same

open MemoryHost in
/-- Three handles of one host, and a second history in other spellings through a single handle. -/
theorem answers_of_run_three :
    let usage : Usage := ⟨9, 5, 4⟩
    let steps : List Step :=
      [.copy 0, .change 1 (.addFile ⟨"/a//b/./c"⟩ "x"), .change 0 (.addFile ⟨"/a/b/d"⟩ "y"), .copy 1,
        .change 2 (.removeFile ⟨"/a/b/d/"⟩), .change 1 (.setMount ⟨"m/."⟩ usage)]
    let steps' : List Step :=
      [.change 0 (.addFile ⟨"/a/b/c"⟩ "x"), .change 0 (.addFile ⟨"//a/b/d"⟩ "y"),
        .change 0 (.removeFile ⟨"/a/b/d"⟩), .change 0 (.setMount ⟨"m"⟩ usage)]
    ∃ h h', ((single empty).run steps).get? 2 = some h ∧ ((single empty).run steps').get? 0 = some h' ∧
      h.view.read ⟨"/a/b/c"⟩ = .ok "x" ∧ h.view.read ⟨"/a/b/d"⟩ = .error (.noStoredFile "/a/b/d") ∧
      h.view.usage ⟨"m"⟩ = .ok usage ∧ h.view.has ⟨"/a/"⟩ = true ∧
      h.view.AnswersAlike h'.view ⟨"/a/b"⟩ ⟨"/a/./b/."⟩ := by
  intro usage steps steps'
  have hh : ((single empty).run steps).get? 2 = some _ := rfl
  have hh' : ((single empty).run steps').get? 0 = some _ := rfl
  obtain ⟨hread, _, husage, _, hhas, halike⟩ := answers_of_run hh hh'
  refine ⟨_, _, hh, hh', ?_, ?_, ?_, ?_, ?_⟩
  · exact (hread _ _).mpr ⟨[], _, (changes steps).drop 1, rfl, by decide, by decide⟩
  · rfl
  · exact (husage _ _).mpr ⟨(changes steps).take 3, _, [], rfl, by decide, by decide⟩
  · exact (hhas _).mpr (Or.inr ⟨_, List.mem_cons_self, by decide⟩)
  · refine halike ?_ _ _ (Path.same_iff_respelt.mp (by decide))
    exact .cons (.addFile (Path.same_iff_respelt.mp (by decide)) _)
      (.cons (.addFile (Path.same_iff_respelt.mp (by decide)) _)
        (.cons (.removeFile (Path.same_iff_respelt.mp (by decide)))
          (.cons (.setMount (Path.same_iff_respelt.mp (by decide)) _) .nil)))

end HostMeter.HostBank
