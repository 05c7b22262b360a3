import HostMeter.Proofs.Monitor.Start
import HostMeter.Proofs.Probe.Sampling
/-!
# Runs of one probe — what its samples make of it

A probe by itself is asked for its metrics on one occasion after the other. What such a run leaves in
the probe are the samples of the refreshes that succeeded, recorded one by one; occasions on which the
last sample is repeated, and refreshes that fail, leave nothing.

* `Occasion`, `Sampler.answer`, `Sampler.after`: a run of one probe; `neighbours`: the pairs of
  neighbours among its samples.
* `Recorder`: the kinds of probes that read a sample and record it; `Recorder.samples`: the samples of
  a run.
* `Recorder.Outcome`, `Recorder.outcome`: what an occasion can come to.
* `Recorder.after_eq_foldl`: a run is told by its samples; `Recorder.fault_answer_iff`,
  `Sampler.toList_answer`: when the probe answers with metrics, and which ones they are.
-/

namespace HostMeter

/-- What a probe is handed when it is asked for its metrics. -/
structure Occasion where
  now : UInt64
  due : Bool
  host : HostView
  builder : Builder

/-- A host that has the given text in every file. -/
def HostView.telling (text : String) : HostView := { HostView.wired with read := fun _ => .ok text }

namespace Sampler

variable {σ : Type} [Sampler σ]

def answer (p : σ) (o : Occasion) : Polled σ := poll p o.now o.due o.host o.builder

/-- The probe after some occasions. -/
def after (p : σ) (os : List Occasion) : σ := os.foldl (fun p o => (answer p o).probe) p

/-- After one more occasion a probe is what its answer makes of it. -/
theorem after_concat (p : σ) (os : List Occasion) (o : Occasion) :
    after p (os ++ [o]) = (answer (after p os) o).probe := by
  rw [after, List.foldl_append]
  rfl

/-- A probe that answers with metrics answers with those of the sample that it then has. -/
theorem toList_answer [LawfulSampler σ] {p : σ} {o : Occasion} (h : (answer p o).fault = none) :
    (answer p o).builder.items.toList =
      o.builder.items.toList ++ metrics (answer p o).probe := by
  rw [answer, poll] at h ⊢
  split
  · next hasks =>
    rw [if_pos hasks] at h
    cases hr : refresh p o.now o.host with
    | ok q =>
      show (emit q o.builder).builder.items.toList = _ ++ metrics (emit q o.builder).probe
      rw [toList_emit, emit_eq]
    | error f =>
      rw [hr] at h
      cases h
  · rw [toList_emit, emit_eq]

/-- A probe that meets a fault leaves the builder as it was. -/
theorem builder_answer [LawfulSampler σ] {p : σ} {o : Occasion} (h : (answer p o).fault ≠ none) :
    (answer p o).builder = o.builder := by
  rw [answer, poll] at h ⊢
  split
  · next hasks =>
    rw [if_pos hasks] at h
    cases hr : refresh p o.now o.host with
    | ok q =>
      rw [hr] at h
      exact absurd (congrArg Polled.fault (emit_eq q o.builder)) h
    | error f => rfl
  · next hasks =>
    rw [if_neg hasks] at h
    exact absurd (congrArg Polled.fault (emit_eq p o.builder)) h

end Sampler

/-! ## Neighbours

What a probe shows of two samples, it shows of neighbours. -/

/-- The pairs of neighbours in a list. -/
def neighbours {α : Type} (xs : List α) : List (α × α) := xs.zip xs.tail

/-- One more element makes one more pair. -/
theorem neighbours_concat {α : Type} (xs : List α) (x y : α) :
    neighbours (xs ++ [x, y]) = neighbours (xs ++ [x]) ++ [(x, y)] := by
  induction xs with
  | nil => rfl
  | cons a xs ih =>
    cases xs with
    | nil => rfl
    | cons b xs => exact congrArg ((a, b) :: ·) ih

/-! ## Recording

Of the five kinds, two make something of more than one sample. What is said of their runs does not depend on
what they make of it: a probe reads, and it records what it reads. -/

/-- A kind of probe that reads a sample from its host and records it. The samples before do not change
what is read. -/
class Recorder (σ : Type) (α : outParam Type) [Sampler σ] where
  read (p : σ) (now : UInt64) (host : HostView) : Except Fault α
  record (p : σ) (s : α) : σ
  refresh_eq (p : σ) (now : UInt64) (host : HostView) :
    Sampler.refresh p now host = record p <$> read p now host
  read_record (p : σ) (s : α) : read (record p s) = read p
  sampled_record (p : σ) (s : α) : Sampler.sampled (record p s) = true

instance : Recorder CpuProbe TickSample where
  read p _ host := (fun stat => TickSample.ofTimes stat.aggregate) <$> CpuProbe.readStat host p.source
  record := CpuProbe.record
  refresh_eq p _ host := by
    show p.refresh host = _
    rw [CpuProbe.refresh]
    cases CpuProbe.readStat host p.source <;> rfl
  read_record p s := by
    have hsource : (p.record s).source = p.source := rfl
    rw [hsource]
  sampled_record _ _ := rfl

instance : Recorder NetworkProbe TrafficSample where
  read := NetworkProbe.readCounters
  record := NetworkProbe.record
  refresh_eq p now host := by
    show p.refresh now host = _
    rw [NetworkProbe.refresh]
    cases p.readCounters now host <;> rfl
  read_record p s := by
    funext now host
    have hsource : (p.record s).source = p.source := rfl
    have hinterface : (p.record s).interface = p.interface := rfl
    rw [NetworkProbe.readCounters, NetworkProbe.readCounters, hsource, hinterface]
  sampled_record _ _ := rfl

namespace Recorder

open Sampler

variable {σ α : Type} [Sampler σ] [Recorder σ α]

/-- The sample that a probe takes on an occasion: one is asked for if it is due or there is none yet, and
taken if it can be read. -/
def sample? (p : σ) (o : Occasion) : Option α :=
  if o.due || !sampled p then (read p o.now o.host).toOption else none

/-- The samples that a probe takes on some occasions. -/
def samples (p : σ) : List Occasion → List α
  | [] => []
  | o :: os => (sample? p o).toList ++ samples (answer p o).probe os

/-- The samples of two stretches of a run, one behind the other. -/
theorem samples_append (p : σ) (os later : List Occasion) :
    samples p (os ++ later) = samples p os ++ samples (after p os) later := by
  induction os generalizing p with
  | nil => rfl
  | cons o os ih =>
    show (sample? p o).toList ++ samples (answer p o).probe (os ++ later) = _
    rw [ih, ← List.append_assoc]
    rfl

theorem samples_concat (p : σ) (os : List Occasion) (o : Occasion) :
    samples p (os ++ [o]) = samples p os ++ (sample? (after p os) o).toList := by
  rw [samples_append, samples, samples, List.append_nil]

/-! ## One occasion

An occasion asks for a sample or does not, and the source can be read or cannot. -/

/-- What an occasion can come to: the last sample is repeated, a new one is taken, or none could be
read. -/
inductive Outcome (p : σ) (o : Occasion) : Prop where
  | cached (hdue : o.due = false) (hsampled : sampled p = true) (hsample : sample? p o = none)
      (hanswer : answer p o = emit p o.builder)
  | fresh (s : α) (hsample : sample? p o = some s) (hanswer : answer p o = emit (record p s) o.builder)
  | failed (f : Fault) (hasks : (o.due || !sampled p) = true) (hsample : sample? p o = none)
      (hanswer : answer p o = ⟨p, o.builder, some f⟩)

/-- **There are three ways for an occasion to go.** -/
theorem outcome (p : σ) (o : Occasion) : Outcome p o := by
  cases hasks : o.due || !sampled p with
  -- nothing is asked, and the last sample is repeated
  | false =>
    obtain ⟨hdue, hsampled⟩ := Bool.or_eq_false_iff.mp hasks
    rw [Bool.not_eq_false'] at hsampled
    refine .cached hdue hsampled (by rw [sample?, hasks]; rfl) ?_
    rw [answer, hdue, poll_of_not_due hsampled]
  | true =>
    have hrefresh := refresh_eq p o.now o.host
    cases hread : read p o.now o.host with
    -- a sample is read and recorded
    | ok s =>
      rw [hread] at hrefresh
      exact .fresh s (by rw [sample?, hasks, hread]; rfl) (poll_of_refresh_ok hasks hrefresh)
    -- the source cannot be read
    | error f =>
      rw [hread] at hrefresh
      exact .failed f hasks (by rw [sample?, hasks, hread]; rfl) (poll_of_refresh_error hasks hrefresh)

section Lawful

variable [LawfulSampler σ]

/-- A probe records the sample of an occasion, or stays as it was. -/
theorem probe_answer (p : σ) (o : Occasion) :
    (answer p o).probe = (sample? p o).toList.foldl record p := by
  cases outcome p o with
  | cached _ _ hsample hanswer =>
    rw [hanswer, hsample, emit_eq]
    rfl
  | fresh s hsample hanswer =>
    rw [hanswer, hsample, emit_eq]
    rfl
  | failed f _ hsample hanswer =>
    rw [hanswer, hsample]
    rfl

/-! ## Runs

What a run makes of a probe is the recording of its samples, in their order. Occasions without a sample
leave no trace. -/

/-- **A run is told by its samples.** -/
theorem after_eq_foldl (p : σ) (os : List Occasion) :
    after p os = (samples p os).foldl record p := by
  induction os generalizing p with
  | nil => rfl
  | cons o os ih =>
    show after (answer p o).probe os = _
    rw [ih, probe_answer, samples, List.foldl_append, probe_answer]

/-- A run does not change what a probe reads. -/
theorem read_after (p : σ) (os : List Occasion) : read (after p os) = read p := by
  rw [after_eq_foldl]
  generalize samples p os = ss
  induction ss generalizing p with
  | nil => rfl
  | cons s ss ih => exact (ih (record p s)).trans (read_record p s)

/-- A probe that starts without a sample has one exactly if it has taken one. -/
theorem sampled_after_iff {p : σ} (hp : sampled p = false) (os : List Occasion) :
    sampled (after p os) = true ↔ samples p os ≠ [] := by
  rw [after_eq_foldl]
  rcases List.eq_nil_or_concat (samples p os) with hnil | ⟨ss, s, hconcat⟩
  · rw [hnil]
    simp [hp]
  · rw [hconcat, List.concat_eq_append, List.foldl_append]
    simp [sampled_record]

/-- A sample is taken if a refresh is due or none was taken before, and if there is something to read. -/
theorem sample?_after_eq_some_iff {p : σ} (hp : sampled p = false) (os : List Occasion) (o : Occasion)
    {s : α} :
    sample? (after p os) o = some s ↔
      (o.due = true ∨ samples p os = []) ∧ read p o.now o.host = .ok s := by
  have hasks : (o.due || !sampled (after p os)) = true ↔ o.due = true ∨ samples p os = [] := by
    rw [Bool.or_eq_true, Bool.not_eq_true', ← Bool.not_eq_true, sampled_after_iff hp,
      Classical.not_not]
  rw [sample?, ← hasks, read_after]
  cases o.due || !sampled (after p os) with
  | false => simp
  | true =>
    rw [if_pos rfl, toOption_eq_some_iff, and_iff_right rfl]

/-- **When a probe answers with its metrics**: it repeats its last sample, or takes a new one. -/
theorem fault_answer_iff {p : σ} (hp : sampled p = false) (os : List Occasion) (o : Occasion) :
    (answer (after p os) o).fault = none ↔
      o.due = false ∧ samples p os ≠ [] ∨ ∃ s, sample? (after p os) o = some s := by
  rw [← sampled_after_iff hp]
  cases outcome (after p os) o with
  -- no refresh was due, and the sample is from before
  | cached hdue hsampled _ hanswer =>
    rw [hanswer, emit_eq]
    exact iff_of_true rfl (Or.inl ⟨hdue, hsampled⟩)
  -- the sample is from this occasion
  | fresh s hsample hanswer =>
    rw [hanswer, emit_eq]
    exact iff_of_true rfl (Or.inr ⟨s, hsample⟩)
  -- there is neither
  | failed f hasks hsample hanswer =>
    rw [hanswer, hsample]
    refine iff_of_false nofun ?_
    rintro (⟨hdue, hsampled⟩ | ⟨s, hs⟩)
    · rw [hdue, hsampled] at hasks
      cases hasks
    · cases hs

end Lawful

end Recorder

end HostMeter
