import HostMeter.Proofs.Probe.Runs
import Mathlib.Data.List.Induction
/-!
# Readings — the last one of a run

What a probe shows comes from its last reading. Which one that is can be told from the occasions alone: on
some of them the source could be read, on some a refresh was due, and nothing else about the run matters.

* `IsLastReading`: the last reading of some occasions, told without the probe.
* `Recorder.samples_eq_nil_iff`, `Recorder.exists_isLastReading`: the samples of a run are its readings.
* `Recorder.answers_iff`, `Recorder.exists_of_answers`: when a probe answers, and from which reading.
* `Recorder.answer_of_reading`, `Recorder.answer_of_no_reading`: what a refresh comes to.
-/

namespace HostMeter

/-! ## The last reading

Two facts about the occasions decide it: where the source was to be read, and where it could be. Neither is
a fact about the state of a probe. -/

section LastReading

variable {α β : Type}

/-- Is the source to be read on an occasion after some others? A refresh is due, or on none of the others
there was anything to read. -/
def Asked (reading : Occasion → Option α) (earlier : List Occasion) (o : Occasion) : Prop :=
  o.due = true ∨ ∀ e ∈ earlier, reading e = none

/-- The last reading of some occasions: on this one the source was to be read and could be, and whenever a
refresh was due later, it could not. -/
inductive IsLastReading (reading : Occasion → Option α) : List Occasion → Occasion → α → Prop where
  | intro (earlier later : List Occasion) {o : Occasion} {a : α} (hread : reading o = some a)
      (hasked : Asked reading earlier o) (hlater : ∀ l ∈ later, l.due = true → reading l = none) :
      IsLastReading reading (earlier ++ o :: later) o a

variable {reading : Occasion → Option α} {os : List Occasion} {o : Occasion} {a : α}

theorem Asked.map (h : Asked reading os o) {f : Occasion → α → β} :
    Asked (fun o => (reading o).map (f o)) os o := by
  simpa only [Asked, Option.map_eq_none_iff] using h

theorem IsLastReading.reading_eq (h : IsLastReading reading os o a) : reading o = some a := by
  cases h with
  | intro _ _ hread _ _ => exact hread

theorem IsLastReading.last (hread : reading o = some a) (hasked : Asked reading os o) :
    IsLastReading reading (os ++ [o]) o a :=
  .intro os [] hread hasked (List.forall_mem_nil _)

/-- An occasion on which nothing is due, or nothing can be read, leaves the last reading as it is. -/
theorem IsLastReading.concat (h : IsLastReading reading os o a) {l : Occasion}
    (hl : l.due = true → reading l = none) : IsLastReading reading (os ++ [l]) o a := by
  cases h with
  | intro earlier later hread hasked hlater =>
    rw [List.append_assoc, List.cons_append]
    refine .intro earlier (later ++ [l]) hread hasked fun x hx => ?_
    rcases List.mem_append.mp hx with hx | hx
    · exact hlater x hx
    · rw [List.mem_singleton.mp hx]
      exact hl

/-- After a reading the source is asked only if a refresh is due. -/
theorem Asked.due_of_mem (h : Asked reading os o) {e : Occasion} (he : e ∈ os) (hread : reading e = some a) :
    o.due = true := by
  rcases h with hdue | hnone
  · exact hdue
  · rw [hnone e he] at hread
    cases hread

/-- A later reading is one of a refresh that is due, so the one before it is not the last. -/
theorem not_later {earlier between later : List Occasion} {o' : Occasion} {a' : α} (hread : reading o = some a)
    (hlater : ∀ l ∈ between ++ o' :: later, l.due = true → reading l = none)
    (hasked' : Asked reading (earlier ++ o :: between) o') : reading o' ≠ some a' := by
  have hdue := hasked'.due_of_mem (List.mem_append_right earlier List.mem_cons_self) hread
  rw [hlater o' (List.mem_append_right between List.mem_cons_self) hdue]
  exact (Option.some_ne_none a').symm

/-- There is but one last reading. -/
theorem IsLastReading.unique {o' : Occasion} {a' : α} (h : IsLastReading reading os o a)
    (h' : IsLastReading reading os o' a') : o = o' ∧ a = a' := by
  obtain ⟨earlier, later, hread, hasked, hlater⟩ := h
  generalize hos : earlier ++ o :: later = os at h'
  obtain ⟨earlier', later', hread', hasked', hlater'⟩ := h'
  -- one of the two stands before the other, or they are the same
  rcases List.append_eq_append_iff.mp hos with ⟨between, rfl, hrest⟩ | ⟨between, rfl, hrest⟩
  · cases between with
    -- the same occasion, and so the same reading
    | nil =>
      obtain rfl : o = o' := (List.cons.inj hrest).1
      exact ⟨rfl, Option.some.inj (hread.symm.trans hread')⟩
    -- the second stands behind the first, which then is not the last
    | cons x between =>
      obtain ⟨rfl, rfl⟩ := List.cons.inj hrest
      exact absurd hread' (not_later hread hlater hasked')
  · cases between with
    | nil =>
      obtain rfl : o' = o := (List.cons.inj hrest).1
      exact ⟨rfl, Option.some.inj (hread.symm.trans hread')⟩
    -- the other way round
    | cons x between =>
      obtain ⟨rfl, rfl⟩ := List.cons.inj hrest
      exact absurd hread (not_later hread' hlater' hasked)

/-- What is made of each reading does not change which one is the last. -/
theorem IsLastReading.exists_of_map {f : Occasion → α → β} {b : β}
    (h : IsLastReading (fun o => (reading o).map (f o)) os o b) :
    ∃ a, IsLastReading reading os o a ∧ b = f o a := by
  cases h with
  | intro earlier later hread hasked hlater =>
    simp only [Asked, Option.map_eq_none_iff, Option.map_eq_some_iff] at hread hasked hlater
    obtain ⟨a, ha, rfl⟩ := hread
    exact ⟨a, .intro earlier later ha hasked hlater, rfl⟩

end LastReading

/-! ## The samples of a run

A probe asks again as long as it has no sample. So the samples are the readings of those occasions on which
one was due, and of the first on which there was any. -/

namespace Recorder

open Sampler

variable {σ α : Type} [Sampler σ] [Recorder σ α]

/-- What a probe would read on an occasion. -/
def reading (p : σ) (o : Occasion) : Option α := (read p o.now o.host).toOption

theorem reading_eq_some_iff {p : σ} {o : Occasion} {s : α} :
    reading p o = some s ↔ read p o.now o.host = .ok s := toOption_eq_some_iff

variable [LawfulSampler σ] {p : σ}

/-- A probe has taken no sample as long as there was nothing to read. -/
theorem samples_eq_nil_iff (hp : sampled p = false) (os : List Occasion) :
    samples p os = [] ↔ ∀ o ∈ os, reading p o = none := by
  induction os using List.reverseRecOn with
  | nil => simp [samples]
  | append_singleton os o ih =>
    rw [samples_concat, List.append_eq_nil_iff, List.forall_mem_append, List.forall_mem_singleton, ← ih]
    refine and_congr_right fun hnone => ?_
    -- without a sample the probe asks in any case
    rw [Option.toList_eq_nil_iff, Option.eq_none_iff_forall_ne_some, Option.eq_none_iff_forall_ne_some]
    simp [sample?_after_eq_some_iff hp, reading_eq_some_iff, hnone]

/-- A sample is taken where the source is to be read and can be. -/
theorem sample?_after_iff_asked (hp : sampled p = false) {os : List Occasion} {o : Occasion} {s : α} :
    sample? (after p os) o = some s ↔ Asked (reading p) os o ∧ reading p o = some s := by
  rw [sample?_after_eq_some_iff hp, samples_eq_nil_iff hp, reading_eq_some_iff, Asked]

/-- The last sample of a run is its last reading. -/
theorem exists_isLastReading (hp : sampled p = false) {os : List Occasion} {s : α}
    (h : (samples p os).getLast? = some s) : ∃ o, IsLastReading (reading p) os o s := by
  induction os using List.reverseRecOn with
  | nil => cases h
  | append_singleton os o ih =>
    rw [samples_concat] at h
    cases hsample : sample? (after p os) o with
    -- the occasion has a sample, and its reading is the last
    | some s' =>
      rw [hsample, Option.toList_some, List.getLast?_concat] at h
      obtain ⟨hasked, hread⟩ := (sample?_after_iff_asked hp).mp hsample
      cases h
      exact ⟨o, .last hread hasked⟩
    -- the occasion has none, so it leaves the last reading as it is
    | none =>
      rw [hsample, Option.toList_none, List.append_nil] at h
      obtain ⟨o', ho'⟩ := ih h
      refine ⟨o', ho'.concat fun hdue => ?_⟩
      cases hread : reading p o with
      | none => rfl
      | some s' =>
        rw [(sample?_after_iff_asked hp).mpr ⟨Or.inl hdue, hread⟩] at hsample
        cases hsample

/-! ## Answers

What is known of the readings of a run carries over to what the probe answers. -/

/-- **When a probe answers with its metrics**: the source can be read, or it could be read before and no
refresh is due. -/
theorem answers_iff (hp : sampled p = false) (os : List Occasion) (o : Occasion) :
    (answer (after p os) o).fault = none ↔
      reading p o ≠ none ∨ o.due = false ∧ ∃ e ∈ os, reading p e ≠ none := by
  have hbefore : samples p os ≠ [] ↔ ∃ e ∈ os, reading p e ≠ none := by
    rw [Ne, samples_eq_nil_iff hp]
    simp
  rw [fault_answer_iff hp, hbefore]
  constructor
  · rintro (hcached | ⟨s, hs⟩)
    · exact Or.inr hcached
    · obtain ⟨_, hread⟩ := (sample?_after_iff_asked hp).mp hs
      exact Or.inl (by rw [hread]; exact Option.some_ne_none s)
  · rintro (hread | hcached)
    · obtain ⟨s, hs⟩ := Option.ne_none_iff_exists'.mp hread
      -- it can be read now: then it is read, or there was a reading before
      by_cases hasked : Asked (reading p) os o
      · exact Or.inr ⟨s, (sample?_after_iff_asked hp).mpr ⟨hasked, hs⟩⟩
      · obtain ⟨hdue, hsome⟩ := not_or.mp hasked
        exact Or.inl ⟨Bool.eq_false_iff.mpr hdue, by simpa using hsome⟩
    · exact Or.inl hcached

/-- **A probe that answers shows its last reading**, recorded behind some earlier ones. -/
theorem exists_of_answers (hp : sampled p = false) {os : List Occasion} {o : Occasion}
    (h : (answer (after p os) o).fault = none) :
    ∃ o' s earlier, IsLastReading (reading p) (os ++ [o]) o' s ∧
      (answer (after p os) o).builder.items.toList =
        o.builder.items.toList ++ metrics (record (List.foldl record p earlier) s) := by
  have hne : samples p (os ++ [o]) ≠ [] := by
    rw [Ne, samples_eq_nil_iff hp]
    rcases (answers_iff hp os o).mp h with hread | ⟨_, e, he, hread⟩
    · exact fun hnone => hread (hnone o (List.mem_append_right os List.mem_cons_self))
    · exact fun hnone => hread (hnone e (List.mem_append_left [o] he))
  obtain ⟨s, hs⟩ := Option.ne_none_iff_exists'.mp (mt List.getLast?_eq_none_iff.mp hne)
  obtain ⟨o', ho'⟩ := exists_isLastReading hp hs
  obtain ⟨earlier, hsamples⟩ := List.getLast?_eq_some_iff.mp hs
  have hafter : after p (os ++ [o]) = record (List.foldl record p earlier) s := by
    rw [after_eq_foldl, hsamples, List.foldl_append]
    rfl
  refine ⟨o', s, earlier, ho', ?_⟩
  rw [toList_answer h, ← after_concat, hafter]

/-- Where the source is to be read, the probe asks. -/
theorem asks_of_asked (hp : sampled p = false) {os : List Occasion} {o : Occasion}
    (hasked : Asked (reading p) os o) : (o.due || !sampled (after p os)) = true := by
  rw [Bool.or_eq_true, Bool.not_eq_true', ← Bool.not_eq_true, sampled_after_iff hp, Classical.not_not,
    samples_eq_nil_iff hp]
  exact hasked

/-- **A refresh that can read answers from what it reads.** -/
theorem answer_of_reading (hp : sampled p = false) {os : List Occasion} {o : Occasion}
    (hasked : Asked (reading p) os o) {s : α} (hread : reading p o = some s) :
    answer (after p os) o = emit (record (after p os) s) o.builder := by
  refine poll_of_refresh_ok (asks_of_asked hp hasked) ?_
  rw [refresh_eq, read_after, reading_eq_some_iff.mp hread]
  rfl

/-- **A refresh that cannot read fails for that reason**, and leaves probe and builder as they were. -/
theorem answer_of_no_reading (hp : sampled p = false) {os : List Occasion} {o : Occasion}
    (hasked : Asked (reading p) os o) {f : Fault} (hread : read p o.now o.host = .error f) :
    answer (after p os) o = ⟨after p os, o.builder, some f⟩ := by
  refine poll_of_refresh_error (asks_of_asked hp hasked) ?_
  rw [refresh_eq, read_after, hread]
  rfl

/-- A probe that keeps nothing but its last sample shows what it makes of its last reading. -/
theorem exists_metrics_of_answers (hforget : ∀ (q : σ) (s s' : α), record (record q s) s' = record q s')
    (hp : sampled p = false) {os : List Occasion} {o : Occasion}
    (h : (answer (after p os) o).fault = none) :
    ∃ o' s, IsLastReading (reading p) (os ++ [o]) o' s ∧
      (answer (after p os) o).builder.items.toList =
        o.builder.items.toList ++ metrics (record p s) := by
  obtain ⟨o', s, earlier, ho', hitems⟩ := exists_of_answers hp h
  have hkept : ∀ (ss : List α) (q : σ), record (ss.foldl record q) s = record q s := by
    intro ss
    induction ss with
    | nil => exact fun q => rfl
    | cons s' ss ih => exact fun q => (ih (record q s')).trans (hforget q s' s)
  rw [hkept] at hitems
  exact ⟨o', s, ho', hitems⟩

end Recorder

end HostMeter
