import HostMeter.Proofs.Probe.Readings
import Mathlib.Algebra.Group.Nat.Defs
/-!
# Amounts — the parts of a total add up

A probe of memory keeps the total of its creation and takes the free part from later files, which may say
anything; a probe of storage takes all from one answer of the host. In either case the used part is a
difference, and it is the exact one: what is subtracted is never more than the total.

* `RamProbe.create_eq_ok_iff`, `StorageProbe.path_of_create`: what a probe starts from.
* `RamSample.toNat_freeBytes`: the free part of a total.
* `RamProbe.Shows`, `StorageProbe.Shows`: the metrics for a total and what was read last.
* `bytes_of_run`: the law.
-/

namespace HostMeter

/-! ## Memory

The total is settled once. What is read later is told against it, in words that do not wrap around. -/

/-- An amount of kibibytes in bytes, or the largest word. -/
theorem toNat_satMul_kibibyte (kibibytes : UInt64) :
    (Word.satMul kibibytes bytesPerKibibyte).toNat = min (1024 * kibibytes.toNat) (2 ^ 64 - 1) := by
  rw [Word.toNat_satMul, Nat.mul_comm]
  rfl

namespace RamSample

/-- The free part, told on unbounded numbers: the amount in bytes or the largest word, and nothing if that
is more than the total. -/
theorem toNat_freeBytes (total : UInt64) (info : MemInfo) :
    (freeBytes total info).toNat =
      if min (1024 * (freeKibibytes info).toNat) (2 ^ 64 - 1) ≤ total.toNat then
        min (1024 * (freeKibibytes info).toNat) (2 ^ 64 - 1)
      else 0 := by
  rw [← toNat_satMul_kibibyte, freeBytes]
  simp only [UInt64.lt_iff_toNat_lt]
  split
  · next h => rw [if_neg (Nat.not_le.mpr h)]; rfl
  · next h => rw [if_pos (Nat.not_lt.mp h)]

/-- The used and the free part are the total, over unbounded numbers. -/
theorem toNat_used_add_free (total : UInt64) (info : MemInfo) :
    (ofInfo total info).used.toNat + (ofInfo total info).free.toNat = total.toNat := by
  have hle := freeBytes_le total info
  show (total - freeBytes total info).toNat + (freeBytes total info).toNat = total.toNat
  rw [UInt64.toNat_sub_of_le _ _ hle]
  exact Nat.sub_add_cancel (UInt64.le_iff_toNat_le.mp hle)

end RamSample

namespace RamProbe

instance : Recorder RamProbe RamSample where
  read p _ host :=
    (fun text => RamSample.ofInfo p.total (MemInfo.parse text)) <$> readSource host p.source
  record p s := { p with last := some s }
  refresh_eq p _ host := by
    show p.refresh host = _
    rw [refresh]
    cases readSource host p.source <;> rfl
  read_record _ _ := rfl
  sampled_record _ _ := rfl

/-- A probe of memory reads its file, and what the file says is told against its total. -/
theorem reading_eq (p : RamProbe) :
    Recorder.reading p = fun o =>
      (o.host.read p.source).toOption.map fun text => RamSample.ofInfo p.total (MemInfo.parse text) := by
  funext o
  show ((fun text => RamSample.ofInfo p.total (MemInfo.parse text)) <$>
    readSource o.host p.source).toOption = _
  rw [readSource_eq]
  cases o.host.read p.source <;> rfl

/-- What a probe of memory shows of its total and of the file that it read last: the free part is the
available amount, or the free one if the file does not say what is available, in bytes or the largest word,
and nothing if this is more than the total. -/
inductive Shows (total : UInt64) (info : MemInfo) : List Metric → Prop where
  | intro (used free : UInt64) (share : Binary64) (kibibytes bytes : Nat)
      (hkibibytes : kibibytes = if 0 < info.available then info.available.toNat else info.free.toNat)
      (hbytes : bytes = min (1024 * kibibytes) (2 ^ 64 - 1))
      (hfree : free.toNat = if bytes ≤ total.toNat then bytes else 0)
      (hsum : used.toNat + free.toNat = total.toNat) :
      Shows total info
        [⟨"ram.total_bytes", some "B", .uint64 total⟩,
         ⟨"ram.used_bytes", some "B", .uint64 used⟩,
         ⟨"ram.free_bytes", some "B", .uint64 free⟩,
         ⟨"ram.used_percent", some "%", .double share⟩]

/-- The metrics of a sample add up. There is a share, since the total is not zero. -/
theorem shows_metricsOf {total : UInt64} (h : 0 < total) (info : MemInfo) :
    Shows total info (metricsOf total (RamSample.ofInfo total info)) := by
  rw [metricsOf, if_pos h]
  exact .intro _ _ _ _ _ (apply_ite UInt64.toNat _ _ _) rfl (RamSample.toNat_freeBytes total info)
    (RamSample.toNat_used_add_free total info)

/-- **When a probe of memory can be created, and which total it keeps.** -/
theorem create_eq_ok_iff {c : Context} {p : RamProbe} :
    create c = .ok p ↔ ∃ text, c.host.read (c.procPath "meminfo") = .ok text ∧
      (MemInfo.parse text).total ≠ 0 ∧
      p = ⟨c.procPath "meminfo", Word.satMul (MemInfo.parse text).total bytesPerKibibyte, none⟩ := by
  rw [create, readSource_eq]
  cases c.host.read (c.procPath "meminfo") with
  | error cause =>
    constructor
    · intro h
      cases h
    · rintro ⟨text, htext, _⟩
      cases htext
  | ok text =>
    simp only [bind, Except.bind, Except.mapError, Except.ok.injEq, exists_eq_left']
    split
    · next h => simp [h, throw, throwThe, MonadExceptOf.throw]
    · next h => simp [h, pure, Except.pure, eq_comm]

end RamProbe

/-! ## Storage

The amounts are those of the last answer, total and all. -/

namespace StorageProbe

instance : Recorder StorageProbe Usage where
  read p _ host := (host.usage p.path).mapError fun cause => .io (failure p.path) cause
  record p u := { p with last := some u }
  refresh_eq p _ host := by
    show p.refresh host = _
    rw [refresh]
    cases host.usage p.path <;> rfl
  read_record _ _ := rfl
  sampled_record _ _ := rfl

/-- A probe of storage reads the usage of its path. -/
theorem reading_eq (p : StorageProbe) :
    Recorder.reading p = fun o => (o.host.usage p.path).toOption := by
  funext o
  show ((o.host.usage p.path).mapError fun cause => Fault.io (failure p.path) cause).toOption = _
  cases o.host.usage p.path <;> rfl

/-- The path that a probe keeps: the one that is set, and otherwise the root of all paths. -/
theorem path_of_create {c : Context} {p : StorageProbe} (h : create c = .ok p) :
    (∀ path, c.Sets "path" path → p.path = ⟨path⟩) ∧
      ((∀ path, ¬c.Sets "path" path) → p.path = ⟨"/"⟩) := by
  rw [eq_of_create h]
  constructor
  · intro path hpath
    rw [Context.option?_eq_some_iff.mpr hpath]
    rfl
  · intro hnone
    rw [Context.option?_eq_none_iff.mpr hnone]
    rfl

/-- What a probe of storage shows of the answer that it got last. -/
inductive Shows (path : Path) (u : Usage) : List Metric → Prop where
  | intro (used : UInt64) (share : Binary64)
      (hsum : used.toNat + min u.free.toNat u.total.toNat = u.total.toNat) :
      Shows path u
        [⟨"storage.path", none, .text path.text⟩,
         ⟨"storage.total_bytes", some "B", .uint64 u.total⟩,
         ⟨"storage.used_bytes", some "B", .uint64 used⟩,
         ⟨"storage.free_bytes", some "B", .uint64 u.free⟩,
         ⟨"storage.available_bytes", some "B", .uint64 u.available⟩,
         ⟨"storage.used_percent", some "%", .double share⟩]

/-- The used part, and the free part or the total if that is less, are the total. -/
theorem toNat_used_add_min (u : Usage) :
    u.used.toNat + min u.free.toNat u.total.toNat = u.total.toNat := by
  rw [Usage.used, Word.toNat_satSub]
  omega

/-- The metrics of a usage add up. -/
theorem shows_metricsOf (path : Path) (u : Usage) : Shows path u (metricsOf path u) :=
  .intro _ _ (toNat_used_add_min u)

end StorageProbe

/-! ## Runs

Both kinds keep nothing but their last sample, so what they show comes from their last reading. -/

section Runs

variable {os : List Occasion} {o : Occasion}

/-- A probe of memory that answers shows the amounts of its last reading. -/
theorem RamProbe.shows_of_answers {p : RamProbe} (hp : Sampler.sampled p = false) (htotal : 0 < p.total)
    (h : (Sampler.answer (Sampler.after p os) o).fault = none) :
    ∃ o' text added, IsLastReading (fun o => (o.host.read p.source).toOption) (os ++ [o]) o' text ∧
      (Sampler.answer (Sampler.after p os) o).builder.items.toList = o.builder.items.toList ++ added ∧
      Shows p.total (MemInfo.parse text) added := by
  obtain ⟨o', s, hlast, hitems⟩ := Recorder.exists_metrics_of_answers (fun _ _ _ => rfl) hp h
  rw [reading_eq] at hlast
  obtain ⟨text, htext, rfl⟩ := hlast.exists_of_map
  exact ⟨o', text, _, htext, hitems, shows_metricsOf htotal (MemInfo.parse text)⟩

/-- A probe of storage that answers shows the amounts of its last reading. -/
theorem StorageProbe.shows_of_answers {p : StorageProbe} (hp : Sampler.sampled p = false)
    (h : (Sampler.answer (Sampler.after p os) o).fault = none) :
    ∃ o' u added, IsLastReading (fun o => (o.host.usage p.path).toOption) (os ++ [o]) o' u ∧
      (Sampler.answer (Sampler.after p os) o).builder.items.toList = o.builder.items.toList ++ added ∧
      Shows p.path u added := by
  obtain ⟨o', u, hlast, hitems⟩ := Recorder.exists_metrics_of_answers (fun _ _ _ => rfl) hp h
  rw [reading_eq] at hlast
  exact ⟨o', u, _, hlast, hitems, shows_metricsOf p.path u⟩

end Runs

/-- **The law of the amounts.** Take a probe of memory that has just been created, and ask it on any
occasions, the last of which is `o`.

* Whatever its files say later, the total that it shows is that of its creation, in bytes or the largest
  word, and is not zero.
* It shows the amounts of the last file that it read. Its used part and its free part are the total
  together, and never is more subtracted from the total than there is.

A probe of storage shows the total, the free and the available space of the last answer to its query, for
the path that is set or for the root; its used part, and the free part up to the total, are the total. -/
theorem bytes_of_run :
    (∀ {c : Context} {p : RamProbe}, RamProbe.create c = .ok p →
      ∃ start total, c.host.read (c.procPath "meminfo") = .ok start ∧
        total.toNat = min (1024 * (MemInfo.parse start).total.toNat) (2 ^ 64 - 1) ∧ 0 < total.toNat ∧
        (∀ info, RamSample.freeBytes total info ≤ total) ∧
        ∀ (os : List Occasion) (o : Occasion),
          let file := fun o : Occasion => (o.host.read (c.procPath "meminfo")).toOption
          let answer := Sampler.answer (Sampler.after p os) o
          (answer.fault = none ↔ file o ≠ none ∨ o.due = false ∧ ∃ e ∈ os, file e ≠ none) ∧
          (answer.fault = none → ∃ o' text added, IsLastReading file (os ++ [o]) o' text ∧
            answer.builder.items.toList = o.builder.items.toList ++ added ∧
            RamProbe.Shows total (MemInfo.parse text) added)) ∧
    (∀ {c : Context} {p : StorageProbe}, StorageProbe.create c = .ok p →
      (∀ path, c.Sets "path" path → p.path = ⟨path⟩) ∧
      ((∀ path, ¬c.Sets "path" path) → p.path = ⟨"/"⟩) ∧
      ∀ (os : List Occasion) (o : Occasion),
        let usage := fun o : Occasion => (o.host.usage p.path).toOption
        let answer := Sampler.answer (Sampler.after p os) o
        (answer.fault = none ↔ usage o ≠ none ∨ o.due = false ∧ ∃ e ∈ os, usage e ≠ none) ∧
        (answer.fault = none → ∃ o' u added, IsLastReading usage (os ++ [o]) o' u ∧
          answer.builder.items.toList = o.builder.items.toList ++ added ∧
          StorageProbe.Shows p.path u added)) := by
  constructor
  · -- memory
    intro c p hp
    have htotal := RamProbe.total_pos_of_create hp
    obtain ⟨start, hstart, _, rfl⟩ := RamProbe.create_eq_ok_iff.mp hp
    refine ⟨start, _, hstart, toNat_satMul_kibibyte _, UInt64.lt_iff_toNat_lt.mp htotal,
      RamSample.freeBytes_le _, fun os o => ⟨?_, RamProbe.shows_of_answers rfl htotal⟩⟩
    · rw [Recorder.answers_iff rfl, RamProbe.reading_eq]
      simp only [Ne, Option.map_eq_none_iff]
  · -- storage
    intro c p hp
    obtain ⟨hset, hunset⟩ := StorageProbe.path_of_create hp
    have hsampled : Sampler.sampled p = false := by
      rw [StorageProbe.eq_of_create hp]
      rfl
    refine ⟨hset, hunset, fun os o => ⟨?_, StorageProbe.shows_of_answers hsampled⟩⟩
    rw [Recorder.answers_iff hsampled, StorageProbe.reading_eq]

/-- The total of the example is cut at the largest word. -/
theorem RamProbe.create_telling :
    create ⟨"ram", .empty, .telling "MemTotal: 18014398509481984 kB", .standard⟩ =
      .ok ⟨⟨"/proc/meminfo"⟩, 18446744073709551615, none⟩ := rfl

/-- A host whose file system claims more free space than it has. -/
def HostView.overfree : HostView := { HostView.wired with usage := fun _ => .ok ⟨100, 150, 90⟩ }

/-- The path of the example is configured. -/
theorem StorageProbe.create_overfree :
    create ⟨"storage", ⟨[⟨"module.storage", "path", "/data"⟩]⟩, .overfree, .standard⟩ =
      .ok ⟨⟨"/data"⟩, none⟩ := rfl

/-- The total of memory is one more than a word can tell in bytes. The last file that can be read claims
even more memory, free but not available, and a smaller total: all of the first total is free. And all of
a file system is free that claims more free space than it has. -/
theorem bytes_of_run_capped :
    let p : RamProbe := ⟨⟨"/proc/meminfo"⟩, 18446744073709551615, none⟩
    let claim := "MemTotal: 1 kB\nMemFree: 18446744073709551615 kB"
    let os : List Occasion :=
      [⟨0, true, .telling "MemAvailable: 7 kB", .empty⟩, ⟨1000, true, .telling claim, .empty⟩]
    let o : Occasion := ⟨1500, false, .failing .noEntry, .empty⟩
    let q : StorageProbe := ⟨⟨"/data"⟩, none⟩
    let o' : Occasion := ⟨0, true, .overfree, .empty⟩
    RamProbe.create ⟨"ram", .empty, .telling "MemTotal: 18014398509481984 kB", .standard⟩ = .ok p ∧
      (∃ used share, (Sampler.answer (Sampler.after p os) o).builder.items.toList =
        [⟨"ram.total_bytes", some "B", .uint64 18446744073709551615⟩,
         ⟨"ram.used_bytes", some "B", .uint64 used⟩,
         ⟨"ram.free_bytes", some "B", .uint64 18446744073709551615⟩,
         ⟨"ram.used_percent", some "%", .double share⟩] ∧ used.toNat = 0) ∧
      StorageProbe.create ⟨"storage", ⟨[⟨"module.storage", "path", "/data"⟩]⟩, .overfree, .standard⟩ = .ok q ∧
      ∃ used share, (Sampler.answer (Sampler.after q []) o').builder.items.toList =
        [⟨"storage.path", none, .text "/data"⟩,
         ⟨"storage.total_bytes", some "B", .uint64 100⟩,
         ⟨"storage.used_bytes", some "B", .uint64 used⟩,
         ⟨"storage.free_bytes", some "B", .uint64 150⟩,
         ⟨"storage.available_bytes", some "B", .uint64 90⟩,
         ⟨"storage.used_percent", some "%", .double share⟩] ∧ used.toNat = 0 := by
  intro p claim os o q o'
  refine ⟨RamProbe.create_telling, ?_, StorageProbe.create_overfree, ?_⟩
  · obtain ⟨start, total, hstart, htotal, _, _, hrun⟩ := bytes_of_run.1 RamProbe.create_telling
    obtain ⟨hanswers, hshown⟩ := hrun os o
    obtain ⟨_, text, added, hlast, hitems, hshows⟩ :=
      hshown (hanswers.mpr (Or.inr ⟨rfl, _, List.mem_cons_self, Option.some_ne_none _⟩))
    -- the first refresh is made up for by the second, and nothing is due after that
    obtain ⟨_, htext⟩ := hlast.unique
      (.intro [⟨0, true, .telling "MemAvailable: 7 kB", .empty⟩] [o] (o := ⟨1000, true, .telling claim, .empty⟩)
        (a := claim) rfl (Or.inl rfl) (by simp [o]))
    have hinfo : MemInfo.parse claim = ⟨1, 18446744073709551615, 0⟩ := by
      show MemInfo.parse "MemTotal: 1 kB\nMemFree: 18446744073709551615 kB" = _
      decide +kernel
    have hcapped : total = 18446744073709551615 := by
      obtain rfl : "MemTotal: 18014398509481984 kB" = start := Except.ok.inj hstart
      exact UInt64.toNat_inj.mp htotal
    rw [htext, hinfo, hcapped] at hshows
    obtain ⟨used, free, share, kibibytes, bytes, rfl, rfl, hfree, hsum⟩ := hshows
    have hall : free = 18446744073709551615 := UInt64.toNat_inj.mp (hfree.trans (by decide))
    rw [hall] at hitems hsum
    exact ⟨used, share, hitems, by simpa using hsum⟩
  · obtain ⟨_, _, hrun⟩ := bytes_of_run.2 StorageProbe.create_overfree
    obtain ⟨hanswers, hshown⟩ := hrun [] o'
    obtain ⟨_, u, added, hlast, hitems, hshows⟩ := hshown (hanswers.mpr (Or.inl (Option.some_ne_none _)))
    obtain ⟨_, rfl⟩ := hlast.unique (.last (a := ⟨100, 150, 90⟩) rfl (Or.inl rfl))
    obtain ⟨used, share, hsum⟩ := hshows
    exact ⟨used, share, hitems, by simpa using hsum⟩

end HostMeter
