import HostMeter.Proofs.Path.Components
/-!
# Parents — the path above a path

The parent of a path is spelt from its segments, without the last one that counts. Its components are
those of the path without the last; the empty path and the root have no parent.

* `Path.dropIdleEnd_cases`: the segments up to the last one that counts.
* `Path.parent?_cases`: the parent of a path, told by components alone.
* `Path.Above`, `Path.above_iff_of_parent`: what is above a path is its parent or above that one.
* `Path.above_of_parent?`, `Path.Above.trans`: parents and the paths above them.
-/

namespace HostMeter.Path

/-! ## Segments at the end that do not count

Idle segments may follow the last component of a path. They are dropped before it is, and so are the idle
ones that then stand at the end. -/

/-- Idle segments at the end stand for nothing. -/
theorem laterComponents_dropIdleEnd (ss : List (List Char)) :
    laterComponents (dropIdleEnd ss) = laterComponents ss := by
  have hsplit : dropIdleEnd ss ++ (ss.reverse.takeWhile isIdle).reverse = ss := by
    rw [dropIdleEnd, ← List.reverse_append, List.takeWhile_append_dropWhile, List.reverse_reverse]
  have hidle : laterComponents (ss.reverse.takeWhile isIdle).reverse = [] :=
    laterComponents_of_idle fun s hs =>
      List.all_eq_true.mp List.all_takeWhile s (List.mem_reverse.mp hs)
  calc laterComponents (dropIdleEnd ss)
      = laterComponents (dropIdleEnd ss ++ (ss.reverse.takeWhile isIdle).reverse) := by
        rw [laterComponents_append, hidle, List.append_nil]
    _ = laterComponents ss := by rw [hsplit]

theorem mem_of_mem_dropIdleEnd {s : List Char} {ss : List (List Char)} (h : s ∈ dropIdleEnd ss) :
    s ∈ ss :=
  List.mem_reverse.mp ((List.dropWhile_suffix isIdle).mem (List.mem_reverse.mp h))

/-- Either no segment counts, or a last one does. -/
theorem dropIdleEnd_cases (ss : List (List Char)) :
    dropIdleEnd ss = [] ∧ laterComponents ss = [] ∨
      ∃ before last, dropIdleEnd ss = before ++ [last] ∧
        laterComponents ss = laterComponents before ++ [component last] := by
  cases hcounted : ss.reverse.dropWhile isIdle with
  | nil =>
    have hnil : dropIdleEnd ss = [] := by rw [dropIdleEnd, hcounted, List.reverse_nil]
    exact Or.inl ⟨hnil, by rw [← laterComponents_dropIdleEnd, hnil]; rfl⟩
  | cons last before =>
    have hlast : isIdle last = false := by
      have hhead := List.head?_dropWhile_not isIdle ss.reverse
      rwa [hcounted] at hhead
    have hcons : dropIdleEnd ss = before.reverse ++ [last] := by
      rw [dropIdleEnd, hcounted, List.reverse_cons]
    refine Or.inr ⟨before.reverse, last, hcons, ?_⟩
    rw [← laterComponents_dropIdleEnd, hcons, laterComponents_concat _ hlast]

/-! ## The parent

The parent is found in the text and is told in the components: it has all of them but the last. The root and
the empty path have no parent, and a path of one component that is not the root has the empty path. -/

/-- What the parent of a path is, if it has one. -/
inductive Parent (p : Path) : Option Path → Prop where
  | orphan (h : p.components = [] ∨ p.components = [.root]) : Parent p none
  | child {q} (hq : q.components = p.components.dropLast) (hne : p.components ≠ [])
      (hroot : p.components ≠ [.root]) : Parent p (some q)

/-- The path spelt by a nonempty first segment and later ones. -/
theorem components_ofSegments_cons {first : List Char} {kept : List (List Char)} (hne : first ≠ [])
    (h : ∀ s ∈ first :: kept, '/' ∉ s) :
    (ofSegments (first :: kept)).components = leading first :: laterComponents kept :=
  components_of_segments_cons (segments_ofSegments (List.cons_ne_nil _ _) h) hne

/-- The path spelt by an empty first segment and later ones starts at the root. -/
theorem components_ofSegments_nil {kept : List (List Char)} (hne : kept ≠ [])
    (h : ∀ s ∈ [] :: kept, '/' ∉ s) :
    (ofSegments ([] :: kept)).components = .root :: laterComponents kept :=
  components_of_segments_nil (segments_ofSegments (List.cons_ne_nil _ _) h) hne

variable {p : Path} {first : List Char} {rest before : List (List Char)} {last : List Char}

/-- Where no later segment counts, the parent is the empty path, or there is none. -/
theorem parent?_of_idle (h : p.segments = first :: rest) (hidle : dropIdleEnd rest = []) :
    p.parent? = if p.isRooted || first.isEmpty then none else some ⟨""⟩ := by
  rw [parent?, h]
  dsimp only
  rw [hidle]

/-- Where a later segment counts, the parent is spelt by what stands before it, idle segments at the end
apart. -/
theorem parent?_of_counted (h : p.segments = first :: rest)
    (hcounted : dropIdleEnd rest = before ++ [last]) :
    p.parent? = if (dropIdleEnd before).isEmpty && p.isRooted then some ⟨"/"⟩
      else some (ofSegments (first :: dropIdleEnd before)) := by
  rw [parent?, h]
  dsimp only
  rw [hcounted]
  split
  · next hnil => simp at hnil
  · rw [List.dropLast_concat]

theorem slash_not_mem_of_mem_kept (h : p.segments = first :: rest)
    (hcounted : dropIdleEnd rest = before ++ [last]) :
    ∀ s ∈ first :: dropIdleEnd before, '/' ∉ s := by
  intro s hs
  refine slash_not_mem_of_mem_segments (p := p) ?_
  rw [h]
  rcases List.mem_cons.mp hs with rfl | hs
  · exact List.mem_cons_self
  · have hmem : s ∈ before ++ [last] := List.mem_append_left _ (mem_of_mem_dropIdleEnd hs)
    exact List.mem_cons_of_mem _ (mem_of_mem_dropIdleEnd (hcounted ▸ hmem))

/-- Dropping the last of several components leads to the parent. -/
theorem Parent.child_of_concat {q : Path} {cs : List Component} {c : Component}
    (h : p.components = cs ++ [c]) (hcs : cs ≠ []) (hq : q.components = cs) : p.Parent (some q) := by
  refine .child (by rw [h, List.dropLast_concat, hq]) (by simp [h]) fun hroot => ?_
  rw [h, List.append_eq_singleton_iff] at hroot
  rcases hroot with ⟨hnil, _⟩ | ⟨_, hnil⟩
  · exact hcs hnil
  · cases hnil

/-- **The parent of a path has its components but the last**, and only paths of no component and the root
have no parent. -/
theorem parent?_cases (p : Path) : p.Parent p.parent? := by
  obtain ⟨start, rest, hstart⟩ := exists_start p
  have hcomponents := hstart.components_eq
  cases hstart with
  -- the empty path has no parent
  | empty h hr =>
    rw [parent?_of_idle h rfl, if_pos (by simp)]
    exact .orphan (Or.inl hcomponents)
  -- with the root in front, the root is the parent at the latest
  | rooted hne h hr =>
    rcases dropIdleEnd_cases rest with ⟨hidle, hlater⟩ | ⟨before, last, hcounted, hlater⟩
    · rw [parent?_of_idle h hidle, if_pos (by simp)]
      rw [hlater] at hcomponents
      exact .orphan (Or.inr hcomponents)
    · rw [hlater, ← List.append_assoc] at hcomponents
      rw [parent?_of_counted h hcounted]
      split
      · next hroot =>
        -- nothing counts before the last segment: the parent is the root itself
        have hkept : dropIdleEnd before = [] := by simpa [hr] using hroot
        refine .child_of_concat hcomponents (by simp) ?_
        rw [← laterComponents_dropIdleEnd, hkept]
        rfl
      · next hkept =>
        refine .child_of_concat hcomponents (by simp) ?_
        rw [components_ofSegments_nil (by simpa [hr] using hkept) (slash_not_mem_of_mem_kept h hcounted),
          laterComponents_dropIdleEnd]
        rfl
  -- with a segment of its own in front, the empty path is
  | relative hne h hr =>
    rcases dropIdleEnd_cases rest with ⟨hidle, hlater⟩ | ⟨before, last, hcounted, hlater⟩
    · rw [parent?_of_idle h hidle, if_neg (by simpa [hr] using hne)]
      rw [hlater] at hcomponents
      refine .child (by rw [hcomponents]; rfl) (by simp [hcomponents]) ?_
      intro hroot
      rw [hcomponents] at hroot
      exact leading_ne_root _ (List.cons.inj hroot).1
    · rw [hlater, ← List.append_assoc] at hcomponents
      rw [parent?_of_counted h hcounted, if_neg (by simp [hr])]
      refine .child_of_concat hcomponents (by simp) ?_
      rw [components_ofSegments_cons hne (slash_not_mem_of_mem_kept h hcounted),
        laterComponents_dropIdleEnd]
      rfl

/-- Spellings of one path have parents that are spellings of one path. -/
theorem parent?_congr {p q : Path} (h : p.Same q) :
    p.parent?.map components = q.parent?.map components := by
  have hsame : p.components = q.components := h
  have hp := p.parent?_cases
  have hq := q.parent?_cases
  revert hp hq
  generalize p.parent? = p', q.parent? = q'
  intro hp hq
  cases hp with
  | orphan hp =>
    cases hq with
    | orphan => rfl
    | child _ hne hroot =>
      rw [hsame] at hp
      exact absurd hp (not_or.mpr ⟨hne, hroot⟩)
  | child hp hne hroot =>
    cases hq with
    | orphan hq =>
      rw [← hsame] at hq
      exact absurd hq (not_or.mpr ⟨hne, hroot⟩)
    | child hq _ _ => rw [Option.map_some, Option.map_some, hp, hq, hsame]

/-! ## Above a path

A path is above another if its components are the first few of the other's. Going up step by step meets all
these paths, and the empty path at the end where the path is relative. -/

/-- Does the path name a place above another one's, the place of the empty path apart? -/
def Above (a p : Path) : Prop :=
  a.components ≠ [] ∧ a.components <+: p.components ∧ a.components ≠ p.components

instance : DecidableRel Above := fun a p =>
  inferInstanceAs (Decidable
    (a.components ≠ [] ∧ a.components <+: p.components ∧ a.components ≠ p.components))

/-- Nothing is above the root and the empty path. -/
theorem not_above_of_orphan {a p : Path} (h : p.components = [] ∨ p.components = [.root]) :
    ¬a.Above p := by
  rintro ⟨hne, hprefix, hproper⟩
  rcases h with h | h
  · rw [h, List.prefix_nil] at hprefix
    exact hne hprefix
  · rw [h] at hprefix hproper
    have hroot : a.components <+: [] ++ [.root] := hprefix
    rcases List.prefix_concat_iff.mp hroot with heq | hnil
    · exact hproper heq
    · exact hne (List.prefix_nil.mp hnil)

/-- What is above a path is its parent or above its parent. -/
theorem above_iff_of_parent {a p q : Path} (hq : q.components = p.components.dropLast)
    (hne : p.components ≠ []) :
    a.Above p ↔ a.components ≠ [] ∧ a.Same q ∨ a.Above q := by
  have hp : p.components = q.components ++ [p.components.getLast hne] := by
    rw [hq, List.dropLast_concat_getLast]
  have hlonger : q.components.length < p.components.length := by
    rw [hp, List.length_append, List.length_singleton]
    exact Nat.lt_succ_self _
  constructor
  · rintro ⟨hnil, hprefix, hproper⟩
    rw [hp] at hprefix hproper
    have hprefix := (List.prefix_concat_iff.mp hprefix).resolve_left hproper
    -- what is above the path is the parent itself or has fewer components
    by_cases hsame : a.components = q.components
    · exact Or.inl ⟨hnil, hsame⟩
    · exact Or.inr ⟨hnil, hprefix, hsame⟩
  · have hup : q.components <+: p.components := hq ▸ List.dropLast_prefix _
    rintro (⟨hnil, hsame⟩ | ⟨hnil, hprefix, hproper⟩)
    · have hsame : a.components = q.components := hsame
      exact ⟨hnil, hsame ▸ hup, fun heq => absurd (congrArg List.length (hsame.symm.trans heq)) (Nat.ne_of_lt hlonger)⟩
    · have hle := hprefix.length_le
      exact ⟨hnil, hprefix.trans hup, fun heq => absurd (congrArg List.length heq) (by omega)⟩

/-- A parent other than the empty path is above its path. -/
theorem above_of_parent? {p q : Path} (h : p.parent? = some q) (hne : q.text ≠ "") : q.Above p := by
  have hparent := p.parent?_cases
  rw [h] at hparent
  cases hparent with
  | child hq hp _ => exact (above_iff_of_parent hq hp).mpr (Or.inl ⟨mt components_eq_nil_iff.mp hne, .refl q⟩)

theorem Above.trans {a p q : Path} (h : a.Above p) (h' : p.Above q) : a.Above q := by
  refine ⟨h.1, h.2.1.trans h'.2.1, fun heq => h.2.2 ?_⟩
  exact h.2.1.eq_of_length_le (heq ▸ h'.2.1.length_le)

theorem Above.of_same {a p q : Path} (h : a.Above p) (hsame : p.Same q) : a.Above q := by
  have hcomponents : p.components = q.components := hsame
  rwa [Above, hcomponents] at h

end HostMeter.Path
