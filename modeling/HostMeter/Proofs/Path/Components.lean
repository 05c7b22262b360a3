import HostMeter.Path
import HostMeter.Proofs.Text.Lines
/-!
# Components — what the segments of a path name

The components of a path are read off its segments: what the first segment stands for, and then each later
one that counts. The first segment is empty for a rooted path and for the empty one only, so a path is
empty, rooted or relative, and its components follow from that.

* `Path.segments_append`: a slash between two texts parts their segments.
* `Path.segments_ofSegments`: segments with slashes between them are the segments of their path.
* `Path.Start`, `Path.Start.components_eq`: the three kinds of paths, and their components.
* `Path.getLast?_components_append`: a name behind a slash is the last component;
  `Path.components_join`: a name below a path.
* `Path.components_eq_nil_iff`, `Path.length_components_le`: which paths name nothing, and a bound.
-/

namespace HostMeter.Path

/-! ## Segments

A text is parted at its slashes. Segments and texts without a slash in front determine each other, apart
from the case of no segment at all, which no text has. -/

theorem segments_ne_nil (p : Path) : p.segments ≠ [] := List.splitOnP_ne_nil _ _

/-- A slash between two texts parts their segments. -/
theorem segments_append (a b : String) :
    (Path.mk (a ++ "/" ++ b)).segments = (Path.mk a).segments ++ (Path.mk b).segments := by
  have htext : (a ++ "/" ++ b).toList = a.toList ++ '/' :: b.toList := by simp
  rw [segments, htext]
  exact List.splitOnP_append_cons _ _ (beq_self_eq_true '/')

theorem segments_of_forall {w : String} (h : '/' ∉ w.toList) : (Path.mk w).segments = [w.toList] :=
  Text.pieces_of_not_mem h

theorem slash_not_mem_of_mem_segments {p : Path} {s : List Char} (h : s ∈ p.segments) : '/' ∉ s :=
  Text.not_mem_of_mem_pieces h

/-- A path is spelt by its segments with slashes between them. -/
theorem ofSegments_segments (p : Path) : ofSegments p.segments = p := by
  have hjoin : ['/'].intercalate (p.text.toList.splitOn '/') = p.text.toList :=
    List.intercalate_splitOn '/'
  show Path.mk (String.ofList (['/'].intercalate (p.text.toList.splitOn '/'))) = p
  rw [hjoin, String.ofList_toList]

/-- Only the empty path has nothing but an empty segment. -/
theorem segments_eq_singleton_iff {p : Path} : p.segments = [[]] ↔ p.text = "" := by
  constructor
  · intro h
    rw [← ofSegments_segments p, h]
    rfl
  · intro h
    rw [segments, h]
    rfl

/-- Segments without slashes are those of the path they spell. -/
theorem segments_ofSegments {ss : List (List Char)} (hne : ss ≠ []) (h : ∀ s ∈ ss, '/' ∉ s) :
    (ofSegments ss).segments = ss := by
  rw [segments, ofSegments, String.toList_ofList]
  exact List.splitOn_intercalate '/' h hne

/-! ## Three kinds of paths

Only the first segment is read in a way of its own: it may be empty because the path is, or because it
starts with a slash, and a dot counts there. The cases below are the ones in which all proofs about
components go. -/

/-- What the first segment of a relative path stands for. -/
def leading (first : List Char) : Component := if first = ['.'] then .here else component first

theorem leading_ne_root (first : List Char) : leading first ≠ .root := by
  unfold leading component
  split
  · nofun
  · split <;> nofun

/-- How a path starts: with nothing, with the root, or with a segment of its own. What follows are the
later segments. -/
inductive Start (p : Path) : Option Component → List (List Char) → Prop where
  | empty (h : p.segments = [[]]) (hr : p.isRooted = false) : Start p none []
  | rooted {rest} (hne : rest ≠ []) (h : p.segments = [] :: rest) (hr : p.isRooted = true) :
      Start p (some .root) rest
  | relative {first rest} (hne : first ≠ []) (h : p.segments = first :: rest)
      (hr : p.isRooted = false) : Start p (some (leading first)) rest

/-- Every path starts in one of the three ways. -/
theorem exists_start (p : Path) : ∃ start rest, p.Start start rest := by
  obtain ⟨text⟩ := p
  cases htext : text.toList with
  | nil => exact ⟨none, [], .empty (by simp [segments, htext]) (by simp [isRooted, htext])⟩
  | cons c cs =>
    have hsplit := List.splitOnP_cons_eq_if_modifyHead (p := (· == '/')) c cs
    obtain ⟨first, rest, hpieces⟩ :=
      List.exists_cons_of_ne_nil (List.splitOnP_ne_nil (· == '/') cs)
    -- a slash in front leaves the first segment empty
    by_cases hc : c = '/'
    · rw [if_pos (beq_iff_eq.mpr hc), hpieces] at hsplit
      exact ⟨some .root, first :: rest, .rooted (List.cons_ne_nil _ _) (by rw [segments, htext, hsplit])
        (by simp [isRooted, htext, hc])⟩
    · rw [if_neg (mt beq_iff_eq.mp hc), hpieces, List.modifyHead_cons] at hsplit
      exact ⟨_, rest, .relative (List.cons_ne_nil c first) (by rw [segments, htext, hsplit])
        (by simp [isRooted, htext, hc])⟩

/-- **The components of a path are those of its start and of the later segments that count.** -/
theorem Start.components_eq {p : Path} {start : Option Component} {rest : List (List Char)}
    (h : p.Start start rest) : p.components = start.toList ++ laterComponents rest := by
  cases h with
  | empty h hr => simp [components, h, hr, laterComponents]
  | rooted hne h hr => simp [components, h, hr]
  | relative hne h hr =>
    rw [components, h]
    dsimp only
    rw [hr, if_neg Bool.false_ne_true, if_neg hne, leading]
    split <;> rfl

/-- A path with an empty first segment and others behind it starts at the root. -/
theorem components_of_segments_nil {p : Path} {rest : List (List Char)}
    (h : p.segments = [] :: rest) (hne : rest ≠ []) :
    p.components = .root :: laterComponents rest := by
  obtain ⟨start, later, hstart⟩ := exists_start p
  rw [hstart.components_eq]
  cases hstart with
  | empty h' _ => exact absurd (List.cons.inj (h.symm.trans h')).2 hne
  | rooted _ h' _ => rw [(List.cons.inj (h.symm.trans h')).2, Option.toList_some, List.singleton_append]
  | relative hfirst h' _ => exact absurd (List.cons.inj (h.symm.trans h')).1.symm hfirst

/-- A path with a first segment of its own starts with what this stands for. -/
theorem components_of_segments_cons {p : Path} {first : List Char} {rest : List (List Char)}
    (h : p.segments = first :: rest) (hne : first ≠ []) :
    p.components = leading first :: laterComponents rest := by
  obtain ⟨start, later, hstart⟩ := exists_start p
  rw [hstart.components_eq]
  cases hstart with
  | empty h' _ => exact absurd (List.cons.inj (h.symm.trans h')).1 hne
  | rooted _ h' _ => exact absurd (List.cons.inj (h.symm.trans h')).1 hne
  | relative _ h' _ =>
    obtain ⟨rfl, rfl⟩ := List.cons.inj (h.symm.trans h')
    rw [Option.toList_some, List.singleton_append]

/-! ## Later segments -/

theorem laterComponents_append (ss ts : List (List Char)) :
    laterComponents (ss ++ ts) = laterComponents ss ++ laterComponents ts := by
  simp [laterComponents]

theorem laterComponents_of_idle {ss : List (List Char)} (h : ∀ s ∈ ss, isIdle s = true) :
    laterComponents ss = [] := by
  simpa [laterComponents, List.filter_eq_nil_iff] using h

theorem laterComponents_concat {s : List Char} (ss : List (List Char)) (h : isIdle s = false) :
    laterComponents (ss ++ [s]) = laterComponents ss ++ [component s] := by
  simp [laterComponents, h]

/-! ## The last component

A name at the end of a path is never its first segment if a slash stands before it, so it counts as what it
is. -/

/-- A name: a text without slashes that is neither empty nor one of the dots. -/
structure IsName (w : String) : Prop where
  slash_not_mem : '/' ∉ w.toList
  not_idle : isIdle w.toList = false
  not_up : w.toList ≠ ['.', '.']

/-- A name behind a slash is the last component. -/
theorem getLast?_components_append {w : String} (h : IsName w) (s : String) :
    (Path.mk (s ++ "/" ++ w)).components.getLast? = some (.name w.toList) := by
  obtain ⟨start, rest, hstart⟩ := exists_start ⟨s ++ "/" ++ w⟩
  have hsegments : (Path.mk (s ++ "/" ++ w)).segments = (Path.mk s).segments ++ [w.toList] := by
    rw [segments_append, segments_of_forall h.slash_not_mem]
  -- the name is one of the later segments, since another one stands before it
  have hrest : ∃ before, rest = before ++ [w.toList] := by
    obtain ⟨first, before, hfirst⟩ := List.exists_cons_of_ne_nil (Path.mk s).segments_ne_nil
    rw [hfirst, List.cons_append] at hsegments
    refine ⟨before, ?_⟩
    cases hstart with
    | empty h _ =>
      rw [hsegments] at h
      simp at h
    | rooted _ h _ => exact (List.cons.inj (h.symm.trans hsegments)).2
    | relative _ h _ => exact (List.cons.inj (h.symm.trans hsegments)).2
  obtain ⟨before, rfl⟩ := hrest
  rw [hstart.components_eq, laterComponents_concat _ h.not_idle, component, if_neg h.not_up,
    ← List.append_assoc, List.getLast?_concat]

/-! ## A name below a path

Joining puts a slash between the path and the name unless there is one already, or unless the path is empty.
In all three cases the components are those of the path and the name. -/

/-- A name behind the segments of a path is one more component, be there idle segments between them or
not. -/
theorem components_eq_concat {p q : Path} {w : String} (h : IsName w) {first : List Char}
    {rest before : List (List Char)} (hp : p.segments = first :: rest) (hne : first ≠ [] ∨ rest ≠ [])
    (hq : q.segments = first :: (before ++ [w.toList]))
    (hbefore : laterComponents before = laterComponents rest) :
    q.components = p.components ++ [.name w.toList] := by
  have hlater : laterComponents (before ++ [w.toList]) = laterComponents rest ++ [.name w.toList] := by
    rw [laterComponents_concat _ h.not_idle, component, if_neg h.not_up, hbefore]
  by_cases hfirst : first = []
  · subst hfirst
    have hrest : rest ≠ [] := hne.resolve_left (not_not_intro rfl)
    rw [components_of_segments_nil hq (by simp), components_of_segments_nil hp hrest, hlater, List.cons_append]
  · rw [components_of_segments_cons hq hfirst, components_of_segments_cons hp hfirst, hlater, List.cons_append]

/-- A name is a path of one component. -/
theorem components_of_name {w : String} (h : IsName w) : (Path.mk w).components = [.name w.toList] := by
  have hne : w.toList ≠ [] := fun hnil => by
    have hidle := h.not_idle
    rw [hnil] at hidle
    cases hidle
  have hdot : w.toList ≠ ['.'] := fun hdot => by
    have hidle := h.not_idle
    rw [hdot] at hidle
    cases hidle
  rw [components_of_segments_cons (segments_of_forall h.slash_not_mem) hne, leading, if_neg hdot, component,
    if_neg h.not_up]
  rfl

/-- **A name below a path is one more component.** -/
theorem components_join {w : String} (h : IsName w) (p : Path) :
    (p.join w).components = p.components ++ [.name w.toList] := by
  have hrooted : (Path.mk w).isRooted = false :=
    beq_eq_false_iff_ne.mpr fun hhead => h.slash_not_mem (List.mem_of_head? hhead)
  obtain ⟨first, rest, hp⟩ := List.exists_cons_of_ne_nil p.segments_ne_nil
  rw [join, if_neg (by rw [hrooted]; exact Bool.false_ne_true)]
  split
  · next hslash =>
    rcases Bool.or_eq_true_iff.mp hslash with hempty | hend
    · -- below the empty path stands the name alone
      obtain rfl : p = ⟨""⟩ := congrArg Path.mk (String.isEmpty_iff.mp hempty)
      rw [String.empty_append]
      exact components_of_name h
    · -- the slash at the end of the path stands before the name
      obtain ⟨init, hinit⟩ := List.getLast?_eq_some_iff.mp (beq_iff_eq.mp hend)
      obtain rfl : p = ⟨String.ofList init ++ "/" ++ ""⟩ := by
        have htext : p.text = String.ofList init ++ "/" ++ "" := by
          rw [← String.toList_inj, hinit]
          simp
        exact congrArg Path.mk htext
      obtain ⟨first, before, hfirst⟩ := List.exists_cons_of_ne_nil (Path.mk (String.ofList init)).segments_ne_nil
      have hp := segments_append (String.ofList init) ""
      rw [hfirst, List.cons_append] at hp
      have hq : (Path.mk (String.ofList init ++ "/" ++ "" ++ w)).segments = first :: (before ++ [w.toList]) := by
        rw [String.append_empty, segments_append, hfirst, segments_of_forall h.slash_not_mem, List.cons_append]
      have hbefore : laterComponents before = laterComponents (before ++ (Path.mk "").segments) := by
        rw [laterComponents_append]
        exact (List.append_nil _).symm
      exact components_eq_concat h hp (Or.inr (by simp [segments])) hq hbefore
  · next hslash =>
    -- a slash of its own is put between the path and the name
    have hne : p.text ≠ "" := fun hempty => hslash (by rw [hempty]; rfl)
    have hstart : first ≠ [] ∨ rest ≠ [] := by
      refine Decidable.or_iff_not_imp_left.mpr fun hnil hrest => hne (segments_eq_singleton_iff.mp ?_)
      rw [hp, Classical.not_not.mp hnil, hrest]
    have hq : (Path.mk (p.text ++ "/" ++ w)).segments = first :: (rest ++ [w.toList]) := by
      rw [segments_append, segments_of_forall h.slash_not_mem, ← List.cons_append, ← hp]
    exact components_eq_concat h hp hstart hq rfl

/-- What stands below the same path has the same path. -/
theorem Same.join {p q : Path} (h : p.Same q) {w : String} (hw : IsName w) : (p.join w).Same (q.join w) := by
  have hcomponents : p.components = q.components := h
  show (p.join w).components = (q.join w).components
  rw [components_join hw, components_join hw, hcomponents]

/-! ## How many components

Components are no more than characters, so the length of a text is enough fuel for what goes from a path to
the paths above it. -/

/-- Only the empty path has no components. -/
theorem components_eq_nil_iff {p : Path} : p.components = [] ↔ p.text = "" := by
  obtain ⟨start, rest, hstart⟩ := exists_start p
  rw [hstart.components_eq, ← segments_eq_singleton_iff]
  cases hstart with
  | empty h _ => simp [h, laterComponents]
  | rooted hne h _ => simp [h, hne]
  | relative hne h _ => simp [h, hne]

/-- The nonempty pieces of a text are no more than its characters. -/
theorem countP_pieces_le (cs : List Char) :
    ((cs.splitOnP (· == '/')).countP fun s => !s.isEmpty) ≤ cs.length := by
  induction cs with
  | nil => simp
  | cons c cs ih =>
    obtain ⟨first, rest, hpieces⟩ := List.exists_cons_of_ne_nil (List.splitOnP_ne_nil (· == '/') cs)
    rw [List.splitOnP_cons_eq_if_modifyHead]
    rw [hpieces] at ih
    split
    · rw [hpieces]
      simp [List.countP_cons] at ih ⊢
      omega
    · rw [hpieces]
      simp [List.countP_cons] at ih ⊢
      omega

/-- Later segments stand for no more components than there are nonempty ones among them. -/
theorem length_laterComponents_le (ss : List (List Char)) :
    (laterComponents ss).length ≤ ss.countP fun s => !s.isEmpty := by
  rw [laterComponents, List.length_map, ← List.countP_eq_length_filter]
  refine List.countP_mono_left fun s _ hs => ?_
  cases s with
  | nil => cases hs
  | cons => rfl

/-- Each component takes a character of its own. -/
theorem length_components_le (p : Path) : p.components.length ≤ p.text.length := by
  obtain ⟨start, rest, hstart⟩ := exists_start p
  have hlater := length_laterComponents_le rest
  rw [hstart.components_eq, ← String.length_toList]
  cases hstart with
  | empty _ _ => exact Nat.zero_le _
  | rooted _ h hr =>
    -- the slash in front is the root's
    obtain ⟨cs, htext⟩ := List.head?_eq_some_iff.mp (beq_iff_eq.mp hr)
    have hpieces := countP_pieces_le cs
    rw [segments, htext, List.splitOnP_cons_eq_if_modifyHead, if_pos (beq_self_eq_true '/')] at h
    rw [(List.cons.inj h).2] at hpieces
    simp only [htext, Option.toList_some, List.singleton_append, List.length_cons]
    omega
  | relative hne h _ =>
    have hpieces : (p.segments.countP fun s => !s.isEmpty) ≤ p.text.toList.length :=
      countP_pieces_le p.text.toList
    rw [h, List.countP_cons_of_pos (by simpa using hne)] at hpieces
    simp only [Option.toList_some, List.singleton_append, List.length_cons]
    omega

end HostMeter.Path
