import HostMeter.Proofs.Path.Components
/-!
# Respelling — the spellings of one path

A path is respelt by putting an idle segment, which is empty or a `.`, between two slashes or behind a
slash at its end. So slashes are doubled, put at the end and taken away there, and dots come and go, but
neither `..` nor a `.` at the start does, and the empty path stays as it is. Two paths are the same exactly
if one is a respelling of the other.

* `Path.Respelt`: the respellings of a path.
* `Path.Respelt.same`: they name the same.
* `Path.same_iff_respelt`: and no other paths do.
-/

namespace HostMeter.Path

/-- One of the two texts is a respelling of the other. -/
inductive Respelt : Path → Path → Prop where
  | refl (p : Path) : Respelt p p
  | symm {p q : Path} : Respelt p q → Respelt q p
  | trans {p q r : Path} : Respelt p q → Respelt q r → Respelt p r
  | between (a b : String) {idle : String} (h : idle = "" ∨ idle = ".") :
      Respelt ⟨a ++ "/" ++ b⟩ ⟨a ++ "/" ++ idle ++ "/" ++ b⟩
  | atEnd {a idle : String} (ha : a ≠ "") (h : idle = "" ∨ idle = ".") :
      Respelt ⟨a⟩ ⟨a ++ "/" ++ idle⟩

/-! ## Respellings name the same

Each step of a respelling adds or takes away one idle segment that is not the first, and such a segment
stands for no component. -/

/-- The empty text and a dot are idle segments. -/
theorem segments_of_idle {idle : String} (h : idle = "" ∨ idle = ".") :
    (Path.mk idle).segments = [idle.toList] ∧ isIdle idle.toList = true := by
  rcases h with rfl | rfl
  · exact ⟨rfl, rfl⟩
  · exact ⟨rfl, rfl⟩

/-- An idle segment behind others changes nothing, unless it stands behind the empty path. -/
theorem same_of_idle {p q : Path} {ss ts : List (List Char)} {s : List Char} (hs : isIdle s = true)
    (hss : ss ≠ []) (hne : ss ≠ [[]] ∨ ts ≠ []) (hp : p.segments = ss ++ ts)
    (hq : q.segments = ss ++ [s] ++ ts) : p.Same q := by
  obtain ⟨first, rest, rfl⟩ := List.exists_cons_of_ne_nil hss
  have hlater : laterComponents (rest ++ [s] ++ ts) = laterComponents (rest ++ ts) := by
    have hidle : laterComponents [s] = [] := laterComponents_of_idle fun t ht => List.mem_singleton.mp ht ▸ hs
    rw [laterComponents_append, laterComponents_append, laterComponents_append, hidle, List.append_nil]
  rw [List.cons_append] at hp
  rw [List.cons_append, List.cons_append] at hq
  show p.components = q.components
  by_cases hfirst : first = []
  · -- the path is rooted with and without the segment
    subst hfirst
    have hrest : rest ++ ts ≠ [] := by
      rcases hne with h | h
      · exact List.append_ne_nil_of_left_ne_nil (fun hnil => h (by rw [hnil])) _
      · exact List.append_ne_nil_of_right_ne_nil _ h
    rw [components_of_segments_nil hp hrest, components_of_segments_nil hq (by simp), hlater]
  · rw [components_of_segments_cons hp hfirst, components_of_segments_cons hq hfirst, hlater]

/-- **Respellings of a path name the same.** -/
theorem Respelt.same {p q : Path} (h : Respelt p q) : p.Same q := by
  induction h with
  | refl p => exact .refl p
  | symm _ ih => exact ih.symm
  | trans _ _ ih ih' => exact ih.trans ih'
  | between a b h =>
    obtain ⟨hsegments, hidle⟩ := segments_of_idle h
    refine same_of_idle hidle (segments_ne_nil _) (Or.inr (segments_ne_nil _)) (segments_append a b) ?_
    rw [segments_append, segments_append, hsegments]
  | atEnd ha h =>
    obtain ⟨hsegments, hidle⟩ := segments_of_idle h
    refine same_of_idle hidle (segments_ne_nil _) (Or.inl (mt segments_eq_singleton_iff.mp ha))
      (List.append_nil _).symm ?_
    rw [segments_append, hsegments, List.append_nil]

/-! ## No other paths do

Every path can be respelt into the shortest spelling of its components, by taking its idle segments away one
by one. So two paths with the same components meet there. -/

theorem intercalate_append {ss ts : List (List Char)} (hss : ss ≠ []) (hts : ts ≠ []) :
    ['/'].intercalate (ss ++ ts) = ['/'].intercalate ss ++ '/' :: ['/'].intercalate ts := by
  induction ss with
  | nil => exact absurd rfl hss
  | cons s ss ih =>
    cases ss with
    | nil =>
      obtain ⟨t, ts, rfl⟩ := List.exists_cons_of_ne_nil hts
      rw [List.singleton_append, List.intercalate_cons_cons, List.intercalate_singleton,
        List.append_assoc, List.singleton_append]
    | cons s' ss =>
      rw [List.cons_append, List.cons_append, List.intercalate_cons_cons, List.intercalate_cons_cons,
        ← List.cons_append, ih (List.cons_ne_nil _ _), List.append_assoc _ _ ('/' :: _)]

theorem ofSegments_append {ss ts : List (List Char)} (hss : ss ≠ []) (hts : ts ≠ []) :
    ofSegments (ss ++ ts) = ⟨(ofSegments ss).text ++ "/" ++ (ofSegments ts).text⟩ := by
  simp [ofSegments, intercalate_append hss hts, ← String.toList_inj]

theorem text_ofSegments_ne_empty {ss : List (List Char)} (hss : ss ≠ []) (hne : ss ≠ [[]]) :
    (ofSegments ss).text ≠ "" := by
  intro hempty
  have hnil : ['/'].intercalate ss = [] := by simpa [ofSegments] using hempty
  obtain ⟨s, rest, rfl⟩ := List.exists_cons_of_ne_nil hss
  cases rest with
  | nil =>
    rw [List.intercalate_singleton] at hnil
    exact hne (by rw [hnil])
  | cons t rest => simp [List.intercalate_cons_cons] at hnil

/-- There are no other idle segments. -/
theorem idle_of_isIdle {s : List Char} (h : isIdle s = true) :
    String.ofList s = "" ∨ String.ofList s = "." := by
  rcases Bool.or_eq_true_iff.mp h with hempty | hdot
  · exact Or.inl (by rw [List.isEmpty_iff.mp hempty])
  · exact Or.inr (by rw [beq_iff_eq.mp hdot])

/-- An idle segment comes and goes behind others, unless these are the empty path. -/
theorem respelt_idle {ss ts : List (List Char)} {s : List Char} (hs : isIdle s = true) (hss : ss ≠ [])
    (hne : ss ≠ [[]] ∨ ts ≠ []) : Respelt (ofSegments (ss ++ ts)) (ofSegments (ss ++ [s] ++ ts)) := by
  have hone : (ofSegments [s]).text = String.ofList s := by rw [ofSegments, List.intercalate_singleton]
  have hidle := idle_of_isIdle hs
  by_cases hts : ts = []
  · subst hts
    rw [List.append_nil, List.append_nil, ofSegments_append hss (List.cons_ne_nil _ _), hone]
    exact .atEnd (text_ofSegments_ne_empty hss (hne.resolve_right (not_not_intro rfl))) hidle
  · rw [ofSegments_append hss hts, ofSegments_append (by simp) hts,
      ofSegments_append hss (List.cons_ne_nil _ _), hone]
    exact .between _ _ hidle

/-- Idle segments go away one by one. -/
theorem respelt_filter {ss : List (List Char)} (hss : ss ≠ []) (rest : List (List Char))
    (hne : ss ≠ [[]] ∨ (rest.filter fun s => !isIdle s) ≠ []) :
    Respelt (ofSegments (ss ++ rest.filter fun s => !isIdle s)) (ofSegments (ss ++ rest)) := by
  induction rest generalizing ss with
  | nil => exact .refl _
  | cons s rest ih =>
    by_cases hs : isIdle s = true
    · rw [List.filter_cons_of_neg (by simp [hs])] at hne ⊢
      have hrest : ss ≠ [[]] ∨ rest ≠ [] := hne.imp_right fun h hnil => h (by rw [hnil]; rfl)
      have hback := respelt_idle hs hss hrest
      rw [List.append_assoc, List.singleton_append] at hback
      exact (ih hss hne).trans hback
    · rw [List.filter_cons_of_pos (by simp [hs]), List.append_cons, List.append_cons ss s rest]
      refine ih (by simp) (Or.inl ?_)
      -- the first of several segments is not the empty path
      intro hsingle
      obtain ⟨hnil, _⟩ | ⟨_, hnil⟩ := List.append_eq_singleton_iff.mp hsingle
      · exact hss hnil
      · cases hnil

/-- The segment that stands for a component. -/
def Component.segment : Component → List Char
  | .root => []
  | .here => ['.']
  | .up => ['.', '.']
  | .name cs => cs

theorem segment_component (s : List Char) : (component s).segment = s := by
  unfold component
  split
  · next h => exact h.symm
  · rfl

/-- The first segment is the one its component stands for, a dot included. -/
theorem segment_leading (s : List Char) : (leading s).segment = s := by
  unfold leading
  split
  · next h => exact h.symm
  · exact segment_component s

/-- Later segments that count are those their components stand for. -/
theorem map_segment_laterComponents (ss : List (List Char)) :
    (laterComponents ss).map Component.segment = ss.filter fun s => !isIdle s := by
  simp [laterComponents, Function.comp_def, segment_component]

/-- The shortest spelling of what a path names. -/
def ofComponents (cs : List Component) : Path :=
  if cs = [.root] then ⟨"/"⟩ else ofSegments (cs.map Component.segment)

/-- An idle segment behind the slash of the root comes and goes. -/
theorem respelt_root {s : List Char} (h : isIdle s = true) : Respelt ⟨"/"⟩ (ofSegments [[], s]) := by
  rcases Bool.or_eq_true_iff.mp h with hempty | hdot
  · rw [List.isEmpty_iff.mp hempty]
    exact .refl _
  · rw [beq_iff_eq.mp hdot]
    -- both become a double slash and a dot
    have hdouble : Respelt ⟨"/"⟩ ⟨"/" ++ "/" ++ "."⟩ := .atEnd (by decide) (Or.inr rfl)
    have hsingle : Respelt ⟨"" ++ "/" ++ "."⟩ ⟨"" ++ "/" ++ "" ++ "/" ++ "."⟩ := .between _ _ (Or.inl rfl)
    exact hdouble.trans hsingle.symm

/-- Every path is a respelling of its shortest spelling. -/
theorem respelt_ofComponents (p : Path) : Respelt (ofComponents p.components) p := by
  obtain ⟨start, rest, hstart⟩ := exists_start p
  have hcomponents := hstart.components_eq
  have hlater := map_segment_laterComponents rest
  cases hstart with
  -- the empty path is its own shortest spelling
  | empty h _ =>
    rw [hcomponents, ← ofSegments_segments p, h]
    exact .refl _
  | rooted hne h _ =>
    rw [hcomponents, ← ofSegments_segments p, h, ofComponents]
    split
    · next hroot =>
      -- no segment counts, and there is at least one
      have hnil : laterComponents rest = [] := (List.cons.inj hroot).2
      rw [hnil, List.map_nil] at hlater
      obtain ⟨s, rest, rfl⟩ := List.exists_cons_of_ne_nil hne
      have hidle : ∀ t ∈ s :: rest, isIdle t = true := by
        simpa using List.filter_eq_nil_iff.mp hlater.symm
      have hrest : (rest.filter fun t => !isIdle t) = [] :=
        List.filter_eq_nil_iff.mpr fun t ht => by simp [hidle t (List.mem_cons_of_mem _ ht)]
      have hback := @respelt_filter [[], s] (by simp) rest (Or.inl (by simp))
      rw [hrest] at hback
      exact (respelt_root (hidle s List.mem_cons_self)).trans hback
    · next hroot =>
      -- the segments that count stay behind the slash of the root
      have hcounted : (rest.filter fun s => !isIdle s) ≠ [] := by
        rw [← hlater]
        exact fun hnil => hroot (by rw [List.map_eq_nil_iff.mp hnil]; rfl)
      rw [List.map_append, hlater]
      exact @respelt_filter [[]] (by simp) rest (Or.inr hcounted)
  | @relative first rest hne h _ =>
    have hroot : (some (leading first)).toList ++ laterComponents rest ≠ [.root] :=
      fun hroot => leading_ne_root first (List.cons.inj hroot).1
    rw [hcomponents, ← ofSegments_segments p, h, ofComponents, if_neg hroot, List.map_append, hlater]
    have hfirst : (some (leading first)).toList.map Component.segment = [first] :=
      congrArg (fun s => [s]) (segment_leading first)
    rw [hfirst]
    exact respelt_filter (by simp) rest (Or.inl fun hnil => hne (List.cons.inj hnil).1)

/-- **Two paths are the same exactly if one is a respelling of the other.** -/
theorem same_iff_respelt {p q : Path} : p.Same q ↔ Respelt p q := by
  refine ⟨fun h => ?_, Respelt.same⟩
  have hcomponents : p.components = q.components := h
  exact (respelt_ofComponents p).symm.trans (hcomponents ▸ respelt_ofComponents q)

end HostMeter.Path
