/-!
# Truth values — words for yes and no

A truth value is written as one of a few words, and capitals do not count. The reader folds the text and the
word to lower case and compares; what it accepts is told here letter by letter, without a fold.

* `truthValue?`: the truth value that a text stands for, if it stands for one.
* `Spells`, `spells_iff`: the ways to write a word.
* `Means`, `truthValue?_eq_some_iff`: the texts that mean yes, and those that mean no.
-/

namespace HostMeter

/-! ## Words

Each letter of a word may be written either way, whatever the others are. `Spells` says so letter by letter;
the reader folds both sides to lower case, which comes to the same for words without capitals. -/

/-- A text with its ASCII letters in lower case. -/
def lowerCase (s : String) : List Char := s.toList.map Char.toLower

def equalsIgnoringCase (s t : String) : Bool := lowerCase s == lowerCase t

/-- A text is a word, with any of its letters written as capitals. -/
inductive Spells : List Char → List Char → Prop where
  | nil : Spells [] []
  | plain {cs ds} (d : Char) (h : Spells cs ds) : Spells (d :: cs) (d :: ds)
  | capital {cs ds} (d : Char) (h : Spells cs ds) : Spells (d.toUpper :: cs) (d :: ds)

/-- A character that is no capital is the lower case of itself and of its capital, and of nothing else. -/
theorem toLower_eq_iff {c d : Char} (h : d.isUpper = false) :
    c.toLower = d ↔ c = d ∨ c = d.toUpper := by
  have hA : 'A'.val.toNat = 65 := rfl
  have hZ : 'Z'.val.toNat = 90 := rfl
  delta Char.isUpper at h
  delta Char.toLower Char.toUpper
  simp only [decide_eq_false_iff_not, ge_iff_le, UInt32.le_iff_toNat_le, hA, hZ] at h
  simp only [ge_iff_le, UInt32.le_iff_toNat_le, hA, hZ]
  -- the letters stand 32 places behind their capitals
  split <;> split <;> simp only [Char.ext_iff, ← UInt32.toNat_inj] <;> simp at * <;> omega

theorem Spells.refl (cs : List Char) : Spells cs cs := by
  induction cs with
  | nil => exact .nil
  | cons c cs ih => exact .plain c ih

/-- The spellings of a word without capitals are the texts that fold to it. -/
theorem spells_iff {cs ds : List Char} (h : ∀ d ∈ ds, d.isUpper = false) :
    Spells cs ds ↔ cs.map Char.toLower = ds := by
  constructor
  · intro hspells
    induction hspells with
    | nil => rfl
    | plain d _ ih =>
      obtain ⟨hd, hds⟩ := List.forall_mem_cons.mp h
      rw [List.map_cons, (toLower_eq_iff hd).mpr (Or.inl rfl), ih hds]
    | capital d _ ih =>
      obtain ⟨hd, hds⟩ := List.forall_mem_cons.mp h
      rw [List.map_cons, (toLower_eq_iff hd).mpr (Or.inr rfl), ih hds]
  · intro hfold
    induction cs generalizing ds with
    | nil =>
      cases hfold
      exact .nil
    | cons c cs ih =>
      cases ds with
      | nil => cases hfold
      | cons d ds =>
        obtain ⟨hd, hds⟩ := List.forall_mem_cons.mp h
        obtain ⟨hfirst, hrest⟩ := List.cons.inj hfold
        -- the letter is that of the word or its capital
        rcases (toLower_eq_iff hd).mp hfirst with rfl | rfl
        · exact .plain _ (ih hds hrest)
        · exact .capital _ (ih hds hrest)

/-! ## Truth values

A value means yes or no if it spells a word for it. No value means both, since a value spells one word at
most; so it does not matter which words the reader tries first. -/

def trueWords : List String := ["1", "true", "yes", "on"]

def falseWords : List String := ["0", "false", "no", "off"]

/-- The truth value that a word stands for. -/
def truthValue? (value : String) : Option Bool :=
  if trueWords.any (equalsIgnoringCase value) then some true
  else if falseWords.any (equalsIgnoringCase value) then some false
  else none

/-- The words for a truth value. -/
def wordsFor : Bool → List String
  | true => trueWords
  | false => falseWords

/-- A value means a truth value: it spells one of the words for it. -/
def Means (value : String) (b : Bool) : Prop := ∃ word ∈ wordsFor b, Spells value.toList word.toList

section Words

variable {value word word' : String} {b b' : Bool}

/-- No word is listed with a capital. -/
theorem isUpper_of_mem_wordsFor (h : word ∈ wordsFor b) : ∀ c ∈ word.toList, c.isUpper = false := by
  have hall : ∀ b, ∀ word ∈ wordsFor b, word.toList.all (!·.isUpper) = true := by decide
  simpa using hall b word h

theorem equalsIgnoringCase_iff (h : word ∈ wordsFor b) :
    equalsIgnoringCase value word = true ↔ Spells value.toList word.toList := by
  have hupper := isUpper_of_mem_wordsFor h
  have hword : lowerCase word = word.toList := (spells_iff hupper).mp (Spells.refl _)
  rw [equalsIgnoringCase, beq_iff_eq, hword, spells_iff hupper, lowerCase]

theorem means_iff : Means value b ↔ (wordsFor b).any (equalsIgnoringCase value) = true := by
  rw [List.any_eq_true]
  exact exists_congr fun _ => and_congr_right fun hword => (equalsIgnoringCase_iff hword).symm

/-- A value spells one word at most. -/
theorem eq_of_spells {cs : List Char} (hword : word ∈ wordsFor b) (hword' : word' ∈ wordsFor b')
    (h : Spells cs word.toList) (h' : Spells cs word'.toList) : word = word' := by
  rw [spells_iff (isUpper_of_mem_wordsFor hword)] at h
  rw [spells_iff (isUpper_of_mem_wordsFor hword')] at h'
  exact String.toList_inj.mp (h.symm.trans h')

/-- No value means both yes and no. -/
theorem Means.unique (h : Means value b) (h' : Means value b') : b = b' := by
  obtain ⟨word, hword, hspells⟩ := h
  obtain ⟨word', hword', hspells'⟩ := h'
  obtain rfl : word = word' := eq_of_spells hword hword' hspells hspells'
  have hdistinct : ∀ b b', ∀ word ∈ wordsFor b, word ∈ wordsFor b' → b = b' := by decide
  exact hdistinct b b' word hword hword'

/-- **A value is read as the truth value that it means.** -/
theorem truthValue?_eq_some_iff : truthValue? value = some b ↔ Means value b := by
  by_cases hyes : Means value true
  · have hread : truthValue? value = some true := if_pos (means_iff.mp hyes)
    rw [hread, Option.some.injEq]
    constructor
    · rintro rfl
      exact hyes
    · exact hyes.unique
  · -- the words for no are tried next
    have hrest : truthValue? value =
        if (wordsFor false).any (equalsIgnoringCase value) then some false else none :=
      if_neg (mt means_iff.mpr hyes)
    rw [hrest, Option.ite_none_right_eq_some, ← means_iff]
    cases b with
    | true => simp [hyes]
    | false => simp

end Words

instance (value : String) (b : Bool) : Decidable (Means value b) :=
  decidable_of_iff _ truthValue?_eq_some_iff

end HostMeter
