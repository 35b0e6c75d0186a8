/-
Module: RepoAtlas.Proofs.DocumentNames
Purpose: The names under which a store keeps its documents.
  A key is any text, most of the time a path, and its document has to stay in the directory of the
  store.  Which stem stands for a key is said here without computing it: the runs of characters that
  a file name should not hold are written as two dashes, and dashes and dots at the ends of that are
  cut off.  A stem stands for itself, so a key and its stem have one document.
Main exports: IsPlain, IsStem, MarksRuns, StandsFor, StaysInside, isPortable_iff, marksRuns_iff,
  StandsFor.isStem, IsStem.standsFor_self, standsFor_iff, keyFileName_eq, isProperName_of_isStem,
  staysInside_of_isProperName, documents_stay_inside
-/
import RepoAtlas.Disk.Resolve
import RepoAtlas.Proofs.GatheredFiles
import RepoAtlas.Proofs.TrimmedText
import RepoAtlas.Store.Key

namespace RepoAtlas.Store

open Disk Text

/-! ### Stems -/

/-- Whether a character is an ASCII letter or digit, a dot, an underscore or a dash. -/
def IsPlain (char : Char) : Prop :=
  'A' ≤ char ∧ char ≤ 'Z' ∨ 'a' ≤ char ∧ char ≤ 'z' ∨ '0' ≤ char ∧ char ≤ '9' ∨
    char = '.' ∨ char = '_' ∨ char = '-'

/-- Whether a text is fit to be the stem of a file name: of plain characters, and without a dash or
a dot at either end. -/
structure IsStem (stem : List Char) : Prop where
  nonempty : stem ≠ []
  plain : ∀ char ∈ stem, IsPlain char
  begins : ∀ char ∈ stem.head?, char ≠ '-' ∧ char ≠ '.'
  ends : ∀ char ∈ stem.getLast?, char ≠ '-' ∧ char ≠ '.'

/-- Whether a text is a key in which each run of characters that are not plain is written as two
dashes.  A run goes as far as there are such characters. -/
inductive MarksRuns : (key marked : List Char) → Prop where
  | nil : MarksRuns [] []
  | plain {char : Char} {rest marked : List Char} (plain : IsPlain char)
      (further : MarksRuns rest marked) : MarksRuns (char :: rest) (char :: marked)
  | run {run rest marked : List Char} (nonempty : run ≠ []) (others : ∀ char ∈ run, ¬ IsPlain char)
      (maximal : ∀ char ∈ rest.head?, IsPlain char) (further : MarksRuns rest marked) :
      MarksRuns (run ++ rest) ('-' :: '-' :: marked)

/-- Whether a stem stands for a key: it is what is left of the key, its runs marked, when dashes and
dots are cut off at the ends, or a word of its own if nothing is left. -/
inductive StandsFor : (stem key : List Char) → Prop where
  | rest {key marked stem : List Char} (marks : MarksRuns key marked)
      (trims : TrimsTo isTrimmed marked stem) (nonempty : stem ≠ []) : StandsFor stem key
  | nothing {key marked : List Char} (marks : MarksRuns key marked)
      (trims : TrimsTo isTrimmed marked []) : StandsFor ['s', 't', 'a', 't', 'e'] key

theorem isPortable_iff (char : Char) : isPortable char = true ↔ IsPlain char := by
  have upper : char.isUpper = true ↔ 'A' ≤ char ∧ char ≤ 'Z' := decide_eq_true_iff
  have lower : char.isLower = true ↔ 'a' ≤ char ∧ char ≤ 'z' :=
    Bool.and_eq_true_iff.trans (and_congr decide_eq_true_iff decide_eq_true_iff)
  have digit : char.isDigit = true ↔ '0' ≤ char ∧ char ≤ '9' :=
    Bool.and_eq_true_iff.trans (and_congr decide_eq_true_iff decide_eq_true_iff)
  have parts : char.isAlphanum = (char.isUpper || char.isLower || char.isDigit) := rfl
  simp only [isPortable, IsPlain, parts, Bool.or_eq_true, upper, lower, digit, beq_iff_eq, or_assoc]

theorem isTrimmed_eq_false_iff (char : Char) :
    isTrimmed char = false ↔ char ≠ '-' ∧ char ≠ '.' := by
  simp [isTrimmed]

/-! ### Marking the runs -/

section Marking

variable {key marked run rest : List Char}

/-- What is left of a run is passed over. -/
theorem replaceRuns_append_of_others (others : ∀ char ∈ run, ¬ IsPlain char) (rest : List Char) :
    replaceRuns true (run ++ rest) = replaceRuns true rest := by
  induction run with
  | nil => rfl
  | cons char more ih =>
    have other : ¬ isPortable char = true := mt (isPortable_iff char).1 (others char (by simp))
    rw [List.cons_append, replaceRuns, if_neg other, if_pos rfl,
      ih (fun later member => others later (List.mem_cons_of_mem _ member))]

/-- A run ends where a plain character stands, or with the text. -/
theorem replaceRuns_of_maximal (maximal : ∀ char ∈ rest.head?, IsPlain char) :
    replaceRuns true rest = replaceRuns false rest := by
  cases rest with
  | nil => rfl
  | cons char more =>
    have plain : isPortable char = true := (isPortable_iff char).2 (maximal char rfl)
    rw [replaceRuns, replaceRuns, if_pos plain, if_pos plain]

/-- A whole run is written as two dashes. -/
theorem replaceRuns_run (nonempty : run ≠ []) (others : ∀ char ∈ run, ¬ IsPlain char)
    (maximal : ∀ char ∈ rest.head?, IsPlain char) :
    replaceRuns false (run ++ rest) = '-' :: '-' :: replaceRuns false rest := by
  cases run with
  | nil => exact absurd rfl nonempty
  | cons char more =>
    have other : ¬ isPortable char = true := mt (isPortable_iff char).1 (others char (by simp))
    rw [List.cons_append, replaceRuns, if_neg other, if_neg Bool.false_ne_true,
      replaceRuns_append_of_others
        (fun later member => others later (List.mem_cons_of_mem _ member)),
      replaceRuns_of_maximal maximal]

theorem MarksRuns.eq (marks : MarksRuns key marked) : marked = replaceRuns false key := by
  induction marks with
  | nil => rfl
  | plain plain _ ih => rw [replaceRuns, if_pos ((isPortable_iff _).2 plain), ih]
  | run nonempty others maximal _ ih => rw [replaceRuns_run nonempty others maximal, ih]

/-- One more character at the beginning opens a run or prolongs the one that is there. -/
theorem MarksRuns.cons_other {char : Char} (other : ¬ IsPlain char)
    (marks : MarksRuns rest marked) : ∃ marked', MarksRuns (char :: rest) marked' := by
  have alone : ∀ later ∈ [char], ¬ IsPlain later := by simpa using other
  cases marks with
  | nil => exact ⟨_, .run (List.cons_ne_nil char []) alone (by simp) .nil⟩
  | plain plain further =>
    exact ⟨_, .run (List.cons_ne_nil char []) alone (by simpa using plain) (.plain plain further)⟩
  | @run run rest _ _ others maximal further =>
    exact ⟨_, .run (List.cons_ne_nil char run) (List.forall_mem_cons.2 ⟨other, others⟩) maximal
      further⟩

theorem exists_marksRuns (key : List Char) : ∃ marked, MarksRuns key marked := by
  induction key with
  | nil => exact ⟨[], .nil⟩
  | cons char rest ih =>
    obtain ⟨marked, marks⟩ := ih
    by_cases plain : IsPlain char
    · exact ⟨_, .plain plain marks⟩
    · exact marks.cons_other plain

theorem marksRuns_iff : MarksRuns key marked ↔ marked = replaceRuns false key := by
  constructor
  · exact MarksRuns.eq
  · intro same
    obtain ⟨marked', marks⟩ := exists_marksRuns key
    rw [same, ← marks.eq]
    exact marks

/-- What is written is plain throughout. -/
theorem MarksRuns.isPlain (marks : MarksRuns key marked) : ∀ char ∈ marked, IsPlain char := by
  have dash : IsPlain '-' := by simp [IsPlain]
  induction marks with
  | nil => exact List.forall_mem_nil _
  | plain plain _ ih => exact List.forall_mem_cons.2 ⟨plain, ih⟩
  | run _ _ _ _ ih => exact List.forall_mem_cons.2 ⟨dash, List.forall_mem_cons.2 ⟨dash, ih⟩⟩

/-- A plain text has no runs to mark. -/
theorem marksRuns_self (plain : ∀ char ∈ key, IsPlain char) : MarksRuns key key := by
  induction key with
  | nil => exact .nil
  | cons char rest ih =>
    obtain ⟨here, later⟩ := List.forall_mem_cons.1 plain
    exact .plain here (ih later)

end Marking

/-! ### Stems of keys -/

section Stems

variable {key stem : List Char}

theorem StandsFor.isStem (stands : StandsFor stem key) : IsStem stem := by
  cases stands with
  | rest marks trims nonempty =>
    obtain ⟨⟨lead, trail, rfl, _⟩, begins, ends⟩ := trims
    refine ⟨nonempty, ?_, ?_, ?_⟩
    · intro char member
      exact marks.isPlain char (by simp [member])
    · intro char first
      exact (isTrimmed_eq_false_iff char).1 (begins char first)
    · intro char last
      exact (isTrimmed_eq_false_iff char).1 (ends char last)
  | nothing marks trims =>
    have letters : ['s', 't', 'a', 't', 'e'].all isPortable = true := by decide
    refine ⟨List.cons_ne_nil _ _, ?_, by simp, by simp⟩
    intro char member
    exact (isPortable_iff char).1 (List.all_eq_true.1 letters char member)

theorem IsStem.standsFor_self (isStem : IsStem stem) : StandsFor stem stem := by
  refine .rest (marksRuns_self isStem.plain) (trimsTo_self ?_ ?_) isStem.nonempty
  · intro char first
    exact (isTrimmed_eq_false_iff char).2 (isStem.begins char first)
  · intro char last
    exact (isTrimmed_eq_false_iff char).2 (isStem.ends char last)

/-- The stem of a key is the one text that stands for it. -/
theorem standsFor_iff : StandsFor stem key ↔ stem = keyStem key := by
  constructor
  · intro stands
    cases stands with
    | rest marks trims nonempty =>
      rw [marks.eq] at trims
      simp [keyStem, trims.trim_eq, nonempty]
    | nothing marks trims =>
      rw [marks.eq] at trims
      simp [keyStem, trims.trim_eq, emptyStem]
  · rintro rfl
    have marks : MarksRuns key (replaceRuns false key) := marksRuns_iff.2 rfl
    have trims := trimsTo_trim isTrimmed (replaceRuns false key)
    unfold keyStem
    simp only
    split
    · next empty =>
      rw [List.isEmpty_iff.1 empty] at trims
      exact .nothing marks trims
    · next filled => exact .rest marks trims (mt List.isEmpty_iff.2 filled)

theorem isStem_keyStem (key : List Char) : IsStem (keyStem key) :=
  (standsFor_iff.2 rfl).isStem

theorem keyStem_of_isStem (isStem : IsStem stem) : keyStem stem = stem :=
  (standsFor_iff.1 isStem.standsFor_self).symm

theorem keyFileName_eq (key : String) :
    keyFileName key = String.ofList (keyStem key.toList) ++ ".json" := by
  rw [keyFileName, String.ofList_append, String.ofList_toList]

end Stems

/-! ### Names in a directory -/

/-- Whether a name stays in every directory that it is put into: the path to it goes one segment
further, also when ascents are taken back, and what is found there is a child of the directory. -/
structure StaysInside (name : String) : Prop where
  joined : ∀ directory, segmentsFrom directory name = directory ++ [name]
  settled : ∀ directory, withoutAscents (directory ++ [name]) = withoutAscents directory ++ [name]
  found : ∀ (disk : Disk) path located, disk.locate (path ++ [name]) = .ok located →
    ∃ real children, disk.locate path = .ok ⟨real, .directory children⟩ ∧
      (childNamed name children).isSome = true

theorem staysInside_of_isProperName {name : String} (proper : Path.IsProperName name.toList) :
    StaysInside name := by
  have notHere : name ≠ "." := by
    rintro rfl
    exact proper.notHere rfl
  have notAbove : name ≠ ".." := by
    rintro rfl
    exact proper.notAbove rfl
  constructor
  case joined =>
    intro directory
    have text : Repository.relativeText [name] = name := by simp [Repository.relativeText]
    have joined := Repository.segmentsFrom_relativeText directory (List.cons_ne_nil name [])
      (by simpa using proper.toIsSegment) (by simpa using notHere.symm)
    rw [text] at joined
    exact joined.1
  case settled =>
    intro directory
    simp [withoutAscents, notAbove]
  case found =>
    intro disk path located found
    exact exists_child_of_locate notAbove found

/-- A stem with an extension names something below a directory. -/
theorem isProperName_of_isStem {stem : List Char} (isStem : IsStem stem) :
    Path.IsProperName (stem ++ ['.', 'j', 's', 'o', 'n']) := by
  have slash : ¬ IsPlain '/' := by
    rw [← isPortable_iff]
    decide
  have absent : '/' ∉ stem := fun member => slash (isStem.plain _ member)
  refine ⟨⟨by simp, by simpa using absent⟩, ?_, ?_⟩
  · intro same
    simpa using congrArg List.length same
  · intro same
    simpa using congrArg List.length same

theorem isHidden_of_isStem {stem : List Char} (isStem : IsStem stem) (rest : List Char) :
    Repository.isHidden (String.ofList (stem ++ rest)) = false := by
  cases stem with
  | nil => exact absurd rfl isStem.nonempty
  | cons first more =>
    have shown : '.' ≠ first := (isStem.begins first rfl).2.symm
    simp [Repository.isHidden, startsWith, List.isPrefixOf, shown]

/-- The document of a key is named by the one stem that stands for the key.  The name stays in the
directory of the store and is not hidden, and the stem, taken as a key, has the same document. -/
theorem documents_stay_inside (key : String) :
    ∃ stem : String, keyFileName key = stem ++ ".json" ∧
      IsStem stem.toList ∧
      (∀ other : String, StandsFor other.toList key.toList ↔ other = stem) ∧
      StaysInside (keyFileName key) ∧
      Repository.isHidden (keyFileName key) = false ∧
      keyFileName stem = keyFileName key := by
  have isStem := isStem_keyStem key.toList
  refine ⟨String.ofList (keyStem key.toList), keyFileName_eq key, ?_, ?_, ?_, ?_, ?_⟩
  · rw [String.toList_ofList]
    exact isStem
  · intro other
    rw [standsFor_iff, ← String.toList_inj, String.toList_ofList]
  · apply staysInside_of_isProperName
    rw [keyFileName, String.toList_ofList]
    exact isProperName_of_isStem isStem
  · exact isHidden_of_isStem isStem _
  · rw [keyFileName, keyFileName, String.toList_ofList, keyStem_of_isStem isStem]

/-- A path that leads upwards stays in the directory all the same. -/
example : keyFileName "../../etc/passwd" = "etc--passwd.json" := by decide

end RepoAtlas.Store
