/-
Module: RepoAtlas.Proofs.PathSegments
Purpose: Paths as the segments between their slashes.
  Joining, taking the directory and normalising are done on characters.  On a path that is put
  together from segments they are operations on the list of segments: normalising runs a stack on
  which an ascent takes back the segment before it.
Main exports: IsSegment, IsProperName, split_intercalate, fileNameChars_intercalate,
  directoryChars_intercalate, joinChars_intercalate, normalizeChars_of_relative,
  normalizeChars_intercalate, foldl_normalStep_names, foldl_normalStep_ascents,
  foldl_normalStep_beyond
-/
import RepoAtlas.Path
import RepoAtlas.Proofs.TrimmedText
import Mathlib.Data.List.Basic

namespace RepoAtlas

/-! ### Lists put together with separators -/

section Separated

variable {α : Type}

theorem intercalate_append (separator : List α) (first : List (List α)) {second : List (List α)}
    (nonempty : second ≠ []) :
    List.intercalate separator (first ++ second) =
      (first.map (· ++ separator)).flatten ++ List.intercalate separator second := by
  induction first with
  | nil => rfl
  | cons part rest ih =>
    rw [List.cons_append, List.intercalate_cons_of_ne_nil (by simp [nonempty]), ih]
    simp

theorem flatten_map_append (separator : List α) {parts : List (List α)} (nonempty : parts ≠ []) :
    (parts.map (· ++ separator)).flatten = List.intercalate separator parts ++ separator := by
  obtain ⟨front, last, rfl⟩ := (List.eq_nil_or_concat' parts).resolve_left nonempty
  rw [intercalate_append separator front (by simp)]
  simp

theorem intercalate_append_of_ne_nil (separator : List α) {first second : List (List α)}
    (nonempty : first ≠ []) (further : second ≠ []) :
    List.intercalate separator (first ++ second) =
      List.intercalate separator first ++ separator ++ List.intercalate separator second := by
  rw [intercalate_append separator _ further, flatten_map_append separator nonempty]

theorem intercalate_eq_nil_iff (separator : List α) {parts : List (List α)}
    (nonempty : ∀ part ∈ parts, part ≠ []) :
    List.intercalate separator parts = [] ↔ parts = [] := by
  cases parts with
  | nil => simp
  | cons part rest =>
    have filled := nonempty part (by simp)
    cases rest with
    | nil => simpa using filled
    | cons next others => simp [List.intercalate_cons_cons, filled]

end Separated

namespace Text

theorem split_of_not_mem {separator : Char} {part : List Char} (absent : separator ∉ part) :
    split separator part = [part] := by
  induction part with
  | nil => rfl
  | cons char rest ih =>
    rw [List.mem_cons, not_or] at absent
    simp [split, Ne.symm absent.1, ih absent.2]

theorem split_append {separator : Char} {part : List Char} (absent : separator ∉ part)
    (rest : List Char) :
    split separator (part ++ separator :: rest) = part :: split separator rest := by
  induction part with
  | nil => simp [split]
  | cons char others ih =>
    rw [List.mem_cons, not_or] at absent
    simp [split, Ne.symm absent.1, ih absent.2]

/-- Splitting gives back the parts that were put together. -/
theorem split_intercalate {separator : Char} {parts : List (List Char)} (nonempty : parts ≠ [])
    (absent : ∀ part ∈ parts, separator ∉ part) :
    split separator (List.intercalate [separator] parts) = parts := by
  induction parts with
  | nil => exact absurd rfl nonempty
  | cons part rest ih =>
    have here := absent part (by simp)
    cases rest with
    | nil =>
      rw [List.intercalate_singleton]
      exact split_of_not_mem here
    | cons next others =>
      rw [List.intercalate_cons_cons, List.append_assoc, List.singleton_append, split_append here,
        ih (by simp) (fun part member => absent part (by simp [member]))]

end Text

namespace Path

open Text

/-- Whether characters can stand between two slashes. -/
structure IsSegment (segment : List Char) : Prop where
  nonempty : segment ≠ []
  noSlash : '/' ∉ segment

/-- Whether a segment names something below a directory, and not the directory or the one above. -/
structure IsProperName (segment : List Char) : Prop extends IsSegment segment where
  notHere : segment ≠ ['.']
  notAbove : segment ≠ ['.', '.']

variable {segments : List (List Char)}

theorem head?_intercalate (nonempty : segments ≠ [])
    (proper : ∀ segment ∈ segments, IsSegment segment) :
    ∃ first rest, List.intercalate ['/'] segments = first :: rest ∧ first ≠ '/' := by
  cases segments with
  | nil => exact absurd rfl nonempty
  | cons segment others =>
    obtain ⟨filled, noSlash⟩ := proper segment (by simp)
    cases segment with
    | nil => exact absurd rfl filled
    | cons first rest =>
      rw [List.mem_cons, not_or] at noSlash
      cases others with
      | nil => exact ⟨first, rest, by simp, Ne.symm noSlash.1⟩
      | cons next others =>
        exact ⟨first, _, by rw [List.intercalate_cons_cons]; rfl, Ne.symm noSlash.1⟩

theorem getLast?_intercalate (nonempty : segments ≠ [])
    (proper : ∀ segment ∈ segments, IsSegment segment) :
    ∃ last, (List.intercalate ['/'] segments).getLast? = some last ∧ last ≠ '/' := by
  obtain ⟨front, segment, rfl⟩ := (List.eq_nil_or_concat' segments).resolve_left nonempty
  obtain ⟨filled, noSlash⟩ := proper segment (by simp)
  obtain ⟨before, last, rfl⟩ := (List.eq_nil_or_concat' segment).resolve_left filled
  have apart : last ≠ '/' := by
    rintro rfl
    simp at noSlash
  refine ⟨last, ?_, apart⟩
  rw [intercalate_append _ _ (by simp), List.intercalate_singleton]
  simp

/-! ### File name, directory and join -/

theorem ne_slash_of_mem_reverse {name : List Char} (plain : '/' ∉ name) :
    ∀ char ∈ name.reverse, decide (char ≠ '/') = true := by
  intro char member
  have : char ≠ '/' := fun same => plain (same ▸ List.mem_reverse.1 member)
  simpa using this

/-- The name of a file is the last of the segments. -/
theorem fileNameChars_intercalate (segments : List (List Char)) {name : List Char}
    (plain : '/' ∉ name) :
    fileNameChars (List.intercalate ['/'] (segments ++ [name])) = name := by
  have slashed : (segments.map (· ++ ['/'])).flatten.reverse.takeWhile (· ≠ '/') = [] := by
    rcases List.eq_nil_or_concat' segments with rfl | ⟨front, last, rfl⟩
    · rfl
    · simp
  rw [fileNameChars, intercalate_append _ _ (by simp), List.intercalate_singleton,
    List.reverse_append, List.takeWhile_append_of_pos (ne_slash_of_mem_reverse plain), slashed,
    List.append_nil, List.reverse_reverse]

/-- The directory of a file is put together from the segments before its name. -/
theorem directoryChars_intercalate (proper : ∀ segment ∈ segments, IsSegment segment)
    {name : List Char} (plain : '/' ∉ name) :
    directoryChars (List.intercalate ['/'] (segments ++ [name])) =
      List.intercalate ['/'] segments := by
  have notSlash := ne_slash_of_mem_reverse plain
  by_cases root : segments = []
  · subst root
    have part : directoryPart name = [] := by
      rw [directoryPart, List.dropWhile_eq_nil_iff.2 notSlash]
      rfl
    simp [directoryChars, part]
  · obtain ⟨first, rest, begins, firstApart⟩ := head?_intercalate root proper
    obtain ⟨last, ends, lastApart⟩ := getLast?_intercalate root proper
    have part : directoryPart (List.intercalate ['/'] (segments ++ [name])) =
        List.intercalate ['/'] segments ++ ['/'] := by
      rw [directoryPart, intercalate_append_of_ne_nil _ root (by simp),
        List.intercalate_singleton, List.reverse_append, List.dropWhile_append_of_pos notSlash]
      simp
    have mixed : (List.intercalate ['/'] segments ++ ['/']).all (· == '/') = false := by
      simp [begins, firstApart]
    rw [directoryChars, part]
    simp only [mixed, Bool.false_eq_true, if_false]
    rw [dropEndWhile_append_singleton (by rfl),
      dropEndWhile_of_getLast? ends (by simpa using lastApart)]

theorem joinChars_intercalate (proper : ∀ segment ∈ segments, IsSegment segment)
    {further : List (List Char)} (nonempty : further ≠ []) :
    joinChars (List.intercalate ['/'] segments) (List.intercalate ['/'] further) =
      List.intercalate ['/'] (segments ++ further) := by
  by_cases root : segments = []
  · subst root
    rfl
  · obtain ⟨last, ends, apart⟩ := getLast?_intercalate root proper
    rw [intercalate_append_of_ne_nil _ root nonempty, List.append_assoc]
    unfold joinChars
    split
    · next none => simp [ends] at none
    · next slash =>
      rw [ends] at slash
      cases slash
      exact absurd rfl apart
    · rfl

/-! ### Normal form -/

/-- Normalising a path without leading slash runs the stack over its segments. -/
theorem normalizeChars_of_relative {path : List Char} (relative : leadingSlashes path = 0) :
    normalizeChars path =
      let kept := List.intercalate ['/'] ((split '/' path).foldl (normalStep false) []).reverse
      if kept.isEmpty then ['.'] else kept := by
  simp only [normalizeChars, relative]
  rfl

/-- Normalising a path that is put together from segments runs the stack over them. -/
theorem normalizeChars_intercalate (nonempty : segments ≠ [])
    (proper : ∀ segment ∈ segments, IsSegment segment) :
    normalizeChars (List.intercalate ['/'] segments) =
      let kept := List.intercalate ['/'] (segments.foldl (normalStep false) []).reverse
      if kept.isEmpty then ['.'] else kept := by
  obtain ⟨first, rest, begins, apart⟩ := head?_intercalate nonempty proper
  have relative : leadingSlashes (List.intercalate ['/'] segments) = 0 := by
    simp [leadingSlashes, begins, apart]
  have parts : split '/' (List.intercalate ['/'] segments) = segments :=
    split_intercalate nonempty (fun segment member => (proper segment member).noSlash)
  rw [normalizeChars_of_relative relative, parts]

theorem normalStep_name {name : List Char} (proper : IsProperName name) (rooted : Bool)
    (done : List (List Char)) : normalStep rooted done name = name :: done := by
  have skipped : ¬ (name = [] ∨ name = ['.']) := by
    rintro (empty | here)
    · exact proper.nonempty empty
    · exact proper.notHere here
  unfold normalStep
  rw [if_neg skipped, if_neg proper.notAbove]

/-- Names are kept, the latest on top. -/
theorem foldl_normalStep_names {names : List (List Char)}
    (proper : ∀ name ∈ names, IsProperName name) (done : List (List Char)) :
    names.foldl (normalStep false) done = names.reverse ++ done := by
  induction names generalizing done with
  | nil => rfl
  | cons name rest ih =>
    rw [List.foldl_cons, normalStep_name (proper name (by simp)),
      ih (fun other member => proper other (by simp [member]))]
    simp

/-- An ascent takes back a name. -/
theorem foldl_normalStep_ascents {done : List (List Char)}
    (proper : ∀ name ∈ done, IsProperName name) {count : Nat} (enough : count ≤ done.length) :
    (List.replicate count ['.', '.']).foldl (normalStep false) done = done.drop count := by
  induction count generalizing done with
  | zero => rfl
  | succ count ih =>
    cases done with
    | nil => simp at enough
    | cons name kept =>
      have step : normalStep false (name :: kept) ['.', '.'] = kept := by
        simp [normalStep, (proper name (by simp)).notAbove]
      rw [List.replicate_succ, List.foldl_cons, step,
        ih (fun other member => proper other (by simp [member])) (by simpa using enough),
        List.drop_succ_cons]

/-- Where nothing is left to take back, ascents are kept. -/
theorem foldl_normalStep_stuck (count kept : Nat) :
    (List.replicate count ['.', '.']).foldl (normalStep false)
        (List.replicate kept ['.', '.']) = List.replicate (kept + count) ['.', '.'] := by
  induction count generalizing kept with
  | zero => rfl
  | succ count ih =>
    have step : normalStep false (List.replicate kept ['.', '.']) ['.', '.'] =
        List.replicate (kept + 1) ['.', '.'] := by
      cases kept with
      | zero => rfl
      | succ kept => simp [normalStep, List.replicate_succ]
    rw [List.replicate_succ, List.foldl_cons, step, ih]
    congr 1
    omega

/-- More ascents than names lead out of the directory that the path starts from. -/
theorem foldl_normalStep_beyond {done : List (List Char)}
    (proper : ∀ name ∈ done, IsProperName name) {count : Nat} (more : done.length < count) :
    (List.replicate count ['.', '.']).foldl (normalStep false) done =
      List.replicate (count - done.length) ['.', '.'] := by
  have counted : count = done.length + (count - done.length) := by omega
  rw [counted, ← List.replicate_append_replicate, List.foldl_append,
    foldl_normalStep_ascents proper (Nat.le_refl _), List.drop_length,
    ← List.replicate_zero (a := ['.', '.']), foldl_normalStep_stuck]
  congr 1
  omega

end Path

end RepoAtlas
