/-
Module: RepoAtlas.Proofs.TrimmedText
Purpose: What is left of a text when characters are cut off at its ends.
  Trimming is done by dropping from the front and, reversed, from the back.  What it leaves is said
  here by where it stands in the text: the characters around it are cut off, and it neither begins
  nor ends with one of them.
Main exports: dropEndWhile_append_singleton, dropEndWhile_of_getLast?, TrimsTo, trimsTo_self,
  trimsTo_trim, TrimsTo.trim_eq
-/
import RepoAtlas.Text.Characters
import Mathlib.Data.List.TakeWhile

namespace RepoAtlas.Text

variable {test : Char → Bool} {chars core : List Char}

theorem dropEndWhile_append_singleton {last : Char} (dropped : test last = true) :
    dropEndWhile test (chars ++ [last]) = dropEndWhile test chars := by
  simp [dropEndWhile, dropped]

theorem dropEndWhile_of_getLast? {last : Char} (ends : chars.getLast? = some last)
    (kept : test last = false) : dropEndWhile test chars = chars := by
  obtain ⟨front, rfl⟩ := List.getLast?_eq_some_iff.1 ends
  simp [dropEndWhile, kept]

/-- Whether a text is left of another when the characters that satisfy a test are cut off at both
ends. -/
structure TrimsTo (test : Char → Bool) (chars core : List Char) : Prop where
  surrounded : ∃ lead trail, chars = lead ++ core ++ trail ∧ ∀ char ∈ lead ++ trail, test char = true
  begins : ∀ char ∈ core.head?, test char = false
  ends : ∀ char ∈ core.getLast?, test char = false

/-- A text whose ends are not cut off stays as it is. -/
theorem trimsTo_self (begins : ∀ char ∈ chars.head?, test char = false)
    (ends : ∀ char ∈ chars.getLast?, test char = false) : TrimsTo test chars chars :=
  ⟨⟨[], [], by simp, List.forall_mem_nil _⟩, begins, ends⟩

/-- Trimming leaves a text between the characters that it cuts off. -/
theorem trimsTo_trim (test : Char → Bool) (chars : List Char) :
    TrimsTo test chars (dropEndWhile test (chars.dropWhile test)) := by
  let rest := chars.dropWhile test
  have whole : rest = dropEndWhile test rest ++ (rest.reverse.takeWhile test).reverse := by
    rw [dropEndWhile, ← List.reverse_append, List.takeWhile_append_dropWhile, List.reverse_reverse]
  refine ⟨⟨chars.takeWhile test, (rest.reverse.takeWhile test).reverse, ?_, ?_⟩, ?_, ?_⟩
  · rw [List.append_assoc, ← whole, List.takeWhile_append_dropWhile]
  · intro char member
    rcases List.mem_append.1 member with before | after
    · exact List.mem_takeWhile_imp before
    · exact List.mem_takeWhile_imp (List.mem_reverse.1 after)
  · intro char first
    -- What is kept is what `rest` begins with, and `rest` begins where the front is no longer cut.
    have begins : rest.head? = some char := by
      rw [whole, List.head?_append, first, Option.some_or]
    have stopped := List.head?_dropWhile_not test chars
    rw [show chars.dropWhile test = rest from rfl, begins] at stopped
    simpa using stopped
  · intro char last
    rw [dropEndWhile, List.getLast?_reverse] at last
    have stopped := List.head?_dropWhile_not test rest.reverse
    rw [last] at stopped
    simpa using stopped

/-- What is left of a text is found by trimming it. -/
theorem TrimsTo.trim_eq (trims : TrimsTo test chars core) :
    dropEndWhile test (chars.dropWhile test) = core := by
  obtain ⟨⟨lead, trail, rfl, cut⟩, begins, ends⟩ := trims
  cases core with
  | nil =>
    have nothing : (lead ++ [] ++ trail).dropWhile test = [] := by
      rw [List.dropWhile_eq_nil_iff, List.append_nil]
      exact cut
    rw [nothing]
    rfl
  | cons first rest =>
    have before : ∀ char ∈ lead, test char = true :=
      fun char member => cut char (List.mem_append_left _ member)
    have backwards : ∀ char ∈ trail.reverse, test char = true :=
      fun char member => cut char (List.mem_append_right _ (List.mem_reverse.1 member))
    have front : (lead ++ (first :: rest) ++ trail).dropWhile test = first :: rest ++ trail := by
      rw [List.append_assoc, List.dropWhile_append_of_pos before, List.cons_append,
        List.dropWhile_cons_of_neg (by rw [begins first rfl]; exact Bool.false_ne_true)]
    obtain ⟨last, final⟩ : ∃ last, (first :: rest).getLast? = some last :=
      Option.isSome_iff_exists.1 (List.getLast?_isSome.2 (List.cons_ne_nil first rest))
    have kept := dropEndWhile_of_getLast? final (ends last final)
    rw [front, dropEndWhile, List.reverse_append, List.dropWhile_append_of_pos backwards]
    exact kept

end RepoAtlas.Text
