/-
Module: RepoAtlas.Proofs.JsonPrefixes
Purpose: No part of a printed array or object that is cut off at its end is a document.
  Every token but a number shows where it ends, so a text that is cut inside of a string or between
  two tokens leaves the machine where no document may end.  A number that is cut may be another
  number; but inside of an array or object a value alone is not enough.  None of these texts is
  refused for its depth or for a long integer, since the whole text is not.
Main exports: readString_append, IsScalarText, Unfinished, unfinished_renderAt, read_torn
-/
import RepoAtlas.Proofs.JsonErrors
import Mathlib.Data.List.Infix

namespace RepoAtlas.Json

open Number Text.Utf8

variable {limit : Nat}

/-! ### Strings -/

theorem readLowHalf?_append {chars rest : List Char} {code : Nat}
    (read : readLowHalf? chars = some (code, rest)) (more : List Char) :
    readLowHalf? (chars ++ more) = some (code, rest ++ more) := by
  unfold readLowHalf? at read
  split at read
  · split at read
    · next value found =>
      split_ifs at read with low
      cases read
      simp [readLowHalf?, found, low]
    · cases read
  · cases read

/-- Where the second half of a pair shows only with more text, the string is not complete: the text
ends within the escape. -/
theorem readString_of_cut {chars more : List Char} (before : readLowHalf? chars = none)
    (after : readLowHalf? (chars ++ more) ≠ none) (done : Points) :
    readString done chars = none := by
  have escape : ∃ a b c d rest, chars ++ more = '\\' :: 'u' :: a :: b :: c :: d :: rest := by
    unfold readLowHalf? at after
    split at after
    · next a b c d rest _ => exact ⟨a, b, c, d, rest, ‹_›⟩
    · exact absurd rfl after
  obtain ⟨a, b, c, d, rest, escape⟩ := escape
  rcases chars with _ | ⟨first, _ | ⟨second, _ | ⟨a', _ | ⟨b', _ | ⟨c', _ | ⟨d', rest'⟩⟩⟩⟩⟩⟩
  · simp [readString]
  · obtain ⟨rfl, -⟩ := List.cons.inj escape
    simp [readString]
  all_goals
    simp only [List.cons_append, List.nil_append, List.cons.injEq] at escape
    obtain ⟨rfl, rfl, escape⟩ := escape
  · simp [readString, shortEscape?]
  · simp [readString, shortEscape?]
  · simp [readString, shortEscape?]
  · simp [readString, shortEscape?]
  · -- Six characters decide whether they are a second half.
    cases value : hexValue4? a' b' c' d' with
    | none => exact absurd (by simp [readLowHalf?, value]) after
    | some code =>
      by_cases low : isLowSurrogate code = true
      · simp [readLowHalf?, value, low] at before
      · exact absurd (by simp [readLowHalf?, value, low]) after

/-- A string that is complete is the same whatever follows it. -/
theorem readString_append {done text : Points} {chars rest : List Char}
    (read : readString done chars = some (text, rest)) (more : List Char) :
    readString done (chars ++ more) = some (text, rest ++ more) := by
  fun_induction readString done chars with
  | case1 | case3 | case8 | case9 => cases read
  | case2 =>
    cases read
    simp [readString]
  | case4 done a b c d chars code value high low tail found _ ih =>
    have found' := readLowHalf?_append found more
    simp only [List.cons_append]
    rw [readString, value]
    simp only [high, if_true]
    split
    · next found'' =>
      rw [found'] at found''
      cases found''
      exact ih read
    · next missing =>
      rw [found'] at missing
      cases missing
  | case5 done a b c d chars code value high missing ih =>
    simp only [List.cons_append]
    rw [readString, value]
    simp only [high, if_true]
    split
    · next found =>
      have shows : readLowHalf? (chars ++ more) ≠ none := by simp [found]
      rw [readString_of_cut missing shows] at read
      cases read
    · exact ih read
  | case6 done a b c d chars code value plain ih =>
    simp only [List.cons_append]
    rw [readString, value]
    simp only [plain]
    exact ih read
  | case7 done letter chars _ char short ih =>
    have notUnit : letter ≠ 'u' := by
      rintro rfl
      cases short
    rw [List.cons_append, List.cons_append, readString_shortEscape short notUnit]
    exact ih read
  | case10 done char chars notQuote _ _ kept ih =>
    obtain ⟨notEscape, visible⟩ := not_or.1 kept
    rw [List.cons_append, readString_plain notQuote notEscape (not_lt.1 visible)]
    exact ih read

/-- A printed string that is cut off is no token. -/
theorem readToken_of_cutString {text : Points} (unpaired : IsUnpaired text) {torn : List Char}
    (beginning : torn <+: renderString text) (cut : torn ≠ renderString text) :
    readToken torn = none := by
  obtain ⟨more, whole⟩ := beginning
  cases torn with
  | nil => rfl
  | cons first chars =>
    obtain rfl : first = '"' := (List.cons.inj whole).1
    cases read : readString [] chars with
    | none => simp [readToken, read]
    | some result =>
      obtain ⟨other, rest⟩ := result
      have complete := readToken_renderString unpaired []
      rw [List.append_nil, ← whole, List.cons_append] at complete
      simp only [readToken, readString_append read more, Option.map_some, Option.some.injEq,
        Prod.mk.injEq, List.append_eq_nil_iff] at complete
      rw [complete.2.2, List.append_nil] at whole
      exact absurd whole cut

/-! ### Words and numbers -/

theorem suffix_of_takeWord {word chars rest : List Char} (taken : takeWord word chars = some rest) :
    rest <:+ chars := by
  fun_induction takeWord word chars with
  | case1 => cases taken; exact List.suffix_rfl
  | case2 => cases taken
  | case3 _ _ _ ih => exact (ih taken).trans (List.suffix_cons _ _)
  | case4 => cases taken

theorem suffix_of_takeWhole {chars whole rest : List Char}
    (taken : takeWhole chars = some (whole, rest)) : rest <:+ chars := by
  unfold takeWhole at taken
  split at taken
  · cases taken
  · split_ifs at taken
    · cases taken
      exact List.suffix_cons _ _
    · cases taken
      exact (List.dropWhile_suffix _).trans (List.suffix_cons _ _)

theorem suffix_of_takeFraction {chars figures rest : List Char}
    (taken : takeFraction chars = some (figures, rest)) : rest <:+ chars := by
  unfold takeFraction at taken
  split at taken
  · simp only at taken
    split_ifs at taken
    cases taken
    exact (List.dropWhile_suffix _).trans (List.suffix_cons _ _)
  · cases taken

theorem suffix_takeSign (chars : List Char) : (takeSign chars).2 <:+ chars := by
  unfold takeSign
  split
  · exact List.suffix_cons _ _
  · exact List.suffix_cons _ _
  · exact List.suffix_rfl

theorem suffix_of_takeExponent {chars rest : List Char} {exponent : Int}
    (taken : takeExponent chars = some (exponent, rest)) : rest <:+ chars := by
  unfold takeExponent at taken
  split at taken
  · simp only at taken
    split_ifs at taken
    all_goals
      cases taken
      exact ((List.dropWhile_suffix _).trans (suffix_takeSign _)).trans (List.suffix_cons _ _)
  · cases taken

/-- Whether a token is a value, or would be one with fewer digits. -/
def Token.IsValue (token : Token) : Prop :=
  (∃ value, token = .scalar value) ∨ ∃ count, token = .oversized count

theorem isValue_integerToken (negative : Bool) (figures : List Char) :
    (integerToken negative figures).IsValue := by
  unfold integerToken
  split
  · exact .inr ⟨_, rfl⟩
  · exact .inl ⟨_, rfl⟩

theorem isValue_of_readNumber {negative : Bool} {chars rest : List Char} {token : Token}
    (read : readNumber negative chars = some (token, rest)) : token.IsValue ∧ rest <:+ chars := by
  unfold readNumber at read
  rw [Option.bind_eq_bind, Option.bind_eq_some_iff] at read
  obtain ⟨⟨whole, tail⟩, first, read⟩ := read
  have first := suffix_of_takeWhole first
  simp only at read
  split at read
  · next fraction after second =>
    have second := suffix_of_takeFraction second
    cases third : takeExponent after with
    | none =>
      simp only [third, Option.getD_none] at read
      cases read
      exact ⟨.inl ⟨_, rfl⟩, second.trans first⟩
    | some parts =>
      simp only [third, Option.getD_some] at read
      cases read
      exact ⟨.inl ⟨_, rfl⟩, ((suffix_of_takeExponent third).trans second).trans first⟩
  · split at read
    · next second =>
      cases read
      exact ⟨.inl ⟨_, rfl⟩, (suffix_of_takeExponent second).trans first⟩
    · cases read
      exact ⟨isValue_integerToken _ _, first⟩

theorem isValue_of_readWord {chars rest : List Char} {token : Token}
    {choices : List (List Char × Value)} (read : readWord chars choices = some (token, rest)) :
    token.IsValue ∧ rest <:+ chars := by
  induction choices with
  | nil => cases read
  | cons choice others ih =>
    unfold readWord at read
    split at read
    · next found =>
      cases read
      exact ⟨.inl ⟨_, rfl⟩, suffix_of_takeWord found⟩
    · exact ih read

/-- Whether a character may stand in a word or number: it is neither white space nor a bracket,
separator or quotation mark. -/
def isPlain (char : Char) : Bool :=
  !(isSpace char || ['[', ']', '\x7b', '\x7d', ',', ':', '"'].contains char)

theorem isPlain_of_isPlainDigit {char : Char} (digit : isPlainDigit char = true) :
    isPlain char = true := by
  by_contra mark
  simp only [isPlain, isSpace, Bool.not_eq_true', Bool.not_eq_false, Bool.or_eq_true,
    decide_eq_true_eq, List.contains_iff_mem, List.mem_cons, List.not_mem_nil, or_false] at mark
  rcases mark with (((rfl | rfl) | rfl) | rfl) | rfl | rfl | rfl | rfl | rfl | rfl | rfl <;>
    exact absurd digit (by decide)

/-- From words and numbers only values are taken. -/
theorem isValue_of_readToken {chars rest : List Char} {token : Token}
    (plain : ∀ char ∈ chars, isPlain char = true) (read : readToken chars = some (token, rest)) :
    token.IsValue ∧ rest <:+ chars := by
  have mark {char : Char} (here : char ∈ chars) (special : isPlain char = false) : False := by
    rw [plain char here] at special
    cases special
  unfold readToken at read
  split at read
  · cases read
  · exact (mark (by simp) (by decide : isPlain '[' = false)).elim
  · exact (mark (by simp) (by decide : isPlain ']' = false)).elim
  · exact (mark (by simp) (by decide : isPlain ',' = false)).elim
  · exact (mark (by simp) (by decide : isPlain ':' = false)).elim
  · exact (mark (by simp) (by decide : isPlain '"' = false)).elim
  · next char tail _ _ _ _ _ =>
    have opens : char ≠ '\x7b' := by
      rintro rfl
      exact mark (by simp) (by decide : isPlain '\x7b' = false)
    have closes : char ≠ '\x7d' := by
      rintro rfl
      exact mark (by simp) (by decide : isPlain '\x7d' = false)
    rw [if_neg opens, if_neg closes] at read
    split at read
    · next found =>
      cases read
      exact isValue_of_readWord found
    · split_ifs at read
      · obtain ⟨value, later⟩ := isValue_of_readNumber read
        exact ⟨value, later.trans (List.suffix_cons _ _)⟩
      · exact isValue_of_readNumber read

/-- The texts of words and numbers with few digits in front. -/
structure IsScalarText (text : List Char) : Prop where
  plain : ∀ char ∈ text, isPlain char = true
  short : ∀ negative figures rest, text = signText negative ++ (figures ++ rest) →
    (∀ figure ∈ figures, isPlainDigit figure = true) → figures.length ≤ integerDigitLimit

theorem IsScalarText.of_prefix {torn text : List Char} (scalar : IsScalarText text)
    (beginning : torn <+: text) : IsScalarText torn := by
  obtain ⟨more, rfl⟩ := beginning
  constructor
  · intro char member
    exact scalar.plain char (List.mem_append_left more member)
  · rintro negative figures rest rfl areDigits
    exact scalar.short negative figures (rest ++ more) (by simp) areDigits

/-- Digits that end before a text are no longer than the digits in front of it. -/
theorem length_le_of_append_eq {figures more whole rest : List Char}
    (areDigits : ∀ figure ∈ figures, isPlainDigit figure = true) (ends : EndsDigits rest)
    (same : figures ++ more = whole ++ rest) : figures.length ≤ whole.length := by
  by_contra longer
  obtain ⟨further, rfl⟩ : whole <+: figures :=
    List.prefix_of_prefix_length_le ⟨rest, same.symm⟩ ⟨more, rfl⟩ (by omega)
  rw [List.append_assoc, List.append_cancel_left_eq] at same
  cases further with
  | nil => simp at longer
  | cons figure others =>
    have digit := areDigits figure (by simp)
    rw [ends figure (by rw [← same]; rfl)] at digit
    cases digit

/-- A text that begins with few digits, after which comes neither digit nor sign. -/
def HasFewDigits (text : List Char) : Prop :=
  ∃ whole rest, text = whole ++ rest ∧ (∀ figure ∈ whole, isPlainDigit figure = true) ∧
    whole.length ≤ integerDigitLimit ∧ (∀ char ∈ rest, isPlain char = true) ∧
    ∀ char ∈ rest.head?, isPlainDigit char = false ∧ char ≠ '-'

/-- Few digits after a sign. -/
theorem HasFewDigits.isScalarText {text : List Char} (digits : HasFewDigits text)
    (negative : Bool) : IsScalarText (signText negative ++ text) := by
  obtain ⟨whole, rest, rfl, areDigits, few, plain, ends⟩ := digits
  have unsigned : ∀ chars, whole ++ rest ≠ '-' :: chars := by
    intro chars same
    cases whole with
    | nil => exact (ends '-' (by rw [List.nil_append] at same; simp [same])).2 rfl
    | cons figure others =>
      have digit := areDigits figure (by simp)
      rw [(List.cons.inj same).1] at digit
      cases digit
  constructor
  · intro char member
    rcases List.mem_append.1 member with sign | member
    · cases negative with
      | false => cases sign
      | true => rw [List.mem_singleton.1 sign]; decide
    · rcases List.mem_append.1 member with figure | later
      · exact isPlain_of_isPlainDigit (areDigits char figure)
      · exact plain char later
  · intro negative' figures more same areDigits'
    cases negative <;> cases negative'
    · exact (length_le_of_append_eq areDigits' (fun char member => (ends char member).1)
        same.symm).trans few
    · exact absurd same (unsigned _)
    · -- A digit cannot stand where the sign does.
      cases figures with
      | nil => simp
      | cons figure others =>
        have digit := areDigits' figure (by simp)
        rw [← (List.cons.inj same).1] at digit
        cases digit
    · exact (length_le_of_append_eq areDigits' (fun char member => (ends char member).1)
        (List.cons.inj same).2.symm).trans few

theorem isScalarText_integerText {value : Int} (short : isShortInteger value = true) :
    IsScalarText (integerText value).toList := by
  have text : (integerText value).toList =
      signText (decide (value < 0)) ++ digits value.natAbs := by
    simp [integerText, signText]
  have few : HasFewDigits (digits value.natAbs) :=
    ⟨digits value.natAbs, [], by simp, fun _ => isPlainDigit_of_mem_digits,
      of_decide_eq_true short, by simp, by simp⟩
  rw [text]
  exact few.isScalarText _

theorem isScalarText_word (negative : Bool) (word : List Char)
    (plain : word.all isPlain = true)
    (ends : word.head?.all (fun char => !isPlainDigit char && char ≠ '-') = true) :
    IsScalarText (signText negative ++ word) := by
  refine HasFewDigits.isScalarText ⟨[], word, rfl, by simp, Nat.zero_le _,
    List.all_eq_true.1 plain, ?_⟩ negative
  intro char member
  rw [Option.mem_def.1 member] at ends
  simpa using ends

theorem isPlain_of_mem_point {fraction : List Char}
    (areDigits : ∀ figure ∈ fraction, isPlainDigit figure = true) {char : Char}
    (member : char ∈ '.' :: fraction) : isPlain char = true := by
  rcases List.mem_cons.1 member with rfl | figure
  · decide
  · exact isPlain_of_isPlainDigit (areDigits char figure)

theorem point_ends (rest : List Char) {char : Char} (member : char ∈ ('.' :: rest).head?) :
    isPlainDigit char = false ∧ char ≠ '-' := by
  cases member
  decide

/-- The point comes early, unless the number is large. -/
theorem hasFewDigits_positional {figures : List Char} {leading : Int}
    (areDigits : ∀ figure ∈ figures, isPlainDigit figure = true) (small : leading < 16) :
    HasFewDigits (RealLayout.positional figures leading) := by
  have limit : 16 ≤ integerDigitLimit := by decide
  unfold RealLayout.positional
  simp only
  split_ifs with negative long
  · have fractional : ∀ figure ∈ List.replicate (-leading - 1).toNat '0' ++ figures,
        isPlainDigit figure = true := by
      intro figure member
      exact (List.mem_append.1 member).elim isPlainDigit_of_mem_zeros (areDigits figure)
    exact ⟨['0'], _, rfl, List.all_eq_true.1 rfl, by decide,
      fun _ => isPlain_of_mem_point fractional, fun _ => point_ends _⟩
  · have whole : ∀ figure ∈ figures ++ List.replicate (leading.toNat + 1 - figures.length) '0',
        isPlainDigit figure = true := by
      intro figure member
      exact (List.mem_append.1 member).elim (areDigits figure) isPlainDigit_of_mem_zeros
    refine ⟨_, ['.', '0'], rfl, whole, ?_, List.all_eq_true.1 rfl, fun _ => point_ends _⟩
    rw [List.length_append, List.length_replicate]
    omega
  · refine ⟨figures.take (leading.toNat + 1), '.' :: figures.drop (leading.toNat + 1),
      List.append_assoc _ _ _, ?_, ?_, ?_, fun _ => point_ends _⟩
    · exact fun figure member => areDigits figure (List.mem_of_mem_take member)
    · exact (List.length_take_le _ _).trans (by omega)
    · exact fun _ => isPlain_of_mem_point
        (fun figure member => areDigits figure (List.mem_of_mem_drop member))

theorem isPlain_of_mem_exponentText {layout : RealLayout} {exponent : Int} {char : Char}
    (member : char ∈ layout.exponentText exponent) : isPlain char = true := by
  rcases List.mem_append.1 member with front | figure
  · rcases List.mem_append.1 front with mark | zero
    · rcases List.mem_cons.1 mark with rfl | sign
      · decide
      · rw [List.mem_singleton.1 sign]
        split <;> decide
    · exact isPlain_of_isPlainDigit (isPlainDigit_of_mem_zeros zero)
  · exact isPlain_of_isPlainDigit (isPlainDigit_of_mem_digits figure)

theorem hasFewDigits_scientific (layout : RealLayout) {figures : List Char} (leading : Int)
    (areDigits : ∀ figure ∈ figures, isPlainDigit figure = true) :
    HasFewDigits (layout.scientific figures leading) := by
  have fractional : ∀ figure ∈ figures.drop 1, isPlainDigit figure = true :=
    fun figure member => areDigits figure (List.mem_of_mem_drop member)
  refine ⟨figures.take 1, _, List.append_assoc _ _ _,
    fun figure member => areDigits figure (List.mem_of_mem_take member),
    (List.length_take_le 1 figures).trans (by decide), ?_, ?_⟩
  · intro char member
    rcases List.mem_append.1 member with fraction | exponent
    · split_ifs at fraction with whole
      · cases fraction
      · exact isPlain_of_mem_point fractional fraction
    · exact isPlain_of_mem_exponentText exponent
  · intro char member
    split_ifs at member
    · cases member
      decide
    · exact point_ends _ member

theorem hasFewDigits_renderPositive (mantissa : Nat) (exponent : Int) :
    HasFewDigits (documentLayout.renderPositive mantissa exponent) := by
  have areDigits (value : Nat) : ∀ figure ∈ ((digits value).reverse.dropWhile (· == '0')).reverse,
      isPlainDigit figure = true := by
    intro figure member
    have kept := (List.dropWhile_sublist (· == '0')).mem (List.mem_reverse.1 member)
    exact isPlainDigit_of_mem_digits (List.mem_reverse.1 kept)
  unfold RealLayout.renderPositive
  simp only
  split
  · next range => exact hasFewDigits_positional (areDigits _) range.2
  · exact hasFewDigits_scientific _ _ (areDigits _)

theorem isScalarText_documentLayout (value : Binary64) :
    IsScalarText (documentLayout.render value).toList := by
  cases value with
  | nan => exact isScalarText_word false "NaN".toList rfl rfl
  | infinite negative =>
    cases negative with
    | false => exact isScalarText_word false "Infinity".toList rfl rfl
    | true => exact isScalarText_word true "Infinity".toList rfl rfl
  | finite negative mantissa exponent =>
    have few : HasFewDigits (if mantissa = 0 then ['0', '.', '0']
        else documentLayout.renderPositive mantissa exponent) := by
      split
      · exact ⟨['0'], ['.', '0'], rfl, List.all_eq_true.1 rfl, by decide, List.all_eq_true.1 rfl,
          fun _ => point_ends _⟩
      · exact hasFewDigits_renderPositive mantissa exponent
    rw [RealLayout.render, String.toList_ofList]
    exact few.isScalarText negative

/-! ### Texts that are cut off -/

/-- A text whose proper beginnings are all malformed where the machine is. -/
def Unfinished (limit : Nat) (state : State) (text : List Char) : Prop :=
  ∀ torn, torn <+: text → torn ≠ text → run limit state torn = .error .malformed

theorem unfinished_nil (state : State) : Unfinished limit state [] := by
  intro torn beginning cut
  exact absurd (List.prefix_nil.1 beginning) cut

/-- A part that takes the machine on to where the rest is unfinished. -/
theorem Unfinished.append {state next : State} {first second : List Char}
    (cutFirst : Unfinished limit state first)
    (taken : ∀ rest, rest <+: second → run limit state (first ++ rest) = run limit next rest)
    (cutSecond : Unfinished limit next second) : Unfinished limit state (first ++ second) := by
  intro torn beginning cut
  by_cases early : first <+: torn
  · obtain ⟨rest, rfl⟩ := early
    have later := (List.prefix_append_right_inj first).1 beginning
    rw [taken rest later]
    apply cutSecond rest later
    rintro rfl
    exact cut rfl
  · have within := List.prefix_or_prefix_of_prefix beginning (List.prefix_append first second)
    apply cutFirst torn (within.resolve_right early)
    rintro rfl
    exact early List.prefix_rfl

/-- A mark that takes the machine on, at a place where no document may end. -/
theorem Unfinished.cons {state next : State} {char : Char} {text : List Char}
    (pending : state.result = .error .malformed)
    (taken : ∀ rest, run limit state (char :: rest) = run limit next rest)
    (cut : Unfinished limit next text) : Unfinished limit state (char :: text) := by
  intro torn beginning shorter
  cases torn with
  | nil => rw [run_nil, pending]
  | cons first rest =>
    obtain ⟨rfl, later⟩ := List.cons_prefix_cons.1 beginning
    rw [taken rest]
    apply cut rest later
    rintro rfl
    exact shorter rfl

/-- White space in front of an unfinished text. -/
theorem Unfinished.lineBreak {state : State} {text : List Char}
    (pending : state.result = .error .malformed) (cut : Unfinished limit state text) (level : Nat) :
    Unfinished limit state (lineBreak level ++ text) := by
  refine Unfinished.append ?_ (fun rest _ => run_lineBreak state level rest) cut
  intro torn beginning _
  have blank : ∀ char ∈ torn, isSpace char = true := by
    intro char member
    rcases List.mem_cons.1 (beginning.subset member) with rfl | space
    · decide
    · rw [List.eq_of_mem_replicate space]
      decide
  rw [← List.append_nil torn, run_append_spaces torn blank, run_nil, pending]

/-- A document ends only after a finished value. -/
theorem result_of_ne_separator {expecting : Expecting}
    (missing : ∀ finished, expecting ≠ .separator finished) (frames : List Frame) :
    State.result ⟨frames, expecting⟩ = .error .malformed := by
  cases expecting with
  | separator finished => exact absurd rfl (missing finished)
  | _ => cases frames <;> rfl

theorem result_of_admitsValue {expecting : Expecting} (admits : expecting.AdmitsValue)
    (frames : List Frame) : State.result ⟨frames, expecting⟩ = .error .malformed := by
  rcases admits with rfl | rfl <;> exact result_of_ne_separator (by simp) frames

/-- A document ends only outside of all arrays and objects. -/
theorem result_of_frames {frames : List Frame} (inside : frames ≠ []) (expecting : Expecting) :
    State.result ⟨frames, expecting⟩ = .error .malformed := by
  cases frames with
  | nil => exact absurd rfl inside
  | cons frame outer => rfl

theorem dropWhile_isSpace_of_plain {chars : List Char}
    (plain : ∀ char ∈ chars, isPlain char = true) : chars.dropWhile isSpace = chars := by
  cases chars with
  | nil => rfl
  | cons char rest =>
    have visible := plain char (by simp)
    rw [isPlain, Bool.not_eq_true', Bool.or_eq_false_iff] at visible
    exact List.dropWhile_cons_of_neg (by simp [visible.1])

theorem stepSeparator_of_isValue {token : Token} (value : token.IsValue) (frames : List Frame)
    (finished : Value) : stepSeparator frames finished token = .error .malformed := by
  rcases value with ⟨value, rfl⟩ | ⟨count, rfl⟩
  all_goals
    cases frames with
    | nil => rfl
    | cons frame outer => cases frame <;> rfl

theorem run_separator_of_plain {frames : List Frame} (inside : frames ≠ []) (finished : Value)
    {chars : List Char} (plain : ∀ char ∈ chars, isPlain char = true) :
    run limit ⟨frames, .separator finished⟩ chars = .error .malformed := by
  rw [run_eq, dropWhile_isSpace_of_plain plain]
  split
  · exact result_of_frames inside _
  · split
    · rfl
    · next token rest read =>
      have stopped := stepSeparator_of_isValue (isValue_of_readToken plain read).1 frames finished
      simp only [step, stopped]

/-- Inside of an array or object no word or number is enough. -/
theorem run_of_isScalarText {frames : List Frame} (inside : frames ≠ []) {expecting : Expecting}
    (admits : expecting.AdmitsValue) {chars : List Char} (scalar : IsScalarText chars) :
    run limit ⟨frames, expecting⟩ chars = .error .malformed := by
  rw [run_eq, dropWhile_isSpace_of_plain scalar.plain]
  split
  · exact result_of_frames inside _
  · split
    · rfl
    · next token rest read =>
      obtain ⟨value, later⟩ := isValue_of_readToken scalar.plain read
      rcases value with ⟨value, rfl⟩ | ⟨count, rfl⟩
      · rw [step_of_admitsValue admits (by simp)]
        exact run_separator_of_plain inside value
          (fun char member => scalar.plain char (later.subset member))
      · obtain ⟨negative, figures, text, rfl, long⟩ := (readToken_eq_oversized_iff _ _ _).1 read
        exact absurd (scalar.short negative figures rest text long.areDigits) (not_le.2 long.long)


theorem unfinished_scalar {frames : List Frame} (inside : frames ≠ []) {expecting : Expecting}
    (admits : expecting.AdmitsValue) {text : List Char} (scalar : IsScalarText text) :
    Unfinished limit ⟨frames, expecting⟩ text := by
  intro torn beginning _
  exact run_of_isScalarText inside admits (scalar.of_prefix beginning)

theorem unfinished_renderString {state : State} (pending : state.result = .error .malformed)
    {text : Points} (unpaired : IsUnpaired text) : Unfinished limit state (renderString text) := by
  intro torn beginning cut
  have visible : torn.dropWhile isSpace = torn := by
    cases torn with
    | nil => rfl
    | cons first rest =>
      obtain ⟨rfl, _⟩ := List.cons_prefix_cons.1 beginning
      rfl
  rw [run_eq, visible, readToken_of_cutString unpaired beginning cut]
  split
  · exact pending
  · rfl

theorem unfinished_key {frames : List Frame} {expecting : Expecting}
    {done : OrderedMap Points Value} {key : Points}
    (admits : expecting = .firstKey ∧ done = {} ∨ expecting = .nextKey done)
    (unpaired : IsUnpaired key) {text : List Char}
    (cut : Unfinished limit ⟨.members done key :: frames, .value⟩ text) :
    Unfinished limit ⟨frames, expecting⟩ (renderString key ++ (':' :: ' ' :: text)) := by
  have beforeKey : State.result ⟨frames, expecting⟩ = .error .malformed := by
    rcases admits with ⟨rfl, rfl⟩ | rfl <;> exact result_of_ne_separator (by simp) frames
  have spaced : Unfinished limit ⟨.members done key :: frames, .value⟩ (' ' :: text) :=
    cut.cons rfl (fun rest => run_append_spaces [' '] (List.forall_mem_singleton.2 rfl) _ rest)
  have afterKey : Unfinished limit ⟨frames, .colon done key⟩ (':' :: ' ' :: text) :=
    spaced.cons (result_of_ne_separator (by simp) frames) (fun _ => run_colon)
  apply (unfinished_renderString beforeKey unpaired).append _ afterKey
  intro rest _
  exact run_of_readToken _ (readToken_renderString unpaired rest) (step_key admits key)

theorem EndsNumber.of_prefix {rest text : List Char} (ends : EndsNumber text)
    (beginning : rest <+: text) : EndsNumber rest := by
  intro char member
  obtain ⟨more, rfl⟩ := beginning
  apply ends char
  rw [List.head?_append, Option.mem_def.1 member]
  rfl

/-- The text of a value and what follows it, after which the value is finished. -/
theorem unfinished_renderAt_append {value : Value} {room level : Nat} {frames : List Frame}
    {expecting : Expecting} {text : List Char} (fits : value.FitsWithin room)
    (writable : value.isWritable = true) (shallow : frames.length + room ≤ limit)
    (admits : expecting.AdmitsValue) (ends : EndsNumber text)
    (cut : Unfinished limit ⟨frames, expecting⟩ (renderAt level value))
    (later : Unfinished limit ⟨frames, .separator value.readBack⟩ text) :
    Unfinished limit ⟨frames, expecting⟩ (renderAt level value ++ text) := by
  apply cut.append _ later
  intro rest beginning
  exact run_renderAt value fits writable shallow admits (ends.of_prefix beginning)

/-- Whether a value is an array or object. -/
def Value.HasParts : Value → Prop
  | .array _ | .object _ => True
  | .null | .boolean _ | .integer _ | .real _ | .string _ => False

mutual

/-- The text of a value is unfinished until its end, where a value alone is not enough or the value
shows itself where it ends.  The induction follows the machine through the text of the value. -/
theorem unfinished_renderAt : ∀ (value : Value) {room level : Nat} {frames : List Frame}
    {expecting : Expecting}, value.FitsWithin room → value.isWritable = true →
      frames.length + room ≤ limit → expecting.AdmitsValue →
      frames ≠ [] ∨ value.HasParts →
      Unfinished limit ⟨frames, expecting⟩ (renderAt level value)
  | .null, _, _, _, _, _, _, _, admits, inside => by
    rw [renderAt]
    exact unfinished_scalar (inside.resolve_right id) admits
      (isScalarText_word false _ rfl rfl)
  | .boolean true, _, _, _, _, _, _, _, admits, inside => by
    rw [renderAt]
    exact unfinished_scalar (inside.resolve_right id) admits
      (isScalarText_word false _ rfl rfl)
  | .boolean false, _, _, _, _, _, _, _, admits, inside => by
    rw [renderAt]
    exact unfinished_scalar (inside.resolve_right id) admits
      (isScalarText_word false _ rfl rfl)
  | .integer value, _, _, _, _, _, writable, _, admits, inside => by
    have short : isShortInteger value = true := by
      simpa only [Value.isWritable] using writable
    rw [renderAt]
    exact unfinished_scalar (inside.resolve_right id) admits (isScalarText_integerText short)
  | .real value, _, _, _, _, _, _, _, admits, inside => by
    rw [renderAt]
    exact unfinished_scalar (inside.resolve_right id) admits (isScalarText_documentLayout value)
  | .string value, _, _, frames, _, unpaired, _, _, admits, _ => by
    rw [renderAt]
    exact unfinished_renderString (result_of_admitsValue admits frames) unpaired
  | .array [], room, level, frames, expecting, fits, _, shallow, admits, _ => by
    simp only [Value.FitsWithin] at fits
    have closed : Unfinished limit ⟨.items [] :: frames, .firstItem⟩ [']'] :=
      (unfinished_nil _).cons rfl (fun _ => run_closeEmptyArray)
    rw [renderAt]
    exact closed.cons (result_of_admitsValue admits frames)
      (fun _ => run_openArray admits (by omega))
  | .array (first :: items), room, level, frames, expecting, fits, writable, shallow,
      admits, _ => by
    simp only [Value.FitsWithin, ItemsFitWithin] at fits
    simp only [Value.isWritable, areWritableItems, Bool.and_eq_true] at writable
    have text : renderAt level (.array (first :: items)) =
        '[' :: (lineBreak (level + 1) ++ (renderAt (level + 1) first ++
          (renderItems (level + 1) items ++ (lineBreak level ++ [']'])))) := by
      simp [renderAt]
    have deeper : (Frame.items [] :: frames).length + (room - 1) ≤ limit := by
      simp only [List.length_cons]
      omega
    have nested : Frame.items [] :: frames ≠ [] := List.cons_ne_nil _ _
    rw [text]
    apply Unfinished.cons (result_of_admitsValue admits frames)
      (fun _ => run_openArray admits (by omega))
    apply Unfinished.lineBreak rfl
    exact unfinished_renderAt_append fits.2.1 writable.1 deeper (.inr rfl)
      (endsNumber_renderItems _ _ _ _)
      (unfinished_renderAt first fits.2.1 writable.1 deeper (.inr rfl) (.inl nested))
      (unfinished_renderItems items fits.2.2 writable.2 deeper)
  | .object [], room, level, frames, expecting, fits, _, shallow, admits, _ => by
    simp only [Value.FitsWithin] at fits
    have closed : Unfinished limit ⟨frames, .firstKey⟩ ['\x7d'] :=
      (unfinished_nil _).cons (result_of_ne_separator (by simp) frames)
        (fun _ => run_closeEmptyObject)
    rw [renderAt]
    exact closed.cons (result_of_admitsValue admits frames)
      (fun _ => run_openObject admits (by omega))
  | .object ((key, first) :: members), room, level, frames, expecting, fits, writable,
      shallow, admits, _ => by
    simp only [Value.FitsWithin, MembersFitWithin] at fits
    simp only [Value.isWritable, areWritableMembers, Bool.and_eq_true] at writable
    have text : renderAt level (.object ((key, first) :: members)) =
        '\x7b' :: (lineBreak (level + 1) ++ (renderString key ++ (':' :: ' ' ::
          (renderAt (level + 1) first ++ (renderMembers (level + 1) members ++
            (lineBreak level ++ ['\x7d'])))))) := by
      simp [renderAt]
    have deeper : (Frame.members {} key :: frames).length + (room - 1) ≤ limit := by
      simp only [List.length_cons]
      omega
    have nested : Frame.members {} key :: frames ≠ [] := List.cons_ne_nil _ _
    rw [text]
    apply Unfinished.cons (result_of_admitsValue admits frames)
      (fun _ => run_openObject admits (by omega))
    apply Unfinished.lineBreak (result_of_ne_separator (by simp) frames)
    apply unfinished_key (.inl ⟨rfl, rfl⟩) fits.2.2.1
    exact unfinished_renderAt_append fits.2.2.2.1 writable.1 deeper (.inl rfl)
      (endsNumber_renderMembers _ _ _ _)
      (unfinished_renderAt first fits.2.2.2.1 writable.1 deeper (.inl rfl) (.inl nested))
      (unfinished_renderMembers members fits.2.2.2.2 writable.2 deeper)

/-- After a finished item, the text of the further items is unfinished until the array ends. -/
theorem unfinished_renderItems : ∀ (items : List Value) {room level outer : Nat}
    {frames : List Frame} {done : List Value} {finished : Value}, ItemsFitWithin room items →
      areWritableItems items = true → (Frame.items done :: frames).length + room ≤ limit →
      Unfinished limit ⟨.items done :: frames, .separator finished⟩
        (renderItems level items ++ (lineBreak outer ++ [']']))
  | [], _, _, outer, frames, done, finished, _, _, _ => by
    rw [renderItems, List.nil_append]
    exact ((unfinished_nil _).cons rfl (fun _ => run_closeArray)).lineBreak rfl outer
  | item :: items, room, level, outer, frames, done, finished, fits, writable, shallow => by
    simp only [ItemsFitWithin] at fits
    simp only [areWritableItems, Bool.and_eq_true] at writable
    have text : renderItems level (item :: items) ++ (lineBreak outer ++ [']']) =
        ',' :: (lineBreak level ++ (renderAt level item ++
          (renderItems level items ++ (lineBreak outer ++ [']'])))) := by
      simp [renderItems]
    have deeper : (Frame.items (finished :: done) :: frames).length + room ≤ limit := shallow
    have nested : Frame.items (finished :: done) :: frames ≠ [] := List.cons_ne_nil _ _
    rw [text]
    apply Unfinished.cons rfl (fun _ => run_itemComma)
    apply Unfinished.lineBreak rfl
    exact unfinished_renderAt_append fits.1 writable.1 deeper (.inl rfl)
      (endsNumber_renderItems _ _ _ _)
      (unfinished_renderAt item fits.1 writable.1 deeper (.inl rfl) (.inl nested))
      (unfinished_renderItems items fits.2 writable.2 deeper)

/-- After a finished member, the text of the further members is unfinished until the object ends. -/
theorem unfinished_renderMembers : ∀ (members : List (Points × Value)) {room level outer : Nat}
    {frames : List Frame} {done : OrderedMap Points Value} {key : Points} {finished : Value},
      MembersFitWithin room members → areWritableMembers members = true →
      (Frame.members done key :: frames).length + room ≤ limit →
      Unfinished limit ⟨.members done key :: frames, .separator finished⟩
        (renderMembers level members ++ (lineBreak outer ++ ['\x7d']))
  | [], _, _, outer, frames, done, key, finished, _, _, _ => by
    rw [renderMembers, List.nil_append]
    exact ((unfinished_nil _).cons rfl (fun _ => run_closeObject)).lineBreak rfl outer
  | (name, value) :: members, room, level, outer, frames, done, key, finished, fits, writable,
      shallow => by
    simp only [MembersFitWithin] at fits
    simp only [areWritableMembers, Bool.and_eq_true] at writable
    have text : renderMembers level ((name, value) :: members) ++
        (lineBreak outer ++ ['\x7d']) =
        ',' :: (lineBreak level ++ (renderString name ++ (':' :: ' ' :: (renderAt level value ++
          (renderMembers level members ++ (lineBreak outer ++ ['\x7d'])))))) := by
      simp [renderMembers]
    have deeper : (Frame.members (done.insert key finished) name :: frames).length + room ≤
        limit := shallow
    have nested : Frame.members (done.insert key finished) name :: frames ≠ [] :=
      List.cons_ne_nil _ _
    rw [text]
    apply Unfinished.cons rfl (fun _ => run_memberComma)
    apply Unfinished.lineBreak (result_of_ne_separator (by simp) frames)
    apply unfinished_key (.inr rfl) fits.1
    exact unfinished_renderAt_append fits.2.1 writable.1 deeper (.inl rfl)
      (endsNumber_renderMembers _ _ _ _)
      (unfinished_renderAt value fits.2.1 writable.1 deeper (.inl rfl) (.inl nested))
      (unfinished_renderMembers members fits.2.2 writable.2 deeper)

end

/-- No proper beginning of a printed array or object is a document, and none is refused for anything
but its grammar. -/
theorem read_torn {value : Value} (fits : value.FitsWithin limit)
    (writable : value.isWritable = true) (parts : value.HasParts) {torn : List Char}
    (beginning : torn <+: render value) (cut : torn ≠ render value) :
    read limit torn = .error .malformed :=
  unfinished_renderAt value fits writable (by simp) (.inl rfl) (.inr parts) torn beginning cut

end RepoAtlas.Json
