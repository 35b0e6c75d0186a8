/-
Module: RepoAtlas.Proofs.StraySurrogates
Purpose: The texts that an analysis cannot take.
  A surrogate from `0xDC80` to `0xDCFF` stands for a byte; any other is stray and has none.  The
  library's parser passes over a text with surrogates, but a fingerprint needs the bytes.  Files that
  the last snapshot records are fingerprinted for the comparison, and then all files are for the new
  snapshot, so an analysis fails exactly on a stray surrogate and names the first one in that order.
Main exports: CodePoint.IsStray, FirstStray, findUnencodable_eq_some_iff, Content.HasStraySurrogate,
  Content.fingerprint_eq_error_iff, FirstFlaw, fingerprinted, analyze_eq_error_iff,
  analyze_fails_iff_hasStraySurrogate
-/
import RepoAtlas.Proofs.EscapedReading
import RepoAtlas.Proofs.RunHistory

namespace RepoAtlas

/-! ### The first stray surrogate of a text -/

namespace Text.Utf8

/-- Whether a code point is a surrogate that stands for no byte. -/
def CodePoint.IsStray : CodePoint → Prop
  | .scalar _ => False
  | .surrogate offset => ¬ (0xDC80 ≤ 0xD800 + offset.val ∧ 0xD800 + offset.val ≤ 0xDCFF)

theorem CodePoint.isStray_surrogate_iff (offset : Fin 0x800) :
    (surrogate offset).IsStray ↔ isEscape offset = false := by
  simp only [IsStray, isEscape, Bool.and_eq_false_iff, decide_eq_false_iff_not]
  omega

theorem CodePoint.not_isStray_iff (point : CodePoint) : ¬ point.IsStray ↔ point.IsWritable := by
  cases point with
  | scalar char => exact iff_of_true not_false trivial
  | surrogate offset => rw [isStray_surrogate_iff, IsWritable, Bool.not_eq_false]

/-- What is said of a text with stray surrogates: where the first one stands, which it is, and how
many surrogates of any kind follow one another from it on. -/
inductive FirstStray : List CodePoint → Unencodable → Prop where
  | mk {before after : List CodePoint} {offset : Fin 0x800}
      (clean : ∀ point ∈ before, ¬ point.IsStray) (stray : (CodePoint.surrogate offset).IsStray) :
    FirstStray (before ++ .surrogate offset :: after)
      ⟨before.length, offset, 1 + (after.takeWhile CodePoint.isSurrogate).length⟩

section Search

variable {rest : List CodePoint}

theorem findUnencodable_cons_of_stray {offset : Fin 0x800}
    (stray : (CodePoint.surrogate offset).IsStray) (position : Nat) :
    findUnencodable position (.surrogate offset :: rest) =
      some ⟨position, offset, 1 + (rest.takeWhile CodePoint.isSurrogate).length⟩ := by
  have escapes := (CodePoint.isStray_surrogate_iff offset).1 stray
  simp [findUnencodable, escapes]

theorem findUnencodable_cons_of_not_stray {point : CodePoint} (clean : ¬ point.IsStray)
    (position : Nat) :
    findUnencodable position (point :: rest) = findUnencodable (position + 1) rest := by
  cases point with
  | scalar char => rfl
  | surrogate offset =>
    rw [CodePoint.isStray_surrogate_iff, Bool.not_eq_false] at clean
    rw [findUnencodable, if_pos clean]

/-- The search gives the first stray surrogate, with its place counted from `position`. -/
theorem findUnencodable_eq_some_iff (position : Nat) (points : List CodePoint)
    (flaw : Unencodable) :
    findUnencodable position points = some flaw ↔
      ∃ before offset after, points = before ++ .surrogate offset :: after ∧
        (∀ point ∈ before, ¬ point.IsStray) ∧ (CodePoint.surrogate offset).IsStray ∧
        flaw = ⟨position + before.length, offset,
          1 + (after.takeWhile CodePoint.isSurrogate).length⟩ := by
  -- Each clean code point that is passed joins what stands before the first stray one.
  induction points generalizing position with
  | nil => simp [findUnencodable]
  | cons point rest ih =>
    by_cases clean : ¬ point.IsStray
    · rw [findUnencodable_cons_of_not_stray clean, ih]
      constructor
      · rintro ⟨before, offset, after, rfl, earlier, stray, rfl⟩
        refine ⟨point :: before, offset, after, rfl, ?_, stray, ?_⟩
        · exact List.forall_mem_cons.2 ⟨clean, earlier⟩
        · rw [List.length_cons, Nat.add_right_comm, Nat.add_assoc]
      · rintro ⟨before, offset, after, split, earlier, stray, rfl⟩
        cases before with
        | nil =>
          cases split
          exact absurd stray clean
        | cons head before =>
          cases split
          refine ⟨before, offset, after, rfl, (List.forall_mem_cons.1 earlier).2, stray, ?_⟩
          rw [List.length_cons, Nat.add_right_comm, Nat.add_assoc]
    · rw [not_not] at clean
      cases point with
      | scalar char => cases clean
      | surrogate first =>
        rw [findUnencodable_cons_of_stray clean, Option.some_inj]
        constructor
        · rintro rfl
          exact ⟨[], first, rest, rfl, by simp, clean, rfl⟩
        · rintro ⟨before, offset, after, split, earlier, stray, rfl⟩
          cases before with
          | nil =>
            cases split
            rfl
          | cons head before =>
            cases split
            exact absurd clean (earlier _ (by simp))

theorem firstStray_iff (points : List CodePoint) (flaw : Unencodable) :
    FirstStray points flaw ↔ findUnencodable 0 points = some flaw := by
  rw [findUnencodable_eq_some_iff]
  constructor
  · rintro ⟨clean, stray⟩
    exact ⟨_, _, _, rfl, clean, stray, by rw [Nat.zero_add]⟩
  · rintro ⟨before, offset, after, rfl, clean, stray, rfl⟩
    rw [Nat.zero_add]
    exact .mk clean stray

end Search

end Text.Utf8

open Text.Utf8

/-! ### Contents without a fingerprint -/

namespace Content

/-- Whether a content is a text with a stray surrogate. -/
def HasStraySurrogate : Content → Prop
  | .raw _ => False
  | .text points => ∃ point ∈ points, point.IsStray

/-- Whether a content is a text, and the flaw is its first stray surrogate. -/
def FlawedBy : Content → Unencodable → Prop
  | .raw _, _ => False
  | .text points, flaw => FirstStray points flaw

theorem fingerprint_eq_error_iff (content : Content) (flaw : Unencodable) :
    content.fingerprint = .error flaw ↔ content.FlawedBy flaw := by
  rw [fingerprint, map_eq_error_iff]
  cases content with
  | raw stored => simp [bytes, FlawedBy]
  | text points =>
    rw [FlawedBy, firstStray_iff, bytes, encode]
    cases findUnencodable 0 points <;> simp

theorem fingerprint_eq_ok_iff (content : Content) :
    (∃ hash, content.fingerprint = .ok hash) ↔ ¬ content.HasStraySurrogate := by
  cases content with
  | raw stored => exact iff_of_true ⟨_, rfl⟩ not_false
  | text points =>
    have clean : ¬ (text points).HasStraySurrogate ↔ findUnencodable 0 points = none := by
      rw [findUnencodable_eq_none_iff, HasStraySurrogate]
      simp only [not_exists, not_and, CodePoint.not_isStray_iff]
    rw [clean]
    simp only [fingerprint, bytes, encode]
    cases findUnencodable 0 points <;> simp [Except.map]

theorem exists_flawedBy_iff (content : Content) :
    (∃ flaw, content.FlawedBy flaw) ↔ content.HasStraySurrogate := by
  rw [← not_iff_not, ← fingerprint_eq_ok_iff, exists_eq_ok_iff]
  simp only [fingerprint_eq_error_iff]

end Content

/-! ### Files in the order of fingerprinting -/

/-- The flaw of the first content with a stray surrogate. -/
inductive FirstFlaw : List (Points × Content) → Unencodable → Prop where
  | here {path : Points} {content : Content} {rest : List (Points × Content)} {flaw : Unencodable}
      (flawed : content.FlawedBy flaw) : FirstFlaw ((path, content) :: rest) flaw
  | later {path : Points} {content : Content} {rest : List (Points × Content)} {flaw : Unencodable}
      (clean : ¬ content.HasStraySurrogate) (found : FirstFlaw rest flaw) :
    FirstFlaw ((path, content) :: rest) flaw

namespace FirstFlaw

variable {path : Points} {content : Content} {rest first second : List (Points × Content)}
  {flaw : Unencodable}

theorem not_nil : ¬ FirstFlaw [] flaw := by
  intro found
  cases found

theorem cons_iff : FirstFlaw ((path, content) :: rest) flaw ↔
    content.FlawedBy flaw ∨ ¬ content.HasStraySurrogate ∧ FirstFlaw rest flaw := by
  constructor
  · intro found
    cases found with
    | here flawed => exact .inl flawed
    | later clean found => exact .inr ⟨clean, found⟩
  · rintro (flawed | ⟨clean, found⟩)
    · exact .here flawed
    · exact .later clean found

theorem exists_iff (entries : List (Points × Content)) :
    (∃ flaw, FirstFlaw entries flaw) ↔ ∃ entry ∈ entries, entry.2.HasStraySurrogate := by
  induction entries with
  | nil => simp [not_nil]
  | cons entry rest ih =>
    obtain ⟨path, content⟩ := entry
    simp only [cons_iff, exists_or, exists_and_left, ih, content.exists_flawedBy_iff,
      List.exists_mem_cons_iff]
    by_cases stray : content.HasStraySurrogate <;> simp [stray]

theorem append_iff : FirstFlaw (first ++ second) flaw ↔
    FirstFlaw first flaw ∨
      (∀ entry ∈ first, ¬ entry.2.HasStraySurrogate) ∧ FirstFlaw second flaw := by
  induction first with
  | nil => simp [not_nil]
  | cons entry rest ih =>
    obtain ⟨path, content⟩ := entry
    rw [List.cons_append, cons_iff, cons_iff, ih, List.forall_mem_cons]
    tauto

/-- A traversal that needs the fingerprints of some contents, and fails for no other reason, fails
with the first flaw among them. -/
theorem traverseEntries_eq_error_iff {β : Type} {change : Points → Content → Except Unencodable β}
    (needed : Points × Content → Bool)
    (needs : ∀ path content, needed (path, content) = true →
      ∃ make, change path content = content.fingerprint.map make)
    (others : ∀ path content, needed (path, content) = false →
      ∃ value, change path content = .ok value) (entries : List (Points × Content)) :
    OrderedMap.traverseEntries change entries = .error flaw ↔
      FirstFlaw (entries.filter needed) flaw := by
  induction entries with
  | nil => simp [OrderedMap.traverseEntries, not_nil]
  | cons entry rest ih =>
    obtain ⟨path, content⟩ := entry
    rw [OrderedMap.traverseEntries_cons_eq_error_iff, ih]
    cases asked : needed (path, content) with
    | true =>
      obtain ⟨make, changed⟩ := needs path content asked
      have succeeds : (∃ value, change path content = .ok value) ↔
          ¬ content.HasStraySurrogate := by
        rw [← content.fingerprint_eq_ok_iff, changed]
        cases content.fingerprint <;> simp [Except.map]
      rw [List.filter_cons_of_pos asked, cons_iff, succeeds, changed, map_eq_error_iff,
        content.fingerprint_eq_error_iff]
    | false =>
      obtain ⟨value, changed⟩ := others path content asked
      rw [List.filter_cons_of_neg (by simp [asked])]
      simp [changed]

end FirstFlaw

/-- Whether a path stands in the last snapshot, if that may be compared. -/
def isRecorded (previous : Option Snapshot) (path : Points) : Bool :=
  (previous.filter Snapshot.isCompatible).any (fun snapshot => (snapshot.files.get? path).isSome)

/-- The files in the order in which they are fingerprinted: those that the last snapshot records,
and then all. -/
def fingerprinted (previous : Option Snapshot) (contents : OrderedMap Points Content) :
    List (Points × Content) :=
  contents.entries.filter (fun entry => isRecorded previous entry.1) ++ contents.entries

section Stages

variable {contents : OrderedMap Points Content} {flaw : Unencodable}

theorem Changes.since_eq_error_iff (snapshot : Snapshot) :
    since contents snapshot = .error flaw ↔ FirstFlaw
      (contents.entries.filter (fun entry => (snapshot.files.get? entry.1).isSome)) flaw := by
  rw [since, map_eq_error_iff, OrderedMap.traverse_eq_error_iff]
  apply FirstFlaw.traverseEntries_eq_error_iff
  · intro path content recorded
    obtain ⟨state, found⟩ := Option.isSome_iff_exists.1 recorded
    simp only at found
    refine ⟨fun hash : String => if state.hash = hash then .unchanged else .modified, ?_⟩
    simp only [statusOf, found]
  · intro path content unknown
    have absent := Option.isSome_eq_false_iff.1 unknown
    rw [Option.isNone_iff_eq_none] at absent
    exact ⟨.added, by simp only [statusOf, absent]⟩

theorem Changes.detect_eq_error_iff (previous : Option Snapshot) :
    detect contents previous = .error flaw ↔
      FirstFlaw (contents.entries.filter (fun entry => isRecorded previous entry.1)) flaw := by
  unfold detect isRecorded
  cases previous.filter Snapshot.isCompatible with
  | none => simp [FirstFlaw.not_nil]
  | some snapshot => exact since_eq_error_iff snapshot

theorem Snapshot.take_eq_error_iff (files : OrderedMap Points (Option Outline)) (commit : Points)
    (stamp : Stamp) :
    take files contents commit stamp = .error flaw ↔ FirstFlaw contents.entries flaw := by
  rw [take, map_eq_error_iff, OrderedMap.traverse_eq_error_iff,
    FirstFlaw.traverseEntries_eq_error_iff (fun _ => true), List.filter_true]
  · intro path content _
    exact ⟨_, rfl⟩
  · intro path content never
    cases never

end Stages

/-- An analysis whose parser handles every file fails with the first flaw in the order of
fingerprinting, and with nothing else. -/
theorem analyze_eq_error_iff (request : Request) (contents : OrderedMap String Content)
    (handles : ∀ entry ∈ contents.entries, request.parser.Handles entry.1 entry.2)
    (failure : AnalysisFailure) :
    analyze request contents = .error failure ↔
      ∃ flaw, failure = .content flaw ∧
        FirstFlaw (fingerprinted request.previous (underPoints contents)) flaw := by
  -- A snapshot is taken only if the comparison met no stray surrogate, as `append_iff` asks.
  have compared :
      (∃ changes, Changes.detect (underPoints contents) request.previous = .ok changes) ↔
      ∀ entry ∈ (underPoints contents).entries.filter
          (fun entry => isRecorded request.previous entry.1), ¬ entry.2.HasStraySurrogate := by
    simp only [exists_eq_ok_iff, Changes.detect_eq_error_iff, FirstFlaw.exists_iff, not_exists,
      not_and]
  rw [analyze, traverse_parseFile handles]
  simp only [bind_eq_error_iff, mapError_eq_error_iff, mapError_eq_ok_iff, reduceCtorEq, false_or,
    Except.ok.injEq, exists_eq_left', Changes.detect_eq_error_iff, Snapshot.take_eq_error_iff, pure,
    Except.pure, and_false, exists_false, or_false, exists_and_right, compared, fingerprinted,
    FirstFlaw.append_iff]
  constructor
  · rintro (⟨flaw, recorded, rfl⟩ | ⟨clean, flaw, found, rfl⟩)
    · exact ⟨flaw, rfl, .inl recorded⟩
    · exact ⟨flaw, rfl, .inr ⟨clean, found⟩⟩
  · rintro ⟨flaw, rfl, recorded | ⟨clean, found⟩⟩
    · exact .inl ⟨flaw, recorded, rfl⟩
    · exact .inr ⟨clean, flaw, found, rfl⟩

/-- Comparing first and then taking the snapshot meets a stray surrogate exactly when some file has
one. -/
theorem exists_mem_fingerprinted_iff (previous : Option Snapshot)
    (contents : OrderedMap String Content) :
    (∃ entry ∈ fingerprinted previous (underPoints contents), entry.2.HasStraySurrogate) ↔
      ∃ entry ∈ contents.entries, entry.2.HasStraySurrogate := by
  constructor
  · rintro ⟨entry, member, stray⟩
    have listed : entry ∈ (underPoints contents).entries := by
      rcases List.mem_append.1 member with recorded | listed
      · exact List.mem_of_mem_filter recorded
      · exact listed
    obtain ⟨source, given, rfl⟩ := List.mem_map.1 listed
    exact ⟨source, given, stray⟩
  · rintro ⟨entry, listed, stray⟩
    exact ⟨_, List.mem_append_right _ (List.mem_map_of_mem listed), stray⟩

/-- With any grammar an analysis fails exactly when the content of some file is a text with a stray
surrogate, whatever the paths, the last snapshot, the commit and the moment.  The failure is always
that of an unencodable text, and it is about the first stray surrogate of the first such text among
the files that the last snapshot records, or else among all.  In every other case the analysis gives
a result; so it does for files of bytes. -/
theorem analyze_fails_iff_hasStraySurrogate (grammar : Source.Grammar)
    (name repositoryPath : String) (previous : Option Snapshot) (commit : String) (stamp : Stamp)
    (contents : OrderedMap String Content) (files : OrderedMap String (List UInt8)) :
    let request : Request :=
      { name, repositoryPath, previous, commit, stamp, parser := standardParser grammar }
    ((∃ failure, analyze request contents = .error failure) ↔
      ∃ entry ∈ contents.entries, entry.2.HasStraySurrogate) ∧
    (∀ failure, analyze request contents = .error failure ↔
      ∃ flaw, failure = .content flaw ∧
        FirstFlaw (fingerprinted previous (underPoints contents)) flaw) ∧
    ((∃ analysis, analyze request contents = .ok analysis) ↔
      ∀ entry ∈ contents.entries, ¬ entry.2.HasStraySurrogate) ∧
    ∃ analysis, analyze request (Repository.rawContents files) = .ok analysis := by
  intro request
  have fails := analyze_eq_error_iff request contents
    (fun entry _ => handles_standardParser grammar entry.1 entry.2)
  have failing : (∃ failure, analyze request contents = .error failure) ↔
      ∃ entry ∈ contents.entries, entry.2.HasStraySurrogate := by
    rw [← exists_mem_fingerprinted_iff previous, ← FirstFlaw.exists_iff]
    constructor
    · rintro ⟨failure, failed⟩
      obtain ⟨flaw, _, first⟩ := (fails failure).1 failed
      exact ⟨flaw, first⟩
    · rintro ⟨flaw, first⟩
      exact ⟨.content flaw, (fails _).2 ⟨flaw, rfl, first⟩⟩
  refine ⟨failing, fails, ?_, ?_⟩
  · rw [exists_eq_ok_iff, failing]
    simp only [not_exists, not_and]
  · obtain ⟨analysis, analysed, _⟩ :=
      analyze_of_hashable request (Repository.areHashable_rawContents files)
        (fun entry _ => handles_standardParser grammar entry.1 entry.2)
    exact ⟨analysis, analysed⟩

end RepoAtlas
