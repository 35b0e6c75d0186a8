/-
Module: RepoAtlas.Proofs.SourceOutline
Purpose: The outline of a source lists the definitions and imports of its syntax tree, whatever grammar
  reads it.
  Each definition at every depth has one symbol, which says by the statement around the definition,
  a decorated wrapper apart, whether it is exported or a method.  The collecting functions pass the
  place of a statement down; the specification looks up from its position.  The two agree because a
  wrapper never wraps another one.
Main exports: ownerAt, IsTopLevel, IsInClass, IsLastSegment, OneToOne, IsOutline, SinglyWrapped,
  placeAt_eq, oneToOne_of_gathers, isOutline_outlineOf, outline_follows_syntax_tree,
  singlyWrapped_statements
-/
import RepoAtlas.Proofs.StatementPositions
import RepoAtlas.Source.Reader
import Mathlib.Data.List.Forall2
import Mathlib.Data.List.Nodup
import Mathlib.Data.List.TakeWhile

namespace RepoAtlas.Source

/-! ### What an outline has to say -/

/-- The statement that a definition stands in, a decorated wrapper around the definition skipped; the
module itself is no statement. -/
def ownerAt (tree : List Statement) (position : List Nat) : Option Statement :=
  match statementAt tree position.dropLast with
  | some (.decorated _) => statementAt tree position.dropLast.dropLast
  | parent => parent

/-- Whether a definition stands directly in the module. -/
def IsTopLevel (tree : List Statement) (position : List Nat) : Prop :=
  ownerAt tree position = none

/-- Whether a definition stands directly in the body of a class. -/
def IsInClass (tree : List Statement) (position : List Nat) : Prop :=
  ∃ name superclasses body, ownerAt tree position = some (.classDef name superclasses body)

/-- The text of a base that is a plain or dotted name, or one of these with a single subscript. -/
def Base.text? : Base → Option String
  | .identifier text => some text
  | .attribute text => some text
  | .subscript (.identifier text) => some text
  | .subscript (.attribute text) => some text
  | _ => none

/-- Whether a text is what stands after the last dot of another. -/
def IsLastSegment (whole last : String) : Prop :=
  '.' ∉ last.toList ∧ (whole = last ∨ ∃ front, whole = front ++ "." ++ last)

/-- Whether a name may be exported. -/
def IsPublic (name : Name) : Prop :=
  name.text.toList.head? ≠ some '_'

/-- Whether a symbol describes the function definition at a position. -/
def IsFunctionAt (tree : List Statement) (position : List Nat) (symbol : Symbol) : Prop :=
  ∃ name isAsync body, statementAt tree position = some (.functionDef name isAsync body) ∧
    symbol.name = name.text ∧ symbol.line = name.line ∧ symbol.isAsync = isAsync ∧
    (symbol.exported = true ↔ IsTopLevel tree position ∧ IsPublic name) ∧
    (symbol.kind = .method ↔ IsInClass tree position) ∧
    (symbol.kind = .function ↔ ¬ IsInClass tree position)

/-- Whether a symbol describes the class definition at a position.  Its bases are the last segments
of those that are names, the base of every class left out. -/
def IsClassAt (tree : List Statement) (position : List Nat) (symbol : Symbol) : Prop :=
  ∃ name superclasses body,
    statementAt tree position = some (.classDef name superclasses body) ∧
    symbol.name = name.text ∧ symbol.line = name.line ∧ symbol.kind = .classType ∧
    (symbol.exported = true ↔ IsTopLevel tree position ∧ IsPublic name) ∧
    ∃ segments, List.Forall₂ IsLastSegment ((superclasses.getD []).filterMap Base.text?) segments ∧
      symbol.extends?.toList ++ symbol.implements = segments.filter (· ≠ "object") ∧
      (symbol.extends? = none → symbol.implements = [])

/-- Whether a statement is an import. -/
def Statement.isImport : Statement → Bool
  | .importModules _ => true
  | .importFrom _ _ => true
  | _ => false

/-- The specifiers of a statement that is an import. -/
def Statement.specifiers : Statement → List String
  | .importModules modules => modules.map ImportName.unaliased
  | .importFrom origin imported => importedSpecifiers origin imported
  | _ => []

/-- The specifiers of the import at a position. -/
def specifiersAt (tree : List Statement) (position : List Nat) : List String :=
  ((statementAt tree position).map Statement.specifiers).getD []

/-- Whether an import stands at a position. -/
def IsImportAt (tree : List Statement) (position : List Nat) : Prop :=
  ∃ statement, statementAt tree position = some statement ∧ statement.isImport = true

/-- Whether symbols describe the statements at certain positions, one each. -/
def OneToOne (here : List Nat → Prop) (describes : List Nat → Symbol → Prop)
    (symbols : List Symbol) : Prop :=
  ∃ order : List (List Nat), order.Nodup ∧ (∀ position, position ∈ order ↔ here position) ∧
    List.Forall₂ describes order symbols

/-- What the outline of a syntax tree is.  Functions and classes are the definitions at every depth,
one symbol each, in order of the lines of their names.  Imports are the specifiers of the imports at
every depth, in source order. -/
structure IsOutline (tree : List Statement) (outline : Outline) : Prop where
  functions : OneToOne
    (fun position => ∃ name isAsync body,
      statementAt tree position = some (.functionDef name isAsync body))
    (IsFunctionAt tree) outline.functions
  functions_sorted : outline.functions.Pairwise (fun first second => first.line ≤ second.line)
  classes : OneToOne
    (fun position => ∃ name superclasses body,
      statementAt tree position = some (.classDef name superclasses body))
    (IsClassAt tree) outline.classes
  classes_sorted : outline.classes.Pairwise (fun first second => first.line ≤ second.line)
  methods_hidden : ∀ symbol ∈ outline.functions, symbol.kind = .method → symbol.exported = false
  imports : ∃ order : List (List Nat), order.Pairwise (· < ·) ∧
    (∀ position, position ∈ order ↔ IsImportAt tree position) ∧
    outline.imports = order.flatMap (specifiersAt tree)

/-! ### Wrappers -/

/-- A statement in which no decorated wrapper wraps another. -/
inductive SinglyWrapped : Statement → Prop where
  | intro {statement : Statement} (inside : ∀ child ∈ statement.children, SinglyWrapped child)
    (single : ∀ definition, statement = .decorated definition →
      ∀ other, definition ≠ .decorated other) :
    SinglyWrapped statement

theorem SinglyWrapped.of_leaf {statement : Statement} (leaf : statement.children = []) :
    SinglyWrapped statement := by
  refine ⟨by simp [leaf], ?_⟩
  intro definition same
  subst same
  cases leaf

theorem singlyWrapped_of_statementAt {tree : List Statement}
    (wrapped : ∀ statement ∈ tree, SinglyWrapped statement) {position : List Nat}
    {statement : Statement} (stands : statementAt tree position = some statement) :
    SinglyWrapped statement := by
  induction tree using treeRec generalizing position with
  | step tree ih =>
    match position with
    | [] => cases stands
    | [index] => exact wrapped statement (List.mem_of_getElem? stands)
    | index :: next :: rest =>
      cases here : tree[index]? with
      | none =>
        rw [statementAt_of_absent tree index _ here] at stands
        cases stands
      | some outer =>
        rw [statementAt_cons_cons tree index next rest here] at stands
        have listed := List.mem_of_getElem? here
        obtain ⟨inside, _⟩ := wrapped outer listed
        exact ih outer listed inside stands

/-! ### Where a definition stands -/

/-- The place of what stands directly in a statement, or in the module. -/
def placeBelow : Option Statement → Place
  | none => .module
  | some (.classDef _ _ _) => .classBody
  | some _ => .nested

theorem placeBelow_eq_module_iff (owner : Option Statement) :
    placeBelow owner = .module ↔ owner = none := by
  cases owner with
  | none => simp [placeBelow]
  | some statement => cases statement <;> simp [placeBelow]

theorem placeBelow_eq_classBody_iff (owner : Option Statement) :
    placeBelow owner = .classBody ↔
      ∃ name superclasses body, owner = some (.classDef name superclasses body) := by
  cases owner with
  | none => simp [placeBelow]
  | some statement => cases statement <;> simp [placeBelow]

/-- The statement around a statement, unless that stands in the module. -/
theorem parent_of_statementAt {tree : List Statement} {front : List Nat} {index : Nat}
    {statement : Statement} (stands : statementAt tree (front ++ [index]) = some statement) :
    front = [] ∨ ∃ parent, statementAt tree front = some parent ∧ statement ∈ parent.children := by
  by_cases outermost : front = []
  · exact .inl outermost
  · rw [statementAt_concat outermost, Option.bind_eq_some_iff] at stands
    obtain ⟨parent, above, inside⟩ := stands
    exact .inr ⟨parent, above, List.mem_of_getElem? inside⟩

/-- Below anything but a wrapper, the statement around a statement decides its place. -/
theorem placeAt_of_parent {tree : List Statement} {front : List Nat} {index : Nat}
    {statement : Statement} (stands : statementAt tree (front ++ [index]) = some statement)
    (bare : ∀ definition, statementAt tree front ≠ some (.decorated definition)) :
    placeAt .module tree (front ++ [index]) = placeBelow (statementAt tree front) := by
  rcases parent_of_statementAt stands with rfl | ⟨parent, above, _⟩
  · rfl
  · rw [placeAt_concat above, above]
    cases parent with
    | decorated definition => exact absurd above (bare definition)
    | _ => rfl

/-- The place of a statement is the one directly in its owner. -/
theorem placeAt_eq {tree : List Statement}
    (wrapped : ∀ statement ∈ tree, SinglyWrapped statement) {position : List Nat}
    {statement : Statement} (stands : statementAt tree position = some statement) :
    placeAt .module tree position = placeBelow (ownerAt tree position) := by
  rcases List.eq_nil_or_concat' position with rfl | ⟨front, index, rfl⟩
  · cases stands
  rw [ownerAt, List.dropLast_concat]
  rcases parent_of_statementAt stands with rfl | ⟨parent, above, _⟩
  · rfl
  by_cases wrapper : ∃ definition, parent = .decorated definition
  · -- The wrapper stands where the definition does, and nothing wraps the wrapper.
    obtain ⟨definition, rfl⟩ := wrapper
    rcases List.eq_nil_or_concat' front with rfl | ⟨outer, last, rfl⟩
    · cases above
    have bare : ∀ other, statementAt tree outer ≠ some (.decorated other) := by
      intro other around
      rcases parent_of_statementAt above with rfl | ⟨parent, found, inside⟩
      · cases around
      · rw [around] at found
        cases found
        obtain ⟨_, single⟩ := singlyWrapped_of_statementAt wrapped around
        obtain rfl := List.mem_singleton.1 inside
        exact single _ rfl definition rfl
    rw [placeAt_concat above, Place.inside, placeAt_of_parent above bare, above,
      List.dropLast_concat]
  · have bare : ∀ definition, statementAt tree front ≠ some (.decorated definition) := by
      intro definition found
      rw [above] at found
      cases found
      exact wrapper ⟨definition, rfl⟩
    rw [placeAt_of_parent stands bare, above]
    split
    · next found => exact absurd (above.trans found) (bare _)
    · next => rfl

/-! ### What each statement gives -/

/-- The symbol of a statement that is a function definition. -/
def functionShare (place : Place) : Statement → Option Symbol
  | .functionDef name isAsync _ => some (functionSymbol place name isAsync)
  | _ => none

/-- The symbol of a statement that is a class definition. -/
def classShare (place : Place) : Statement → Option Symbol
  | .classDef name superclasses _ => some (classSymbol place name superclasses)
  | _ => none

theorem functionShare_eq_some_iff (place : Place) (statement : Statement) (symbol : Symbol) :
    functionShare place statement = some symbol ↔ ∃ name isAsync body,
      statement = .functionDef name isAsync body ∧ functionSymbol place name isAsync = symbol := by
  cases statement with
  | functionDef name isAsync body =>
    constructor
    · intro given
      cases given
      exact ⟨name, isAsync, body, rfl, rfl⟩
    · intro found
      obtain ⟨_, _, _, same, rfl⟩ := found
      cases same
      rfl
  | _ => simp [functionShare]

theorem classShare_eq_some_iff (place : Place) (statement : Statement) (symbol : Symbol) :
    classShare place statement = some symbol ↔ ∃ name superclasses body,
      statement = .classDef name superclasses body ∧
        classSymbol place name superclasses = symbol := by
  cases statement <;> simp [classShare]

theorem gathers_functions :
    Gathers (fun place statement => (functionShare place statement).toList) functionsOfAll where
  nil := by simp [functionsOfAll]
  cons place statement rest := by
    cases statement <;>
      simp [functionsOfAll, functionsOf, functionShare, Place.inside, Statement.children]

theorem gathers_classes :
    Gathers (fun place statement => (classShare place statement).toList) classesOfAll where
  nil := by simp [classesOfAll]
  cons place statement rest := by
    cases statement <;>
      simp [classesOfAll, classesOf, classShare, Place.inside, Statement.children]

theorem gathers_imports : Gathers (fun _ => Statement.specifiers) (fun _ => importsOfAll) where
  nil := by simp [importsOfAll]
  cons place statement rest := by
    cases statement <;> simp [importsOfAll, importsOf, Statement.specifiers, Statement.children]

theorem shareAt_specifiers (place : Place) (tree : List Statement) :
    shareAt (fun _ => Statement.specifiers) place tree = specifiersAt tree := by
  funext position
  rw [shareAt, specifiersAt]
  cases statementAt tree position <;> rfl

theorem specifiers_of_not_isImport {statement : Statement} (other : statement.isImport = false) :
    statement.specifiers = [] := by
  cases statement with
  | importModules modules => cases other
  | importFrom origin imported => cases other
  | _ => rfl

theorem mem_positionsIn_of_mem_specifiersAt {tree : List Statement} {position : List Nat}
    {specifier : String} (stated : specifier ∈ specifiersAt tree position) :
    position ∈ positionsIn tree := by
  rw [mem_positionsIn_iff]
  cases stands : statementAt tree position with
  | none =>
    rw [specifiersAt, stands] at stated
    cases stated
  | some statement => exact ⟨statement, rfl⟩

/-- The specifiers of a tree are those of its statements. -/
theorem mem_importsOfAll_iff (tree : List Statement) (specifier : String) :
    specifier ∈ importsOfAll tree ↔ ∃ position, specifier ∈ specifiersAt tree position := by
  rw [gathers_imports.all_eq_flatMap .module tree, shareAt_specifiers, List.mem_flatMap]
  constructor
  · intro listed
    obtain ⟨position, _, stated⟩ := listed
    exact ⟨position, stated⟩
  · intro found
    obtain ⟨position, stated⟩ := found
    exact ⟨position, mem_positionsIn_of_mem_specifiersAt stated, stated⟩

/-! ### One symbol for each definition -/

/-- What is given position by position stays in one-to-one correspondence when it is sorted. -/
theorem oneToOne_byLine {positions : List (List Nat)} (distinct : positions.Nodup)
    (give : List Nat → Option Symbol) :
    OneToOne (fun position => position ∈ positions ∧ ∃ symbol, give position = some symbol)
      (fun position symbol => give position = some symbol)
      (byLine (positions.filterMap give)) := by
  -- Each symbol is sorted along with its position.
  let pairs := positions.filterMap (fun position => (give position).map (position, ·))
  let sorted := pairs.mergeSort (fun first second => first.2.line ≤ second.2.line)
  have mem_pairs (position : List Nat) (symbol : Symbol) :
      (position, symbol) ∈ pairs ↔ position ∈ positions ∧ give position = some symbol := by
    simp only [pairs, List.mem_filterMap, Option.map_eq_some_iff, Prod.mk.injEq]
    constructor
    · intro found
      obtain ⟨_, listed, _, given, rfl, rfl⟩ := found
      exact ⟨listed, given⟩
    · intro found
      exact ⟨position, found.1, symbol, found.2, rfl, rfl⟩
  have kept : sorted.Perm pairs := List.mergeSort_perm _ _
  have symbols : sorted.map Prod.snd = byLine (positions.filterMap give) := by
    have unpaired : pairs.map Prod.snd = positions.filterMap give := by
      simp [pairs, List.map_filterMap, Function.comp_def]
    rw [byLine, ← unpaired]
    exact List.map_mergeSort (fun _ _ _ _ => rfl)
  have places : pairs.map Prod.fst = positions.filter (fun position => (give position).isSome) := by
    simp only [pairs, List.map_filterMap, Option.map_map]
    rw [← List.filterMap_eq_filter]
    apply List.filterMap_congr
    intro position _
    cases given : give position <;> simp [Option.guard, given]
  refine ⟨sorted.map Prod.fst, ?_, ?_, ?_⟩
  · rw [(kept.map Prod.fst).nodup_iff, places]
    exact distinct.filter _
  · intro position
    rw [(kept.map Prod.fst).mem_iff, places, List.mem_filter, Option.isSome_iff_exists]
  · rw [← symbols, List.forall₂_map_left_iff, List.forall₂_map_right_iff, List.forall₂_same]
    intro pair listed
    exact ((mem_pairs pair.1 pair.2).1 (kept.mem_iff.1 listed)).2

/-- The symbols that are gathered over a tree correspond to the statements that give one. -/
theorem oneToOne_of_gathers {give : Place → Statement → Option Symbol}
    {all : Place → List Statement → List Symbol}
    (gathers : Gathers (fun place statement => (give place statement).toList) all)
    {tree : List Statement} {here : List Nat → Prop} {describes : List Nat → Symbol → Prop}
    (places : ∀ position, here position ↔ ∃ statement symbol,
      statementAt tree position = some statement ∧
        give (placeAt .module tree position) statement = some symbol)
    (described : ∀ position statement symbol, statementAt tree position = some statement →
      give (placeAt .module tree position) statement = some symbol → describes position symbol) :
    OneToOne here describes (byLine (all .module tree)) := by
  rw [gathers.all_eq_filterMap]
  obtain ⟨order, distinct, listed, given⟩ := oneToOne_byLine (nodup_positionsIn tree)
    (fun position => (statementAt tree position).bind (give (placeAt .module tree position)))
  simp only [Option.bind_eq_some_iff] at listed given
  refine ⟨order, distinct, ?_, ?_⟩
  · intro position
    rw [listed, mem_positionsIn_iff, places]
    constructor
    · intro found
      obtain ⟨_, symbol, statement, stands, share⟩ := found
      exact ⟨statement, symbol, stands, share⟩
    · intro found
      obtain ⟨statement, symbol, stands, share⟩ := found
      exact ⟨⟨statement, stands⟩, symbol, statement, stands, share⟩
  · apply given.imp
    intro position symbol share
    obtain ⟨statement, stands, share⟩ := share
    exact described position statement symbol stands share

theorem pairwise_byLine (symbols : List Symbol) :
    (byLine symbols).Pairwise (fun first second => first.line ≤ second.line) := by
  have sorted : (byLine symbols).Pairwise
      (fun first second => decide (first.line ≤ second.line) = true) := by
    apply List.pairwise_mergeSort
    · intro first second third
      simpa using Int.le_trans
    · intro first second
      simpa using Int.le_total first.line second.line
  exact sorted.imp of_decide_eq_true

/-! ### Names of bases -/

theorem isLastSegment_afterLastDot (whole : String) :
    IsLastSegment whole (afterLastDot whole) := by
  have split : (whole.toList.reverse.dropWhile (· ≠ '.')).reverse ++ (afterLastDot whole).toList =
      whole.toList := by
    rw [afterLastDot, String.toList_ofList, ← List.reverse_append, List.takeWhile_append_dropWhile,
      List.reverse_reverse]
  constructor
  · intro dotted
    rw [afterLastDot, String.toList_ofList, List.mem_reverse] at dotted
    simpa using List.mem_takeWhile_imp dotted
  · cases before : whole.toList.reverse.dropWhile (· ≠ '.') with
    | nil =>
      rw [before, List.reverse_nil, List.nil_append] at split
      exact .inl (String.toList_injective split.symm)
    | cons dot earlier =>
      have stopped := List.head?_dropWhile_not (· ≠ '.') whole.toList.reverse
      rw [before] at stopped
      obtain rfl : dot = '.' := by simpa using stopped
      refine .inr ⟨String.ofList earlier.reverse, String.toList_injective ?_⟩
      rw [before, List.reverse_cons] at split
      rw [← split, String.toList_append, String.toList_append, String.toList_ofList]
      rfl

theorem Base.name?_eq (base : Base) :
    base.name? = (base.text?.map afterLastDot).filter (· ≠ "object") := by
  match base with
  | .identifier text | .attribute text => rfl
  | .subscript (.identifier text) | .subscript (.attribute text) => rfl
  | .subscript (.subscript value) | .subscript .other | .other => rfl

theorem baseNames_eq (superclasses : Option (List Base)) :
    baseNames superclasses =
      (((superclasses.getD []).filterMap Base.text?).map afterLastDot).filter (· ≠ "object") := by
  cases superclasses with
  | none => rfl
  | some bases =>
    rw [baseNames, Option.getD_some, List.map_filterMap, List.filter_filterMap]
    simp only [Base.name?_eq]

theorem isPublic_iff (name : Name) :
    IsPublic name ↔ Text.startsWith name.text "_" = false := by
  have mark : "_".toList = ['_'] := rfl
  rw [IsPublic, Text.startsWith, mark]
  cases name.text.toList with
  | nil => simp
  | cons first rest =>
    rw [List.head?_cons, Ne, Option.some_inj, List.isPrefixOf, Bool.and_eq_false_iff,
      beq_eq_false_iff_ne, ne_comm]
    simp

/-! ### The outline -/

section Outline

variable {tree : List Statement} (wrapped : ∀ statement ∈ tree, SinglyWrapped statement)

include wrapped

theorem isExported_placeAt_iff {position : List Nat} {statement : Statement}
    (stands : statementAt tree position = some statement) (name : Name) :
    isExported (placeAt .module tree position) name.text = true ↔
      IsTopLevel tree position ∧ IsPublic name := by
  rw [isExported, Bool.and_eq_true, decide_eq_true_eq, Bool.not_eq_true', isPublic_iff, IsTopLevel,
    placeAt_eq wrapped stands, placeBelow_eq_module_iff]

theorem isFunctionAt_functionSymbol {position : List Nat} {name : Name} {isAsync : Bool}
    {body : List Statement}
    (stands : statementAt tree position = some (.functionDef name isAsync body)) :
    IsFunctionAt tree position (functionSymbol (placeAt .module tree position) name isAsync) := by
  have method : placeAt .module tree position = .classBody ↔ IsInClass tree position := by
    rw [placeAt_eq wrapped stands, placeBelow_eq_classBody_iff, IsInClass]
  refine ⟨name, isAsync, body, stands, rfl, rfl, rfl,
    isExported_placeAt_iff wrapped stands name, ?_, ?_⟩
  · rw [← method]
    simp [functionSymbol]
  · rw [← method]
    simp [functionSymbol]

theorem isClassAt_classSymbol {position : List Nat} {name : Name}
    {superclasses : Option (List Base)} {body : List Statement}
    (stands : statementAt tree position = some (.classDef name superclasses body)) :
    IsClassAt tree position (classSymbol (placeAt .module tree position) name superclasses) := by
  refine ⟨name, superclasses, body, stands, rfl, rfl, rfl, isExported_placeAt_iff wrapped stands name,
    ((superclasses.getD []).filterMap Base.text?).map afterLastDot, ?_, ?_, ?_⟩
  · rw [List.forall₂_map_right_iff, List.forall₂_same]
    intro text _
    exact isLastSegment_afterLastDot text
  · rw [← baseNames_eq, classSymbol]
    cases baseNames superclasses <;> rfl
  · rw [classSymbol]
    cases baseNames superclasses <;> simp

/-- The outline of statements is what an outline of their tree has to be. -/
theorem isOutline_outlineOf (path language : String) :
    IsOutline tree (outlineOf path language tree) where
  functions := by
    apply oneToOne_of_gathers gathers_functions
    · intro position
      simp only [functionShare_eq_some_iff]
      constructor
      · intro found
        obtain ⟨name, isAsync, body, stands⟩ := found
        exact ⟨_, _, stands, name, isAsync, body, rfl, rfl⟩
      · intro found
        obtain ⟨_, _, stands, name, isAsync, body, rfl, _⟩ := found
        exact ⟨name, isAsync, body, stands⟩
    · intro position statement symbol stands share
      obtain ⟨name, isAsync, body, rfl, rfl⟩ := (functionShare_eq_some_iff _ _ _).1 share
      exact isFunctionAt_functionSymbol wrapped stands
  functions_sorted := pairwise_byLine _
  classes := by
    apply oneToOne_of_gathers gathers_classes
    · intro position
      simp only [classShare_eq_some_iff]
      constructor
      · intro found
        obtain ⟨name, superclasses, body, stands⟩ := found
        exact ⟨_, _, stands, name, superclasses, body, rfl, rfl⟩
      · intro found
        obtain ⟨_, _, stands, name, superclasses, body, rfl, _⟩ := found
        exact ⟨name, superclasses, body, stands⟩
    · intro position statement symbol stands share
      obtain ⟨name, superclasses, body, rfl, rfl⟩ := (classShare_eq_some_iff _ _ _).1 share
      exact isClassAt_classSymbol wrapped stands
  classes_sorted := pairwise_byLine _
  methods_hidden := by
    intro symbol listed method
    rw [outlineOf, byLine, List.mem_mergeSort, gathers_functions.all_eq_filterMap,
      List.mem_filterMap] at listed
    obtain ⟨position, _, given⟩ := listed
    obtain ⟨statement, _, share⟩ := Option.bind_eq_some_iff.1 given
    obtain ⟨name, isAsync, _, _, rfl⟩ := (functionShare_eq_some_iff _ _ _).1 share
    have inClass : placeAt .module tree position = .classBody := by
      simpa [functionSymbol] using method
    rw [functionSymbol, inClass]
    rfl
  imports := by
    refine ⟨positionsOfKind Statement.isImport tree, pairwise_positionsOfKind _ tree,
      mem_positionsOfKind_iff _ tree, ?_⟩
    rw [outlineOf, gathers_imports.all_eq_flatMap_ofKind
      (fun _ _ => specifiers_of_not_isImport) .module tree, shareAt_specifiers]

end Outline

/-- The outline of a source file lists the definitions and imports of its syntax tree, provided that
the grammar wraps no decorated definition in another. -/
theorem outline_follows_syntax_tree (grammar : Grammar) {path : String}
    (python : Path.extension path = ".py") {content : Content} {source : List Char}
    (text : content.source? = some source)
    (single : ∀ statement ∈ grammar source, SinglyWrapped statement) :
    ∃ outline, parse grammar path content = some outline ∧
      IsOutline (syntaxTree grammar source) outline := by
  have wrapped : ∀ statement ∈ syntaxTree grammar source, SinglyWrapped statement := by
    unfold syntaxTree
    split
    · simp
    · exact single
  refine ⟨_, ?_, isOutline_outlineOf wrapped path "python"⟩
  have language : languageOf path = some "python" := by
    rw [languageOf, python]
    rfl
  rw [parse, language, text]
  rfl

/-! ### Trees of the reader -/

/-- A statement without a block contains no other. -/
theorem children_simpleStatement (tokens : List Token) :
    (simpleStatement tokens).children = [] := by
  have future (rest : List Token) : (importFromOf rest).children = [] := by
    unfold importFromOf
    simp only
    split
    · rfl
    · split_ifs <;> rfl
  unfold simpleStatement
  split
  · rfl
  · split_ifs
    · rfl
    · exact future _
    · rfl

theorem leaf_of_mem_simpleStatements {tokens : List Token} {statement : Statement}
    (listed : statement ∈ simpleStatements tokens) : statement.children = [] := by
  obtain ⟨part, _, rfl⟩ := List.mem_map.1 listed
  exact children_simpleStatement part

/-- The statements of a line are no wrappers, and what is inside them comes from the line's own suite
or from its block. -/
theorem mem_lineStatements {line : Line} {block : List Statement} {statement : Statement}
    (listed : statement ∈ lineStatements line block) :
    (∀ definition, statement ≠ .decorated definition) ∧
      ∀ child ∈ statement.children, child.children = [] ∨ child ∈ block := by
  have suite : ∀ child ∈ simpleStatements ((suiteOf line.tokens).getD []) ++ block,
      child.children = [] ∨ child ∈ block := by
    intro child inside
    exact (List.mem_append.1 inside).imp_left leaf_of_mem_simpleStatements
  have flat (simple : statement ∈ simpleStatements line.tokens) :
      (∀ definition, statement ≠ .decorated definition) ∧
        ∀ child ∈ statement.children, child.children = [] ∨ child ∈ block := by
    have leaf := leaf_of_mem_simpleStatements simple
    constructor
    · intro definition same
      subst same
      cases leaf
    · simp [leaf]
  unfold lineStatements at listed
  simp only at listed
  split at listed
  · obtain rfl := List.mem_singleton.1 listed
    exact ⟨by simp, suite⟩
  · obtain rfl := List.mem_singleton.1 listed
    exact ⟨by simp, suite⟩
  · split at listed
    · obtain rfl := List.mem_singleton.1 listed
      exact ⟨by simp, suite⟩
    · exact flat listed
  · exact flat listed

/-- Decorators wrap the statements of a line once. -/
theorem singlyWrapped_of_mem_decorate {line : Line} {block : List Statement}
    (inside : ∀ child ∈ block, SinglyWrapped child) (decorated : Bool) :
    ∀ statement ∈ (if decorated then (lineStatements line block).map Statement.decorated
      else lineStatements line block), SinglyWrapped statement := by
  have bare : ∀ statement ∈ lineStatements line block, SinglyWrapped statement := by
    intro statement listed
    obtain ⟨unwrapped, children⟩ := mem_lineStatements listed
    refine ⟨?_, fun definition same => absurd same (unwrapped definition)⟩
    intro child among
    rcases children child among with leaf | below
    · exact .of_leaf leaf
    · exact inside child below
  intro statement listed
  cases decorated with
  | false => exact bare statement listed
  | true =>
    obtain ⟨definition, found, rfl⟩ := List.mem_map.1 listed
    refine ⟨List.forall_mem_singleton.2 (bare definition found), ?_⟩
    intro other same
    cases same
    exact (mem_lineStatements found).1

/-- The statements of a block, and those read before them, are wrapped at most once. -/
theorem singlyWrapped_readBlock (indent : Nat) (decorated : Bool) (done : List Statement)
    (count : Nat) (block : List Line) (before : ∀ statement ∈ done, SinglyWrapped statement) :
    ∀ statement ∈ (readBlock indent decorated done count block).1, SinglyWrapped statement := by
  fun_induction readBlock indent decorated done count block with
  | case1 => simpa using before
  | case2 => simpa using before
  | case3 indent decorated done count line rest _ _ ih => exact ih before
  | case4 indent decorated done count line rest _ _ inner block used opened _ found within later =>
    -- What is inside the line's block was read as a block of its own.
    have inside : ∀ child ∈ block, SinglyWrapped child := by
      split at opened
      · rw [opened] at within
        exact within (by simp)
      · cases opened
        simp
    apply later
    rw [List.forall_mem_append]
    refine ⟨?_, before⟩
    intro statement listed
    exact singlyWrapped_of_mem_decorate inside decorated statement (List.mem_reverse.1 listed)

theorem singlyWrapped_statements (source : List Char) :
    ∀ statement ∈ statements source, SinglyWrapped statement :=
  singlyWrapped_readBlock 0 false [] 0 (lines source) (by simp)

open Text.Utf8 in
theorem source?_ofText (text : String) : (Content.ofText text).source? = some text.toList := by
  have plain : (points text).any CodePoint.isSurrogate = false := by
    rw [points, List.any_map, List.any_eq_false]
    simp [CodePoint.isSurrogate]
  rw [Content.ofText, Content.source?, scalars?, plain, if_neg (by decide), points,
    List.filterMap_map]
  exact congrArg some List.filterMap_some

/-- Decorated definitions, one inside another, a definition under a condition, a text that looks like
a definition, and imports of three kinds. -/
def jobsSource : String :=
  "from __future__ import a\n@m\nclass Job(object, q.Task[int], B):\n @m\n async def run(s):\n" ++
    "  import os, io as i\n  def _e(): 0\nif m:\n t = \"def x(:\"\n def g(): 0\n" ++
    "@m\ndef main(): from . import b as c"

/-- The outline of `jobsSource`. -/
def jobsOutline : Outline where
  language := "python"
  functions := [
    { name := "run", kind := .method, line := 5, isAsync := true },
    { name := "_e", kind := .function, line := 7 },
    { name := "g", kind := .function, line := 10 },
    { name := "main", kind := .function, line := 12, exported := true }]
  classes := [
    { name := "Job", kind := .classType, line := 3, exported := true, extends? := some "Task",
      implements := ["B"] }]
  imports := ["os", "io", "./b"]

theorem parse_jobsSource :
    parse statements "app/jobs.py" (.ofText jobsSource) = some jobsOutline := by
  have gathered :
      (functionsOfAll .module (syntaxTree statements jobsSource.toList),
        classesOfAll .module (syntaxTree statements jobsSource.toList),
        importsOfAll (syntaxTree statements jobsSource.toList),
        exportsOfAll (syntaxTree statements jobsSource.toList)) =
      (jobsOutline.functions, jobsOutline.classes, jobsOutline.imports, []) := by decide +kernel
  simp only [Prod.mk.injEq] at gathered
  obtain ⟨functions, classes, imports, exports⟩ := gathered
  have sorted : byLine jobsOutline.functions = jobsOutline.functions :=
    List.mergeSort_of_pairwise (by decide)
  have sorted' : byLine jobsOutline.classes = jobsOutline.classes :=
    List.mergeSort_of_pairwise (by decide)
  have language : languageOf "app/jobs.py" = some "python" := by decide
  rw [parse, language, source?_ofText]
  show some (outlineOf _ _ _) = _
  rw [outlineOf, functions, classes, imports, exports, sorted, sorted']
  rfl

theorem outline_follows_syntax_tree_jobs :
    (Path.extension "app/jobs.py" = ".py" ∧
      (Content.ofText jobsSource).source? = some jobsSource.toList ∧
      ∀ statement ∈ statements jobsSource.toList, SinglyWrapped statement) ∧
    IsOutline (syntaxTree statements jobsSource.toList) jobsOutline := by
  have python : Path.extension "app/jobs.py" = ".py" := by decide
  have text := source?_ofText jobsSource
  have single := singlyWrapped_statements jobsSource.toList
  obtain ⟨outline, parsed, described⟩ := outline_follows_syntax_tree statements python text single
  rw [parse_jobsSource] at parsed
  cases parsed
  exact ⟨⟨python, text, single⟩, described⟩

end RepoAtlas.Source
