/-
Module: RepoAtlas.Proofs.ArchitectureGraph
Purpose: The architecture graph joins each class to the last file that exports its base.
  The table of exported names is filled file by file, and a later definition of a name replaces an
  earlier one; so an inheritance edge depends on the exports of all files and on their order.  The
  specification says which edges there are, and how many of each that a class may give twice.
Main exports: definitions, Exports, IsLastExporter, IsLastDefinition, IsEdge, IsArchitecture,
  get?_symbolTable_iff, mem_edges_build_iff, count_edges_build, isArchitecture_build
-/
import RepoAtlas.Architecture.Graph
import RepoAtlas.Proofs.ImportGraph

namespace RepoAtlas.Architecture

open Text

/-! ### What a graph has to say -/

/-- The definitions of all files, each with its file: the files in discovery order, and in each the
classes before the functions. -/
def definitions (files : FileMap) : List (String × Symbol) :=
  files.entries.flatMap (fun (file, outline) =>
    ((outline.map Outline.classesFirst).getD []).map (fun symbol => (file, symbol)))

/-- Whether a parsed file exports a name. -/
def Exports (files : FileMap) (file name : String) : Prop :=
  ∃ outline, files.get? file = some (some outline) ∧
    ∃ symbol ∈ outline.classes ++ outline.functions, symbol.exported = true ∧ symbol.name = name

/-- Whether a file is the last one in discovery order that exports a name. -/
def IsLastExporter (files : FileMap) (name file : String) : Prop :=
  Exports files file name ∧
    ∀ other, Exports files other name → files.keys.idxOf other ≤ files.keys.idxOf file

/-- Whether an entry has the file and the kind of the last exported definition of its name. -/
def IsLastDefinition (files : FileMap) (entry : SymbolEntry) : Prop :=
  ∃ before symbol after, definitions files = before ++ (entry.file, symbol) :: after ∧
    symbol.exported = true ∧ symbol.name = entry.name ∧ symbol.kind = entry.kind ∧
    ∀ later ∈ after, later.2.exported = true → later.2.name ≠ entry.name

/-- The names that a class gives for a relation of inheritance: the first base, unless its name is
empty, is extended, and the further ones are implemented. -/
def basesFor (relation : Relation) (symbol : Symbol) : List String :=
  match relation with
  | .extends => symbol.extends?.toList.filter (· ≠ "")
  | .implements => symbol.implements
  | _ => []

/-- The edges that there are.  Import edges are those of the import graph.  A class is joined to the
last file that exports a base which it names.  A file is joined to the file that one of its wildcard
re-exports means. -/
inductive IsEdge (files : FileMap) (imports : Imports.Graph) : Edge → Prop
  | imports {edge : Imports.Edge} (listed : edge ∈ imports.edges) :
    IsEdge files imports ⟨edge.source, edge.target, .imports, none, none⟩
  | inherits {file target base : String} {outline : Outline} {symbol : Symbol} {relation : Relation}
    (parsed : files.get? file = some (some outline)) (defined : symbol ∈ outline.classes)
    (named : base ∈ basesFor relation symbol) (last : IsLastExporter files base target) :
    IsEdge files imports ⟨file, target, relation, some symbol.name, some base⟩
  | reexports {file target rest : String} {outline : Outline}
    (parsed : files.get? file = some (some outline)) (stated : "* from " ++ rest ∈ outline.exports)
    (resolved : Imports.resolve (stripText rest) file files.keys = some target) :
    IsEdge files imports ⟨file, target, .reexports, none, none⟩

/-- What the architecture graph of the discovered files is, on top of their import graph.  Edges join
nodes.  The table has the exported names, each with its last definition.  A class is joined to a base
that it names exactly when some file exports the base, and then to the last one that does, as often
as it names it.  The imports are those of the import graph in their order, and the re-exports are the
wildcard statements that mean a file.  There is no other edge. -/
structure IsArchitecture (files : FileMap) (imports : Imports.Graph) (graph : Graph) : Prop where
  ends_known : ∀ edge ∈ graph.edges,
    edge.source ∈ graph.nodes.map Node.path ∧ edge.target ∈ graph.nodes.map Node.path
  mem_table_iff : ∀ name, name ∈ graph.table.keys ↔ ∃ file, Exports files file name
  table_last : ∀ name entry, graph.table.get? name = some entry →
    entry.name = name ∧ IsLastDefinition files entry
  inherits_iff : ∀ relation file outline symbol base, files.get? file = some (some outline) →
    symbol ∈ outline.classes → base ∈ basesFor relation symbol →
    ((∃ target, ⟨file, target, relation, some symbol.name, some base⟩ ∈ graph.edges) ↔
      ∃ other, Exports files other base)
  inherits_last : ∀ relation file target child base,
    ⟨file, target, relation, some child, some base⟩ ∈ graph.edges →
    IsLastExporter files base target ∧
      ∃ node ∈ graph.nodes, node.path = target ∧ base ∈ node.symbols
  inherits_count : ∀ relation file outline target child base,
    files.get? file = some (some outline) → IsLastExporter files base target →
    graph.edges.count ⟨file, target, relation, some child, some base⟩ =
      (outline.classes.map (fun symbol =>
        if symbol.name = child then (basesFor relation symbol).count base else 0)).sum
  imports_eq : graph.edges.filter (fun edge => edge.relation = .imports) =
    imports.edges.map (fun edge => ⟨edge.source, edge.target, .imports, none, none⟩)
  reexports_iff : ∀ file target, ⟨file, target, .reexports, none, none⟩ ∈ graph.edges ↔
    ∃ outline, files.get? file = some (some outline) ∧
      ∃ rest, "* from " ++ rest ∈ outline.exports ∧
        Imports.resolve (stripText rest) file files.keys = some target
  mem_edges_iff : ∀ edge, edge ∈ graph.edges ↔ IsEdge files imports edge

variable {files : FileMap}

/-! ### Definitions and exporters -/

theorem mem_definitions_iff (file : String) (symbol : Symbol) :
    (file, symbol) ∈ definitions files ↔
      ∃ outline, files.get? file = some (some outline) ∧ symbol ∈ outline.classesFirst := by
  rw [definitions, List.mem_flatMap]
  constructor
  · intro found
    obtain ⟨⟨path, outline⟩, listed, member⟩ := found
    obtain ⟨_, defined, same⟩ := List.mem_map.1 member
    cases same
    cases outline with
    | none => cases defined
    | some outline => exact ⟨outline, (files.get?_eq_some_iff _ _).2 listed, defined⟩
  · intro found
    obtain ⟨outline, parsed, defined⟩ := found
    refine ⟨(file, some outline), (files.get?_eq_some_iff _ _).1 parsed, ?_⟩
    exact List.mem_map_of_mem defined

theorem exports_iff_mem_definitions (file name : String) :
    Exports files file name ↔
      ∃ symbol, (file, symbol) ∈ definitions files ∧ symbol.exported = true ∧
        symbol.name = name := by
  constructor
  · intro exported
    obtain ⟨outline, parsed, symbol, defined, shown, named⟩ := exported
    exact ⟨symbol, (mem_definitions_iff file symbol).2 ⟨outline, parsed, defined⟩, shown, named⟩
  · intro found
    obtain ⟨symbol, member, shown, named⟩ := found
    obtain ⟨outline, parsed, defined⟩ := (mem_definitions_iff file symbol).1 member
    exact ⟨outline, parsed, symbol, defined, shown, named⟩

theorem Exports.mem_keys {file name : String} (exported : Exports files file name) :
    file ∈ files.keys := by
  obtain ⟨outline, parsed, _⟩ := exported
  exact List.mem_map_of_mem (f := Prod.fst) ((files.get?_eq_some_iff _ _).1 parsed)

/-- Definitions stand in discovery order of their files. -/
theorem pairwise_definitions (files : FileMap) :
    (definitions files).Pairwise (fun first second =>
      files.keys.idxOf first.1 ≤ files.keys.idxOf second.1) := by
  rw [definitions, List.pairwise_flatMap]
  constructor
  · intro entry _
    apply List.pairwise_map.2
    apply List.pairwise_of_forall
    intro first second
    exact Nat.le_refl _
  · apply (Imports.pairwise_entries files).imp
    intro first second before definition member definition' member'
    obtain ⟨_, _, rfl⟩ := List.mem_map.1 member
    obtain ⟨_, _, rfl⟩ := List.mem_map.1 member'
    exact Nat.le_of_lt before

/-- The file of the last exported definition of a name is the last that exports it. -/
theorem IsLastDefinition.isLastExporter {entry : SymbolEntry}
    (last : IsLastDefinition files entry) : IsLastExporter files entry.name entry.file := by
  obtain ⟨before, symbol, after, split, shown, named, _, none_later⟩ := last
  constructor
  · apply (exports_iff_mem_definitions _ _).2
    exact ⟨symbol, by rw [split]; simp, shown, named⟩
  · intro other exported
    obtain ⟨found, member, shown', named'⟩ := (exports_iff_mem_definitions _ _).1 exported
    have ordered := pairwise_definitions files
    rw [split] at member ordered
    rcases List.mem_append.1 member with earlier | here
    · exact (List.pairwise_append.1 ordered).2.2 _ earlier (entry.file, symbol) (by simp)
    · rcases List.mem_cons.1 here with same | later
      · cases same
        exact Nat.le_refl _
      · exact absurd named' (none_later _ later shown')

theorem IsLastExporter.unique {name first second : String} (last : IsLastExporter files name first)
    (last' : IsLastExporter files name second) : first = second := by
  have place : files.keys.idxOf first = files.keys.idxOf second :=
    Nat.le_antisymm (last'.2 first last.1) (last.2 second last'.1)
  exact (List.idxOf_inj last.1.mem_keys).1 place

/-! ### The table of exported names -/

/-- The entry of a definition. -/
def entryOf (definition : String × Symbol) : SymbolEntry :=
  { name := definition.2.name, file := definition.1, kind := definition.2.kind }

theorem allExported_eq (files : FileMap) :
    allExported files =
      ((definitions files).filter (fun definition => definition.2.exported)).map entryOf := by
  rw [allExported, definitions, List.filter_flatMap, List.map_flatMap]
  apply List.flatMap_congr
  intro entry _
  obtain ⟨file, outline⟩ := entry
  cases outline with
  | none => rfl
  | some outline => simp [exportedEntries, List.filter_map, Function.comp_def, entryOf]

/-- The table has the last exported definition of each name. -/
theorem isLastDefinition_of_get? {name : String} {entry : SymbolEntry}
    (found : (symbolTable files).get? name = some entry) :
    entry.name = name ∧ IsLastDefinition files entry := by
  rw [symbolTable, OrderedMap.get?_ofList_eq_some_iff, allExported_eq, List.map_map] at found
  obtain ⟨_, _, split, last⟩ := found
  obtain ⟨_, _, shown, _, here⟩ := List.map_eq_append_iff.1 split
  obtain ⟨⟨file, symbol⟩, laterShown, rfl, same, rfl⟩ := List.map_eq_cons_iff.1 here
  cases same
  obtain ⟨before, rest, whole, _, begins⟩ := List.filter_eq_append_iff.1 shown
  obtain ⟨hidden, after, rfl, _, exported, rfl⟩ := List.filter_eq_cons_iff.1 begins
  refine ⟨rfl, before ++ hidden, symbol, after, ?_, exported, rfl, rfl, ?_⟩
  · rw [whole, List.append_assoc]
    rfl
  intro later member shown' named
  apply last
  rw [List.map_map]
  exact List.mem_map.2 ⟨later, List.mem_filter.2 ⟨member, shown'⟩, named⟩

theorem mem_keys_symbolTable_iff (name : String) :
    name ∈ (symbolTable files).keys ↔ ∃ file, Exports files file name := by
  rw [symbolTable, OrderedMap.mem_keys_ofList_iff, allExported_eq, List.map_map, List.map_map,
    List.mem_map]
  constructor
  · intro found
    obtain ⟨⟨file, symbol⟩, member, named⟩ := found
    obtain ⟨listed, shown⟩ := List.mem_filter.1 member
    exact ⟨file, (exports_iff_mem_definitions _ _).2 ⟨symbol, listed, shown, named⟩⟩
  · intro found
    obtain ⟨file, exported⟩ := found
    obtain ⟨symbol, listed, shown, named⟩ := (exports_iff_mem_definitions _ _).1 exported
    exact ⟨(file, symbol), List.mem_filter.2 ⟨listed, shown⟩, named⟩

/-- The table leads from a name to the last file that exports it. -/
theorem get?_symbolTable_iff (name file : String) :
    ((symbolTable files).get? name).map SymbolEntry.file = some file ↔
      IsLastExporter files name file := by
  constructor
  · intro found
    obtain ⟨entry, listed, rfl⟩ := Option.map_eq_some_iff.1 found
    obtain ⟨rfl, last⟩ := isLastDefinition_of_get? listed
    exact last.isLastExporter
  · intro last
    have present := (mem_keys_symbolTable_iff name).2 ⟨file, last.1⟩
    cases found : (symbolTable files).get? name with
    | none => exact absurd present (((symbolTable files).get?_eq_none_iff name).1 found)
    | some entry =>
      obtain ⟨rfl, defined⟩ := isLastDefinition_of_get? found
      exact congrArg some (defined.isLastExporter.unique last)

/-! ### Edges -/

theorem baseEdge?_eq_some_iff (table : OrderedMap String SymbolEntry) (path child base : String)
    (relation : Relation) (edge : Edge) :
    baseEdge? table path child relation base = some edge ↔
      ∃ target, (table.get? base).map SymbolEntry.file = some target ∧
        edge = ⟨path, target, relation, some child, some base⟩ := by
  rw [baseEdge?]
  cases table.get? base with
  | none => simp
  | some entry => simp [eq_comm]

theorem mem_classEdges_iff (table : OrderedMap String SymbolEntry) (path : String)
    (symbol : Symbol) (edge : Edge) :
    edge ∈ classEdges table path symbol ↔
      ∃ relation, ∃ base ∈ basesFor relation symbol, ∃ target,
        (table.get? base).map SymbolEntry.file = some target ∧
          edge = ⟨path, target, relation, some symbol.name, some base⟩ := by
  rw [classEdges, List.mem_append, List.mem_filterMap, List.mem_filterMap]
  simp only [baseEdge?_eq_some_iff]
  constructor
  · intro found
    rcases found with extended | implemented
    · exact ⟨.extends, extended⟩
    · exact ⟨.implements, implemented⟩
  · intro found
    obtain ⟨relation, base, named, rest⟩ := found
    cases relation with
    | «extends» => exact .inl ⟨base, named, rest⟩
    | implements => exact .inr ⟨base, named, rest⟩
    | imports => cases named
    | exports => cases named
    | reexports => cases named

theorem reexportSpecifier?_eq_some_iff (statement specifier : String) :
    reexportSpecifier? statement = some specifier ↔
      ∃ rest, statement = "* from " ++ rest ∧ stripText rest = specifier := by
  change _ ↔ ∃ rest, statement = Source.reexportLead ++ rest ∧ _
  rw [reexportSpecifier?, startsWith, ← String.length_toList]
  constructor
  · intro found
    split at found
    · next leads =>
      obtain ⟨rest, whole⟩ := List.isPrefixOf_iff_prefix.1 leads
      rw [← whole, List.drop_left] at found
      refine ⟨String.ofList rest, ?_, Option.some.inj found⟩
      rw [← String.toList_inj, String.toList_append, String.toList_ofList, whole]
    · cases found
  · intro found
    obtain ⟨rest, rfl, rfl⟩ := found
    rw [String.toList_append, List.drop_left, String.ofList_toList,
      if_pos (List.isPrefixOf_iff_prefix.2 (List.prefix_append _ _))]

theorem mem_reexportEdges_iff (known exports : List String) (path : String) (edge : Edge) :
    edge ∈ reexportEdges known path exports ↔
      ∃ rest, "* from " ++ rest ∈ exports ∧ ∃ target,
        Imports.resolve (stripText rest) path known = some target ∧
          edge = ⟨path, target, .reexports, none, none⟩ := by
  rw [reexportEdges, List.mem_filterMap]
  simp only [List.mem_filterMap, reexportSpecifier?_eq_some_iff, Option.map_eq_some_iff]
  constructor
  · intro found
    obtain ⟨_, ⟨_, stated, rest, rfl, rfl⟩, target, resolved, rfl⟩ := found
    exact ⟨rest, stated, target, resolved, rfl⟩
  · intro found
    obtain ⟨rest, stated, target, resolved, rfl⟩ := found
    exact ⟨_, ⟨_, stated, rest, rfl, rfl⟩, target, resolved, rfl⟩

theorem edges_build (files : FileMap) (imports : Imports.Graph) :
    (build files imports).edges = imports.edges.map importEdge ++
      files.entries.flatMap (fun entry =>
        fileEdges (symbolTable files) files.keys entry.1 entry.2) :=
  rfl

/-- The edges are those that there should be. -/
theorem mem_edges_build_iff (imports : Imports.Graph) (edge : Edge) :
    edge ∈ (build files imports).edges ↔ IsEdge files imports edge := by
  rw [edges_build, List.mem_append, List.mem_map, List.mem_flatMap]
  constructor
  · intro found
    rcases found with ⟨imported, listed, rfl⟩ | ⟨⟨file, outline⟩, listed, member⟩
    · exact .imports listed
    · have parsed := (files.get?_eq_some_iff file outline).2 listed
      cases outline with
      | none => cases member
      | some outline =>
        rcases List.mem_append.1 member with inherited | reexported
        · obtain ⟨symbol, defined, given⟩ := List.mem_flatMap.1 inherited
          obtain ⟨relation, base, named, target, found, rfl⟩ :=
            (mem_classEdges_iff _ _ _ _).1 given
          exact .inherits parsed defined named ((get?_symbolTable_iff base target).1 found)
        · obtain ⟨rest, stated, target, resolved, rfl⟩ :=
            (mem_reexportEdges_iff _ _ _ _).1 reexported
          exact .reexports parsed stated resolved
  · intro there
    cases there with
    | imports listed => exact .inl ⟨_, listed, rfl⟩
    | @inherits file target base outline symbol relation parsed defined named last =>
      right
      refine ⟨(file, some outline), (files.get?_eq_some_iff _ _).1 parsed, ?_⟩
      apply List.mem_append_left
      apply List.mem_flatMap.2
      have found := (get?_symbolTable_iff base target).2 last
      exact ⟨symbol, defined,
        (mem_classEdges_iff _ _ _ _).2 ⟨relation, base, named, target, found, rfl⟩⟩
    | @reexports file target rest outline parsed stated resolved =>
      right
      refine ⟨(file, some outline), (files.get?_eq_some_iff _ _).1 parsed, ?_⟩
      apply List.mem_append_right
      exact (mem_reexportEdges_iff _ _ _ _).2 ⟨rest, stated, target, resolved, rfl⟩

/-! ### How often an edge is there -/

theorem source_of_mem_fileEdges {table : OrderedMap String SymbolEntry} {known : List String}
    {path : String} {outline : Option Outline} {edge : Edge}
    (member : edge ∈ fileEdges table known path outline) :
    edge.source = path ∧ edge.relation ≠ .imports := by
  cases outline with
  | none => cases member
  | some outline =>
    rcases List.mem_append.1 member with inherited | reexported
    · obtain ⟨symbol, _, given⟩ := List.mem_flatMap.1 inherited
      obtain ⟨relation, base, named, target, _, rfl⟩ := (mem_classEdges_iff _ _ _ _).1 given
      refine ⟨rfl, ?_⟩
      rintro rfl
      cases named
    · obtain ⟨_, _, target, _, rfl⟩ := (mem_reexportEdges_iff _ _ _ _).1 reexported
      exact ⟨rfl, by simp⟩

/-- A class gives an edge to a base as often as it names the base. -/
theorem count_classEdges {table : OrderedMap String SymbolEntry} {target base : String}
    (found : (table.get? base).map SymbolEntry.file = some target) (path child : String)
    (relation : Relation) (symbol : Symbol) :
    (classEdges table path symbol).count ⟨path, target, relation, some child, some base⟩ =
      if symbol.name = child then (basesFor relation symbol).count base else 0 := by
  have counted (other : Relation) (bases : List String) :
      (bases.filterMap (baseEdge? table path symbol.name other)).count
          ⟨path, target, relation, some child, some base⟩ =
        if other = relation ∧ symbol.name = child then bases.count base else 0 := by
    rw [List.count_filterMap]
    split
    · next same =>
      obtain ⟨rfl, rfl⟩ := same
      apply List.countP_congr
      intro each _
      rw [beq_iff_eq, baseEdge?_eq_some_iff, beq_iff_eq]
      constructor
      · intro given
        obtain ⟨_, _, equal⟩ := given
        cases equal
        rfl
      · intro equal
        subst equal
        exact ⟨target, found, rfl⟩
    · next different =>
      apply List.countP_eq_zero.2
      intro each _ given
      rw [beq_iff_eq, baseEdge?_eq_some_iff] at given
      obtain ⟨_, _, equal⟩ := given
      cases equal
      exact different ⟨rfl, rfl⟩
  rw [classEdges, List.count_append, counted, counted]
  cases relation <;> simp [basesFor]

/-- A file gives an edge from a class to a base as often as such a class names the base. -/
theorem count_edges_build {file target base : String} {outline : Outline}
    (parsed : files.get? file = some (some outline)) (last : IsLastExporter files base target)
    (imports : Imports.Graph) (relation : Relation) (child : String) :
    (build files imports).edges.count ⟨file, target, relation, some child, some base⟩ =
      (outline.classes.map (fun symbol =>
        if symbol.name = child then (basesFor relation symbol).count base else 0)).sum := by
  have found := (get?_symbolTable_iff base target).2 last
  have imported : (imports.edges.map importEdge).count
      ⟨file, target, relation, some child, some base⟩ = 0 := by
    apply List.count_eq_zero.2
    intro member
    obtain ⟨edge, _, equal⟩ := List.mem_map.1 member
    cases equal
  have reexported : (reexportEdges files.keys file outline.exports).count
      ⟨file, target, relation, some child, some base⟩ = 0 := by
    apply List.count_eq_zero.2
    intro member
    obtain ⟨_, _, _, _, equal⟩ := (mem_reexportEdges_iff _ _ _ _).1 member
    cases equal
  have elsewhere : ∀ entry ∈ files.entries, entry.1 ≠ file →
      (fileEdges (symbolTable files) files.keys entry.1 entry.2).count
        ⟨file, target, relation, some child, some base⟩ = 0 := by
    intro entry _ different
    apply List.count_eq_zero.2
    intro given
    exact different (source_of_mem_fileEdges given).1.symm
  rw [edges_build, List.count_append, imported, Nat.zero_add, List.count_flatMap,
    Function.comp_def, files.sum_map_entries parsed _ elsewhere, fileEdges, List.count_append,
    reexported, Nat.add_zero, List.count_flatMap]
  congr 1
  apply List.map_congr_left
  intro symbol _
  exact count_classEdges found file child relation symbol

/-! ### The graph -/

theorem paths_nodes_build (files : FileMap) (imports : Imports.Graph) :
    (build files imports).nodes.map Node.path = files.keys := by
  simp [build, OrderedMap.keys, Function.comp_def]

/-- The node of a file that exports a name lists it. -/
theorem Exports.mem_symbols {file name : String} (exported : Exports files file name)
    (imports : Imports.Graph) :
    ∃ node ∈ (build files imports).nodes, node.path = file ∧ name ∈ node.symbols := by
  obtain ⟨outline, parsed, symbol, defined, shown, named⟩ := exported
  refine ⟨_, List.mem_map_of_mem ((files.get?_eq_some_iff _ _).1 parsed), rfl, ?_⟩
  exact List.mem_map.2 ⟨symbol, List.mem_filter.2 ⟨defined, shown⟩, named⟩

theorem IsEdge.mem_keys {edge : Edge} (there : IsEdge files (Imports.build files) edge) :
    edge.source ∈ files.keys ∧ edge.target ∈ files.keys := by
  have known {file : String} {outline : Outline}
      (parsed : files.get? file = some (some outline)) : file ∈ files.keys :=
    List.mem_map_of_mem (f := Prod.fst) ((files.get?_eq_some_iff _ _).1 parsed)
  cases there with
  | imports listed => exact Imports.mem_keys_of_mem_edges listed
  | inherits parsed _ _ last => exact ⟨known parsed, last.1.mem_keys⟩
  | reexports parsed _ resolved => exact ⟨known parsed, Imports.mem_of_resolve resolved⟩

theorem IsEdge.isLastExporter {imports : Imports.Graph} {file target child base : String}
    {relation : Relation}
    (there : IsEdge files imports ⟨file, target, relation, some child, some base⟩) :
    IsLastExporter files base target := by
  cases there with
  | inherits _ _ _ last => exact last

theorem filter_imports_build (imports : Imports.Graph) :
    (build files imports).edges.filter (fun edge => edge.relation = .imports) =
      imports.edges.map importEdge := by
  have all : (imports.edges.map importEdge).filter (fun edge => edge.relation = .imports) =
      imports.edges.map importEdge := by
    apply List.filter_eq_self.2
    intro edge member
    obtain ⟨_, _, rfl⟩ := List.mem_map.1 member
    rfl
  have none : (files.entries.flatMap (fun entry =>
      fileEdges (symbolTable files) files.keys entry.1 entry.2)).filter
        (fun edge => edge.relation = .imports) = [] := by
    apply List.filter_eq_nil_iff.2
    intro edge member
    obtain ⟨entry, _, given⟩ := List.mem_flatMap.1 member
    simpa using (source_of_mem_fileEdges given).2
  rw [edges_build, List.filter_append, all, none, List.append_nil]

/-- The re-exports of a file are those of its own export statements. -/
theorem filter_reexports_build {file : String} {outline : Outline}
    (parsed : files.get? file = some (some outline)) (imports : Imports.Graph) :
    (build files imports).edges.filter
        (fun edge => edge.relation = .reexports ∧ edge.source = file) =
      reexportEdges files.keys file outline.exports := by
  have imported : (imports.edges.map importEdge).filter
      (fun edge => edge.relation = .reexports ∧ edge.source = file) = [] := by
    apply List.filter_eq_nil_iff.2
    intro edge member
    obtain ⟨_, _, rfl⟩ := List.mem_map.1 member
    simp [importEdge]
  have elsewhere : ∀ entry ∈ files.entries, entry.1 ≠ file →
      (fileEdges (symbolTable files) files.keys entry.1 entry.2).filter
        (fun edge => edge.relation = .reexports ∧ edge.source = file) = [] := by
    intro entry _ different
    apply List.filter_eq_nil_iff.2
    intro edge given
    rw [(source_of_mem_fileEdges given).1]
    simp [different]
  have inherited : (outline.classes.flatMap (classEdges (symbolTable files) file)).filter
      (fun edge => edge.relation = .reexports ∧ edge.source = file) = [] := by
    apply List.filter_eq_nil_iff.2
    intro edge member
    obtain ⟨symbol, _, given⟩ := List.mem_flatMap.1 member
    obtain ⟨relation, base, named, _, _, rfl⟩ := (mem_classEdges_iff _ _ _ _).1 given
    cases relation with
    | reexports => cases named
    | _ => simp
  have reexported : (reexportEdges files.keys file outline.exports).filter
      (fun edge => edge.relation = .reexports ∧ edge.source = file) =
        reexportEdges files.keys file outline.exports := by
    apply List.filter_eq_self.2
    intro edge member
    obtain ⟨_, _, _, _, rfl⟩ := (mem_reexportEdges_iff _ _ _ _).1 member
    simp
  rw [edges_build, List.filter_append, imported, List.nil_append, List.filter_flatMap,
    files.flatMap_entries parsed _ elsewhere, fileEdges, List.filter_append, inherited, reexported,
    List.nil_append]

/-- The architecture graph is what it has to be. -/
theorem isArchitecture_build (files : FileMap) :
    IsArchitecture files (Imports.build files) (build files (Imports.build files)) := by
  constructor
  case ends_known =>
    intro edge member
    rw [paths_nodes_build]
    exact ((mem_edges_build_iff _ edge).1 member).mem_keys
  case mem_table_iff => exact mem_keys_symbolTable_iff
  case table_last =>
    intro name entry
    exact isLastDefinition_of_get?
  case inherits_iff =>
    intro relation file outline symbol base parsed defined named
    constructor
    · intro found
      obtain ⟨target, member⟩ := found
      exact ⟨target, ((mem_edges_build_iff _ _).1 member).isLastExporter.1⟩
    · intro exported
      have present := (mem_keys_symbolTable_iff base).2 exported
      cases found : (symbolTable files).get? base with
      | none => exact absurd present (((symbolTable files).get?_eq_none_iff base).1 found)
      | some entry =>
        have last : IsLastExporter files base entry.file :=
          (get?_symbolTable_iff base entry.file).1 (by rw [found]; rfl)
        exact ⟨entry.file, (mem_edges_build_iff _ _).2 (.inherits parsed defined named last)⟩
  case inherits_last =>
    intro relation file target child base member
    have last := ((mem_edges_build_iff _ _).1 member).isLastExporter
    exact ⟨last, last.1.mem_symbols _⟩
  case inherits_count =>
    intro relation file outline target child base parsed last
    exact count_edges_build parsed last _ relation child
  case imports_eq => exact filter_imports_build _
  case reexports_iff =>
    intro file target
    rw [mem_edges_build_iff]
    constructor
    · intro there
      cases there with
      | reexports parsed stated resolved => exact ⟨_, parsed, _, stated, resolved⟩
    · intro found
      obtain ⟨outline, parsed, rest, stated, resolved⟩ := found
      exact .reexports parsed stated resolved
  case mem_edges_iff => exact mem_edges_build_iff _

end RepoAtlas.Architecture
