/-
Module: RepoAtlas.Proofs.SiblingOrder
Purpose: What the drawing of a directory tree forgets.
  Siblings are drawn directories first and then by name, and as their names differ that leaves one
  order.  Two trees of paths are therefore the same once sorted exactly if the same routes lead down
  them, and which path was listed when, or how often, does not show.
Main exports: DirectoryNode.childrenRec, StandsBefore, pairwise_standsBefore, mergeSort_eq_of_perm,
  children_sorted, mergeSort_sorted_eq_of_routes, sorted_treeOf_eq_iff, draw_treeOf_of_same_paths
-/
import RepoAtlas.Proofs.DirectoryRoutes
import Mathlib.Data.Prod.Lex
import Mathlib.Data.String.Basic

namespace RepoAtlas.Overview

variable {degrees : String → Option Int} {above : List String} {node other : DirectoryNode}
  {entries others : List DirectoryNode}

/-- What holds of a node whenever it holds of its entries holds of every node. -/
theorem DirectoryNode.childrenRec {motive : DirectoryNode → Prop}
    (step : ∀ node, (∀ child ∈ node.children, motive child) → motive node)
    (node : DirectoryNode) : motive node := by
  apply step
  intro child inside
  exact DirectoryNode.childrenRec step child
termination_by sizeOf node
decreasing_by
  obtain ⟨name, path, hubCount, children⟩ := node
  have smaller := List.sizeOf_lt_of_mem inside
  simp only [DirectoryNode.children] at smaller
  simp only [DirectoryNode.node.sizeOf_spec]
  omega

/-! ### The order of siblings -/

/-- Whether a node is drawn before another: directories before files, and within each by name in the
order of code points. -/
inductive StandsBefore (first second : DirectoryNode) : Prop
  | directory (filled : first.children ≠ []) (empty : second.children = [])
  | name (alike : first.children = [] ↔ second.children = []) (earlier : first.name < second.name)

/-- What siblings are sorted by: whether they are without entries, then the name. -/
def drawingKey (node : DirectoryNode) : Bool ×ₗ String :=
  toLex (node.children.isEmpty, node.name)

theorem drawnBefore_eq (first second : DirectoryNode) :
    drawnBefore first second = decide (drawingKey first ≤ drawingKey second) := by
  rw [drawnBefore, Bool.eq_iff_iff, decide_eq_true_eq, drawingKey, drawingKey,
    Prod.Lex.toLex_le_toLex]
  cases first.children.isEmpty <;> cases second.children.isEmpty <;> simp

theorem standsBefore_iff (first second : DirectoryNode) :
    StandsBefore first second ↔ drawingKey first < drawingKey second := by
  have kind : (first.children = [] ↔ second.children = []) ↔
      first.children.isEmpty = second.children.isEmpty := by
    rw [Bool.eq_iff_iff, List.isEmpty_iff, List.isEmpty_iff]
  rw [drawingKey, drawingKey, Prod.Lex.toLex_lt_toLex, Bool.lt_iff, List.isEmpty_eq_false_iff,
    List.isEmpty_iff, ← kind]
  constructor
  · rintro (⟨filled, empty⟩ | ⟨alike, earlier⟩)
    · exact .inl ⟨filled, empty⟩
    · exact .inr ⟨alike, earlier⟩
  · rintro (⟨filled, empty⟩ | ⟨alike, earlier⟩)
    · exact .directory filled empty
    · exact .name alike earlier

instance : DecidableRel StandsBefore :=
  fun first second => decidable_of_iff _ (standsBefore_iff first second).symm

theorem StandsBefore.asymm {first second : DirectoryNode} (before : StandsBefore first second) :
    ¬ StandsBefore second first := by
  rw [standsBefore_iff] at before ⊢
  exact lt_asymm before

instance : Std.Asymm StandsBefore :=
  ⟨fun _ _ => StandsBefore.asymm⟩

theorem pairwise_standsBefore (distinct : (entries.map DirectoryNode.name).Nodup) :
    (entries.mergeSort drawnBefore).Pairwise StandsBefore := by
  have transitive : ∀ first second third, drawnBefore first second → drawnBefore second third →
      drawnBefore first third := by
    simp only [drawnBefore_eq, decide_eq_true_eq]
    exact fun _ _ _ before after => before.trans after
  have total : ∀ first second, (drawnBefore first second || drawnBefore second first) = true := by
    simp only [drawnBefore_eq, Bool.or_eq_true, decide_eq_true_eq]
    exact fun _ _ => le_total _ _
  have sorted := List.pairwise_mergeSort transitive total entries
  have apart : (entries.mergeSort drawnBefore).Pairwise
      (fun first second => first.name ≠ second.name) := by
    rw [← List.pairwise_map]
    exact ((List.mergeSort_perm entries drawnBefore).map DirectoryNode.name).nodup_iff.2 distinct
  apply (sorted.and apart).imp
  rintro first second ⟨before, different⟩
  rw [drawnBefore_eq, decide_eq_true_eq] at before
  rw [standsBefore_iff]
  exact lt_of_le_of_ne before (fun equal => different (Prod.mk.inj (congrArg ofLex equal)).2)

/-- Siblings of different names have one order. -/
theorem mergeSort_eq_of_perm (distinct : (entries.map DirectoryNode.name).Nodup)
    (same : entries.Perm others) :
    entries.mergeSort drawnBefore = others.mergeSort drawnBefore := by
  have distinct' : (others.map DirectoryNode.name).Nodup :=
    (same.map DirectoryNode.name).nodup_iff.1 distinct
  apply List.Perm.eq_of_pairwise _ (pairwise_standsBefore distinct)
    (pairwise_standsBefore distinct')
  · exact (List.mergeSort_perm _ _).trans (same.trans (List.mergeSort_perm _ _).symm)
  · intro first second _ _ before after
    exact absurd after before.asymm

/-! ### Sorted trees -/

theorem sortedAll_eq_map (entries : List DirectoryNode) :
    sortedAll entries = entries.map sorted := by
  induction entries with
  | nil => rfl
  | cons child rest ih => rw [sortedAll, ih, List.map_cons]

@[simp] theorem name_sorted (node : DirectoryNode) : (sorted node).name = node.name := by
  cases node
  rfl

@[simp] theorem hubCount_sorted (node : DirectoryNode) :
    (sorted node).hubCount = node.hubCount := by
  cases node
  rfl

theorem map_name_sorted (entries : List DirectoryNode) :
    (entries.map sorted).map DirectoryNode.name = entries.map DirectoryNode.name := by
  rw [List.map_map]
  exact List.map_congr_left (fun child _ => name_sorted child)

theorem sorted_eq (node : DirectoryNode) :
    sorted node =
      node.withChildren ((node.children.map sorted).mergeSort drawnBefore) := by
  obtain ⟨name, path, hubCount, children⟩ := node
  rw [sorted, sortedAll_eq_map]
  rfl

theorem children_withChildren (node : DirectoryNode) (entries : List DirectoryNode) :
    (node.withChildren entries).children = entries := by
  cases node
  rfl

theorem children_sorted_eq_nil_iff (node : DirectoryNode) :
    (sorted node).children = [] ↔ node.children = [] := by
  rw [sorted_eq, children_withChildren, ← List.length_eq_zero_iff, List.length_mergeSort,
    List.length_map, List.length_eq_zero_iff]

/-- Sorting below siblings does not change their order. -/
theorem drawnBefore_sorted (first second : DirectoryNode) :
    drawnBefore (sorted first) (sorted second) = drawnBefore first second := by
  have empty (node : DirectoryNode) :
      (sorted node).children.isEmpty = node.children.isEmpty := by
    rw [Bool.eq_iff_iff, List.isEmpty_iff, List.isEmpty_iff, children_sorted_eq_nil_iff]
  rw [drawnBefore, drawnBefore, empty, empty, name_sorted, name_sorted]

/-- The entries of a sorted node are the sorted entries, in order. -/
theorem children_sorted (node : DirectoryNode) :
    (sorted node).children = (node.children.mergeSort drawnBefore).map sorted := by
  rw [sorted_eq, children_withChildren]
  exact (List.map_mergeSort (fun first _ second _ => (drawnBefore_sorted first second).symm)).symm

/-! ### Trees with the same routes -/

theorem mem_routesOf_of_mem (above : List String) (member : node ∈ entries) :
    above ++ [node.name] ∈ routesOf above entries := by
  rw [mem_routesOf_iff]
  exact ⟨node, member, by rw [routes_eq]; exact List.mem_cons_self⟩

theorem mem_names_iff (above : List String) (name : String) :
    name ∈ entries.map DirectoryNode.name ↔ above ++ [name] ∈ routesOf above entries := by
  constructor
  · intro member
    obtain ⟨child, listed, rfl⟩ := List.mem_map.1 member
    exact mem_routesOf_of_mem above listed
  · intro member
    obtain ⟨child, listed, tail, same⟩ := exists_of_mem_routesOf entries member
    obtain ⟨rfl, _⟩ := List.cons.inj (List.append_cancel_left same)
    exact List.mem_map_of_mem listed

/-- The routes below an entry are those that go through its name. -/
theorem mem_routesOf_children_iff (distinct : (entries.map DirectoryNode.name).Nodup)
    (member : node ∈ entries) (route : List String) :
    route ∈ routesOf (above ++ [node.name]) node.children ↔
      route ∈ routesOf above entries ∧ ∃ next tail, route = above ++ node.name :: next :: tail := by
  have through : route ∈ routesOf above entries ↔ ∃ child ∈ entries, route ∈ child.routes above :=
    mem_routesOf_iff route
  rw [through]
  constructor
  · intro below
    obtain ⟨child, _, tail, same⟩ := exists_of_mem_routesOf node.children below
    refine ⟨⟨node, member, ?_⟩, child.name, tail, ?_⟩
    · rw [routes_eq]
      exact List.mem_cons_of_mem _ below
    · rw [same, List.append_assoc, List.singleton_append]
  · rintro ⟨⟨child, listed, through⟩, next, tail, rfl⟩
    obtain ⟨tail', same⟩ := exists_of_mem_routes child through
    obtain ⟨names, _⟩ := List.cons.inj (List.append_cancel_left same)
    obtain rfl := List.inj_on_of_nodup_map distinct member listed names
    rw [routes_eq, List.mem_cons] at through
    refine through.resolve_left ?_
    intro short
    have lengths := congrArg List.length short
    simp at lengths

/-- Siblings of the same names have the same sorted trees if those of each name have. -/
theorem map_sorted_perm (distinct : (entries.map DirectoryNode.name).Nodup)
    (distinct' : (others.map DirectoryNode.name).Nodup)
    (names : ∀ name, name ∈ entries.map DirectoryNode.name ↔ name ∈ others.map DirectoryNode.name)
    (alike : ∀ child ∈ entries, ∀ child' ∈ others, child.name = child'.name →
      sorted child = sorted child') :
    (entries.map sorted).Perm (others.map sorted) := by
  have once : (entries.map sorted).Nodup := by
    apply List.Nodup.of_map DirectoryNode.name
    rwa [map_name_sorted]
  have once' : (others.map sorted).Nodup := by
    apply List.Nodup.of_map DirectoryNode.name
    rwa [map_name_sorted]
  rw [List.perm_ext_iff_of_nodup once once']
  intro tree
  rw [List.mem_map, List.mem_map]
  constructor
  · rintro ⟨child, member, rfl⟩
    obtain ⟨child', member', same⟩ := List.mem_map.1 ((names _).1 (List.mem_map_of_mem member))
    exact ⟨child', member', (alike child member child' member' same.symm).symm⟩
  · rintro ⟨child', member', rfl⟩
    obtain ⟨child, member, same⟩ := List.mem_map.1 ((names _).2 (List.mem_map_of_mem member'))
    exact ⟨child, member, alike child member child' member' same⟩

/-- Nodes of one name that are placed in one directory differ below them only. -/
theorem withChildren_eq_of_placed (placed : node.IsPlaced degrees above)
    (placed' : other.IsPlaced degrees above) (named : node.name = other.name)
    (children : List DirectoryNode) : node.withChildren children = other.withChildren children := by
  obtain ⟨name, path, hubCount, _⟩ := node
  obtain ⟨name', path', hubCount', _⟩ := other
  obtain ⟨rfl, rfl, _⟩ := placed
  obtain ⟨rfl, rfl, _⟩ := placed'
  obtain rfl : name = name' := named
  rfl

/-- Siblings in one directory are the same once sorted, on every level, if the same routes lead
through them. -/
theorem mergeSort_sorted_eq_of_routes (siblings : AreSiblings degrees above node.children)
    (siblings' : AreSiblings degrees above others)
    (same : ∀ route, route ∈ routesOf above node.children ↔ route ∈ routesOf above others) :
    (node.children.map sorted).mergeSort drawnBefore =
      (others.map sorted).mergeSort drawnBefore := by
  induction node using DirectoryNode.childrenRec generalizing above others with
  | step node ih =>
    apply mergeSort_eq_of_perm (by rw [map_name_sorted]; exact siblings.distinct)
    apply map_sorted_perm siblings.distinct siblings'.distinct
    · intro name
      rw [mem_names_iff above, same, ← mem_names_iff]
    · intro child member child' member' named
      have placed := arePlaced_iff.1 siblings.placed child member
      have placed' := arePlaced_iff.1 siblings'.placed child' member'
      have below := placed'.areSiblings
      rw [← named] at below
      have children := ih child member placed.areSiblings below (by
        intro route
        rw [mem_routesOf_children_iff siblings.distinct member, same, named,
          ← mem_routesOf_children_iff siblings'.distinct member'])
      rw [sorted_eq, sorted_eq, children]
      exact withChildren_eq_of_placed placed placed' named _

/-- Sorting a tree keeps its routes. -/
theorem mem_routesOf_sorted_iff (node : DirectoryNode) (route : List String) :
    route ∈ routesOf above (sorted node).children ↔ route ∈ routesOf above node.children := by
  induction node using DirectoryNode.childrenRec generalizing above with
  | step node ih =>
    rw [mem_routesOf_iff, mem_routesOf_iff, children_sorted]
    simp only [List.mem_map, List.mem_mergeSort, exists_exists_and_eq_and]
    apply exists_congr
    intro child
    apply and_congr_right
    intro member
    rw [routes_eq, routes_eq child, name_sorted, List.mem_cons, List.mem_cons, ih child member]

/-! ### Trees of the same paths -/

section Tree

variable (paths listed : List String) (degrees : String → Option Int)

/-- The trees of two lists of paths are the same once sorted exactly if the same beginnings occur in
both. -/
theorem sorted_treeOf_eq_iff :
    sorted (treeOf paths degrees) = sorted (treeOf listed degrees) ↔
      ∀ route, route ≠ [] → ((∃ path ∈ paths, route <+: segments path) ↔
        ∃ path ∈ listed, route <+: segments path) := by
  have routes : (∀ route, route ∈ routesOf [] (treeOf paths degrees).children ↔
      route ∈ routesOf [] (treeOf listed degrees).children) ↔
        ∀ route, route ≠ [] → ((∃ path ∈ paths, route <+: segments path) ↔
          ∃ path ∈ listed, route <+: segments path) := by
    have leads (given : List String) (route : List String) :
        route ∈ routesOf [] (treeOf given degrees).children ↔
          route ≠ [] ∧ ∃ path ∈ given, route <+: segments path := by
      rw [mem_routesOf_treeOf]
      simp only [and_left_comm, exists_and_left]
    simp only [leads, and_congr_right_iff]
  rw [← routes]
  constructor
  · intro equal route
    rw [← mem_routesOf_sorted_iff, equal, mem_routesOf_sorted_iff]
  · intro same
    have children := mergeSort_sorted_eq_of_routes (areSiblings_treeOf paths degrees)
      (areSiblings_treeOf listed degrees) same
    rw [sorted_eq, sorted_eq, children]
    rfl

end Tree

/-- The drawing of some paths depends neither on their order nor on how often each is listed. -/
theorem draw_treeOf_of_same_paths {paths listed : List String}
    (same : ∀ path, path ∈ paths ↔ path ∈ listed) (degrees : String → Option Int) :
    draw (treeOf paths degrees) = draw (treeOf listed degrees) := by
  have sorted : sorted (treeOf paths degrees) = sorted (treeOf listed degrees) := by
    rw [sorted_treeOf_eq_iff]
    intro route _
    simp only [same]
  rw [draw, draw, sorted]

/-- Two trees whose entries stand in different orders are drawn alike. -/
theorem draw_treeOf_of_same_paths_relisted :
    let paths := ["setup.py", "lib/a.py"]
    let listed := ["lib/a.py", "setup.py", "lib/a.py"]
    let degrees := fun path => if path = "lib/a.py" then some (3 : Int) else none
    (∀ path, path ∈ paths ↔ path ∈ listed) ∧
      (treeOf paths degrees).children.map DirectoryNode.name = ["setup.py", "lib"] ∧
      (treeOf listed degrees).children.map DirectoryNode.name = ["lib", "setup.py"] ∧
      draw (treeOf paths degrees) = draw (treeOf listed degrees) := by
  intro paths listed degrees
  have same : ∀ path, path ∈ paths ↔ path ∈ listed := by
    intro path
    simp only [paths, listed, List.mem_cons, List.not_mem_nil, or_false]
    tauto
  exact ⟨same, by decide, by decide, draw_treeOf_of_same_paths same degrees⟩

end RepoAtlas.Overview
