/-
Module: RepoAtlas.Proofs.DirectoryGrowth
Purpose: What the directory tree of some paths is, level by level.
  Below a directory stand the names that follow it in the paths, each once and in the order in which
  the paths first lead there, and below each of them the same is true of what follows in turn.  So
  the order of siblings is that of first appearance, and a path that is covered already adds
  nothing.
Main exports: LeadDown, entriesBelow, firstThrough, IsCovered, IsDirectoryTree, following, grown,
  branch, grown_eq, insertPath_grown_of_covered, entriesBelow_grown, isDirectoryTree_treeOf,
  treeOf_holds_prefixes
-/
import RepoAtlas.Proofs.DirectoryRoutes
import RepoAtlas.Proofs.ImportGraph

namespace RepoAtlas.Overview

/-! ### Ways down a tree -/

/-- Whether nodes lead down from a directory, each an entry of the one before. -/
def LeadDown : (entries chain : List DirectoryNode) → Prop
  | _, [] => True
  | entries, node :: below => node ∈ entries ∧ LeadDown node.children below

/-- The entries of the directory that a chain of nodes leads down to. -/
def entriesBelow : (entries chain : List DirectoryNode) → List DirectoryNode
  | entries, [] => entries
  | _, node :: below => entriesBelow node.children below

/-- The position of the first path that goes along a route. -/
def firstThrough (paths : List String) (route : List String) : Nat :=
  paths.findIdx (fun path => route <+: segments path)

/-- Whether the nodes of a path are among those of some paths. -/
def IsCovered (paths : List String) (path : String) : Prop :=
  segments path = [] ∨ ∃ listed ∈ paths, segments path <+: segments listed

/-- What the directory tree of some paths is.  Siblings differ in name.  A node below the root has
the path that the names leading to it make up, and the number of importers recorded for that path.
These paths are the beginnings of the given ones, each at one node.  The entries of a directory
stand in the order in which the paths first lead to them. -/
structure IsDirectoryTree (paths : List String) (degrees : String → Option Int)
    (tree : DirectoryNode) : Prop where
  nodup_names : ∀ chain, LeadDown tree.children chain →
    ((entriesBelow tree.children chain).map DirectoryNode.name).Nodup
  path_eq : ∀ chain, LeadDown tree.children chain → ∀ node ∈ entriesBelow tree.children chain,
    node.path = String.intercalate "/" (chain.map DirectoryNode.name ++ [node.name])
  mem_paths_iff : ∀ path, path ∈ (nodesOf tree.children).map DirectoryNode.path ↔
    ∃ listed ∈ paths, ∃ front, front ≠ [] ∧ front <+: segments listed ∧
      path = String.intercalate "/" front
  nodup_paths : ((nodesOf tree.children).map DirectoryNode.path).Nodup
  hubCount_eq : ∀ node ∈ nodesOf tree.children, node.hubCount = degrees node.path
  ordered : ∀ chain, LeadDown tree.children chain →
    ((entriesBelow tree.children chain).map DirectoryNode.name).Pairwise (fun first second =>
      firstThrough paths (chain.map DirectoryNode.name ++ [first]) <
        firstThrough paths (chain.map DirectoryNode.name ++ [second]))

/-! ### One level of a tree -/

/-- What follows a route in the lists that begin with it. -/
def following (route : List String) (lists : List (List String)) : List (List String) :=
  lists.filterMap (fun parts => route.isPrefixOf? parts)

/-- The entries of a directory after lists of segments have been added below it. -/
def grown (degrees : String → Option Int) (above : List String) (lists : List (List String)) :
    List DirectoryNode :=
  lists.foldl (fun children parts => insertPath degrees above parts children) []

/-- The entry of a name, with what follows the name in the lists below it. -/
def branch (degrees : String → Option Int) (above : List String) (lists : List (List String))
    (name : String) : DirectoryNode :=
  .node name (pathOf (above ++ [name])) (degrees (pathOf (above ++ [name])))
    (grown degrees (above ++ [name]) (following [name] lists))

variable {degrees : String → Option Int} {above : List String}

theorem mem_following_iff (route rest : List String) (lists : List (List String)) :
    rest ∈ following route lists ↔ route ++ rest ∈ lists := by
  simp [following]

theorem following_nil (lists : List (List String)) : following [] lists = lists := by
  simp [following, List.isPrefixOf?]

theorem following_cons (name : String) (route : List String) (lists : List (List String)) :
    following (name :: route) lists = following route (following [name] lists) := by
  rw [following, following, following, List.filterMap_filterMap]
  apply List.filterMap_congr
  intro parts _
  cases parts with
  | nil => simp [List.isPrefixOf?]
  | cons part rest => by_cases same : name = part <;> simp [List.isPrefixOf?, same]

theorem following_concat (route : List String) (lists : List (List String)) (parts : List String) :
    following route (lists ++ [parts]) =
      following route lists ++ (route.isPrefixOf? parts).toList := by
  simp [following, List.filterMap_append, List.filterMap_cons]
  cases route.isPrefixOf? parts <;> rfl

theorem mem_heads_iff (name : String) (lists : List (List String)) :
    name ∈ lists.filterMap List.head? ↔ ∃ rest, name :: rest ∈ lists := by
  rw [List.mem_filterMap]
  constructor
  · rintro ⟨parts, member, first⟩
    obtain ⟨rest, rfl⟩ := List.head?_eq_some_iff.1 first
    exact ⟨rest, member⟩
  · rintro ⟨rest, member⟩
    exact ⟨name :: rest, member, rfl⟩

theorem grown_concat (lists : List (List String)) (parts : List String) :
    grown degrees above (lists ++ [parts]) =
      insertPath degrees above parts (grown degrees above lists) := by
  rw [grown, List.foldl_append]
  rfl

theorem name_branch (lists : List (List String)) (name : String) :
    (branch degrees above lists name).name = name :=
  rfl

theorem children_branch (lists : List (List String)) (name : String) :
    (branch degrees above lists name).children =
      grown degrees (above ++ [name]) (following [name] lists) :=
  rfl

/-- One more list changes the entry that it begins with, and no other. -/
theorem branch_concat (lists : List (List String)) (part : String) (rest : List String)
    (name : String) :
    branch degrees above (lists ++ [part :: rest]) name =
      if name = part then (branch degrees above lists name).withChildren
        (insertPath degrees (above ++ [part]) rest (branch degrees above lists name).children)
      else branch degrees above lists name := by
  rw [branch, following_concat]
  split
  · next same =>
    subst same
    have taken : [name].isPrefixOf? (name :: rest) = some rest := by simp
    rw [taken, Option.toList_some, grown_concat]
    rfl
  · next different =>
    have passed : [name].isPrefixOf? (part :: rest) = none := by
      simp [List.isPrefixOf?, different]
    rw [passed, Option.toList_none, List.append_nil]
    rfl

/-- Adding a list to a level that is grouped by names groups it with the others. -/
theorem insertPath_branches (lists : List (List String)) (parts : List String) :
    insertPath degrees above parts
        ((lists.filterMap List.head?).eraseDups.map (branch degrees above lists)) =
      ((lists ++ [parts]).filterMap List.head?).eraseDups.map
        (branch degrees above (lists ++ [parts])) := by
  cases parts with
  | nil =>
    have heads : (lists ++ [[]]).filterMap List.head? = lists.filterMap List.head? := by
      rw [List.filterMap_append, List.filterMap_cons_none rfl, List.filterMap_nil, List.append_nil]
    rw [insertPath, heads]
    apply List.map_congr_left
    intro name _
    have passed : [name].isPrefixOf? ([] : List String) = none := rfl
    rw [branch, branch, following_concat, passed, Option.toList_none, List.append_nil]
  | cons part rest =>
    have heads : (lists ++ [part :: rest]).filterMap List.head? =
        lists.filterMap List.head? ++ [part] := by
      simp
    have listed : (∃ child ∈ (lists.filterMap List.head?).eraseDups.map
        (branch degrees above lists), child.name = part) ↔ part ∈ lists.filterMap List.head? := by
      simp [branch, DirectoryNode.name]
    rw [heads, eraseDups_concat]
    by_cases present : part ∈ lists.filterMap List.head?
    · rw [insertPath_of_present (listed.2 present), if_pos present, List.map_map]
      apply List.map_congr_left
      intro name _
      exact (branch_concat lists part rest name).symm
    · have none : following [part] lists = [] := by
        rw [List.eq_nil_iff_forall_not_mem]
        intro tail member
        exact present ((mem_heads_iff part lists).2 ⟨tail, (mem_following_iff _ _ _).1 member⟩)
      rw [insertPath_of_absent (mt listed.1 present), if_neg present, List.map_append]
      congr 1
      · apply List.map_congr_left
        intro name member
        rw [branch_concat, if_neg]
        rintro rfl
        exact present (List.mem_eraseDups.1 member)
      · rw [List.map_singleton, branch_concat, if_pos rfl, children_branch, none]
        rfl

/-- The entries of a directory are those of the names that the lists begin with, in the order in
which the names first appear. -/
theorem grown_eq (lists : List (List String)) :
    grown degrees above lists =
      (lists.filterMap List.head?).eraseDups.map (branch degrees above lists) := by
  induction lists using List.reverseRecOn with
  | nil => rfl
  | append_singleton lists parts ih => rw [grown_concat, ih, insertPath_branches]

/-- A list that is the beginning of another adds nothing. -/
theorem insertPath_grown_of_covered {lists : List (List String)} {parts : List String}
    (covered : ∃ list ∈ lists, parts <+: list) :
    insertPath degrees above parts (grown degrees above lists) = grown degrees above lists := by
  induction parts generalizing above lists with
  | nil => rfl
  | cons part rest ih =>
    obtain ⟨_, member, tail, rfl⟩ := covered
    have present : ∃ child ∈ grown degrees above lists, child.name = part := by
      refine ⟨branch degrees above lists part, ?_, rfl⟩
      rw [grown_eq]
      apply List.mem_map_of_mem
      rw [List.mem_eraseDups, mem_heads_iff]
      exact ⟨rest ++ tail, member⟩
    have further : ∃ list ∈ following [part] lists, rest <+: list :=
      ⟨rest ++ tail, (mem_following_iff _ _ _).2 member, List.prefix_append rest tail⟩
    rw [insertPath_of_present present, grown_eq, List.map_map]
    apply List.map_congr_left
    intro name _
    rw [Function.comp_apply]
    split
    · next same =>
      have same : name = part := same
      subst same
      rw [children_branch, ih further]
      rfl
    · rfl

/-! ### Every level of a tree -/

/-- The entries of a directory are what grows from the lists that go along the way down to it. -/
theorem entriesBelow_grown (chain : List DirectoryNode) {lists : List (List String)}
    (lead : LeadDown (grown degrees above lists) chain) :
    entriesBelow (grown degrees above lists) chain =
      grown degrees (above ++ chain.map DirectoryNode.name)
        (following (chain.map DirectoryNode.name) lists) := by
  induction chain generalizing above lists with
  | nil => rw [List.map_nil, following_nil, List.append_nil, entriesBelow]
  | cons node below ih =>
    obtain ⟨member, further⟩ := lead
    rw [grown_eq] at member
    obtain ⟨name, _, rfl⟩ := List.mem_map.1 member
    rw [children_branch] at further
    rw [entriesBelow, children_branch, ih further, List.map_cons, name_branch,
      following_cons name (below.map _), List.append_assoc, List.singleton_append]

theorem names_grown (lists : List (List String)) :
    (grown degrees above lists).map DirectoryNode.name =
      (lists.filterMap List.head?).eraseDups := by
  rw [grown_eq, List.map_map]
  exact List.map_id _

theorem mem_branch_of_mem_grown {lists : List (List String)} {node : DirectoryNode}
    (member : node ∈ grown degrees above lists) : node = branch degrees above lists node.name := by
  rw [grown_eq] at member
  obtain ⟨name, _, rfl⟩ := List.mem_map.1 member
  rfl

/-- The name that follows a route in a list. -/
theorem head?_isPrefixOf? (route parts : List String) (name : String) :
    (route.isPrefixOf? parts).bind List.head? = some name ↔ route ++ [name] <+: parts := by
  rw [Option.bind_eq_some_iff]
  constructor
  · rintro ⟨rest, taken, first⟩
    obtain ⟨tail, rfl⟩ := List.head?_eq_some_iff.1 first
    rw [List.isPrefixOf?_eq_some_iff_append_eq] at taken
    exact ⟨tail, by rw [← taken]; simp⟩
  · rintro ⟨tail, rfl⟩
    exact ⟨name :: tail, by simp, rfl⟩

/-- The names that follow a route stand in the order in which the paths first go there. -/
theorem pairwise_heads_following (paths route : List String) :
    ((following route (paths.map segments)).filterMap List.head?).eraseDups.Pairwise
      (fun first second =>
        firstThrough paths (route ++ [first]) < firstThrough paths (route ++ [second])) := by
  have ordered := pairwise_findIdx_eraseDups
    (fun path => (route.isPrefixOf? (segments path)).bind List.head?) paths
  simp only [head?_isPrefixOf?] at ordered
  rw [following, List.filterMap_filterMap, List.filterMap_map]
  exact ordered

/-! ### The tree of some paths -/

variable (paths : List String) (degrees : String → Option Int)

theorem children_treeOf_eq_grown :
    (treeOf paths degrees).children = grown degrees [] (paths.map segments) := by
  rw [children_treeOf, grown, List.foldl_map]

theorem isDirectoryTree_treeOf : IsDirectoryTree paths degrees (treeOf paths degrees) := by
  have siblings := areSiblings_treeOf paths degrees
  have marks := map_mark_nodesOf _ siblings.placed
  have below (chain : List DirectoryNode) (lead : LeadDown (treeOf paths degrees).children chain) :
      entriesBelow (treeOf paths degrees).children chain =
        grown degrees (chain.map DirectoryNode.name)
          (following (chain.map DirectoryNode.name) (paths.map segments)) := by
    rw [children_treeOf_eq_grown] at lead ⊢
    exact entriesBelow_grown chain lead
  have paths_eq : (nodesOf (treeOf paths degrees).children).map DirectoryNode.path =
      (routesOf [] (treeOf paths degrees).children).map pathOf := by
    have firsts := congrArg (List.map Prod.fst) marks
    rw [List.map_map, List.map_map] at firsts
    exact firsts
  constructor
  case nodup_names =>
    intro chain lead
    rw [below chain lead, names_grown]
    exact nodup_eraseDups _
  case path_eq =>
    intro chain lead node member
    rw [below chain lead] at member
    rw [mem_branch_of_mem_grown member]
    rfl
  case mem_paths_iff =>
    intro path
    simp only [paths_eq, List.mem_map, mem_routesOf_treeOf]
    constructor
    · rintro ⟨route, ⟨listed, member, filled, begins⟩, rfl⟩
      exact ⟨listed, member, route, filled, begins, rfl⟩
    · rintro ⟨listed, member, route, filled, begins, rfl⟩
      exact ⟨route, ⟨listed, member, filled, begins⟩, rfl⟩
  case nodup_paths =>
    have once := nodup_marks_treeOf paths degrees
    have apart := (List.nodup_map_iff_inj_on (List.Nodup.of_map _ once)).1 once
    apply List.Nodup.map_on _ (List.Nodup.of_map _ once)
    intro node member other member' same
    apply apart node member other member'
    rw [DirectoryNode.mark, DirectoryNode.mark, hubCount_of_mem_treeOf member,
      hubCount_of_mem_treeOf member', same]
  case hubCount_eq => exact fun _ member => hubCount_of_mem_treeOf member
  case ordered =>
    intro chain lead
    rw [below chain lead, names_grown]
    exact pairwise_heads_following paths (chain.map DirectoryNode.name)

/-- The tree of some paths has one node for each beginning of a path, with siblings in order of
first appearance, and a path that is covered by those before it leaves the tree as it is. -/
theorem treeOf_holds_prefixes :
    IsDirectoryTree paths degrees (treeOf paths degrees) ∧
      ∀ path rest, IsCovered paths path →
        treeOf (paths ++ path :: rest) degrees = treeOf (paths ++ rest) degrees := by
  refine ⟨isDirectoryTree_treeOf paths degrees, ?_⟩
  intro path rest covered
  have unchanged : insertPath degrees [] (segments path) (treeOf paths degrees).children =
      (treeOf paths degrees).children := by
    rcases covered with nothing | ⟨listed, member, begins⟩
    · rw [nothing]
      rfl
    · rw [children_treeOf_eq_grown]
      exact insertPath_grown_of_covered ⟨_, List.mem_map_of_mem member, begins⟩
  rw [children_treeOf] at unchanged
  rw [treeOf, treeOf, List.foldl_append, List.foldl_append, List.foldl_cons, unchanged]

end RepoAtlas.Overview
