/-
Module: RepoAtlas.Proofs.DirectoryRoutes
Purpose: The nodes of a directory tree and the routes that lead to them.
  A route is the list of names from below the root down to a node.  Adding a path keeps siblings apart
  and every node at the path of its route, so the tree of some paths has one node for each beginning
  of their segments, with the number of importers recorded for that beginning.
Main exports: DirectoryNode.nodes, nodesOf, routesOf, AreSiblings, areSiblings_insertPath,
  mem_routesOf_insertPath, nodup_routesOf, map_mark_nodesOf, areSiblings_treeOf, mem_routesOf_treeOf,
  pathOf_segments, pathOf_injOn, hubCount_of_mem_treeOf, nodup_marks_treeOf
-/
import RepoAtlas.Overview.DirectoryTree
import RepoAtlas.Proofs.PathSegments
import Mathlib.Data.List.Nodup

namespace RepoAtlas

namespace Text

theorem split_ne_nil (separator : Char) (chars : List Char) : split separator chars ≠ [] := by
  fun_induction split separator chars <;> simp

theorem split_append_separator (separator : Char) (front rest : List Char) :
    split separator (front ++ separator :: rest) = split separator front ++ split separator rest := by
  induction front with
  | nil => simp [split]
  | cons char others ih =>
    rw [List.cons_append, split, split]
    split
    · rw [ih, List.cons_append]
    · rw [ih]
      obtain ⟨first, parts, begins⟩ := List.exists_cons_of_ne_nil (split_ne_nil separator others)
      rw [begins]
      rfl

/-- Splitting loses nothing. -/
theorem intercalate_split (separator : Char) (chars : List Char) :
    List.intercalate [separator] (split separator chars) = chars := by
  fun_induction split separator chars with
  | case1 => rfl
  | case2 rest ih =>
    rw [List.intercalate_cons_of_ne_nil (split_ne_nil separator rest), ih]
    rfl
  | case3 char rest _ none => exact absurd none (split_ne_nil separator rest)
  | case4 char rest _ first others parts ih =>
    rw [parts] at ih
    cases others with
    | nil => simpa using ih
    | cons next others =>
      rw [List.intercalate_cons_cons] at ih ⊢
      rw [← ih]
      rfl

theorem not_mem_of_mem_split {separator : Char} {chars part : List Char}
    (member : part ∈ split separator chars) : separator ∉ part := by
  fun_induction split separator chars generalizing part with
  | case1 => simp_all
  | case2 rest ih =>
    rcases List.mem_cons.1 member with rfl | later
    · simp
    · exact ih later
  | case3 char rest _ none => exact absurd none (split_ne_nil separator rest)
  | case4 char rest different first others parts ih =>
    rw [parts] at ih
    rcases List.mem_cons.1 member with rfl | later
    · have within := ih (List.mem_cons_self)
      simp [Ne.symm different, within]
    · exact ih (List.mem_cons_of_mem _ later)

end Text

namespace Overview

/-! ### Nodes and routes -/

mutual

/-- The nodes of a tree, each before those below it. -/
def DirectoryNode.nodes : DirectoryNode → List DirectoryNode
  | .node name path hubCount children => .node name path hubCount children :: nodesOf children

/-- The nodes of several trees. -/
def nodesOf : List DirectoryNode → List DirectoryNode
  | [] => []
  | child :: rest => child.nodes ++ nodesOf rest

end

mutual

/-- The routes to the nodes of a tree that stands in a directory, in the order of the nodes. -/
def DirectoryNode.routes (above : List String) : DirectoryNode → List (List String)
  | .node name _ _ children => (above ++ [name]) :: routesOf (above ++ [name]) children

/-- The routes to the nodes of several trees. -/
def routesOf (above : List String) : List DirectoryNode → List (List String)
  | [] => []
  | child :: rest => child.routes above ++ routesOf above rest

end

/-- The path of a route. -/
def pathOf (route : List String) : String :=
  String.intercalate "/" route

mutual

/-- Whether every node of a tree has the path of its route and the number recorded for it, and no two
siblings below it share a name. -/
def DirectoryNode.IsPlaced (degrees : String → Option Int) (above : List String) :
    DirectoryNode → Prop
  | .node name path hubCount children =>
    path = pathOf (above ++ [name]) ∧ hubCount = degrees path ∧
      (children.map DirectoryNode.name).Nodup ∧ ArePlaced degrees (above ++ [name]) children

/-- `DirectoryNode.IsPlaced` of several trees. -/
def ArePlaced (degrees : String → Option Int) (above : List String) : List DirectoryNode → Prop
  | [] => True
  | child :: rest => child.IsPlaced degrees above ∧ ArePlaced degrees above rest

end

/-- Whether trees are the children of one directory: placed in it, and of different names. -/
structure AreSiblings (degrees : String → Option Int) (above : List String)
    (children : List DirectoryNode) : Prop where
  distinct : (children.map DirectoryNode.name).Nodup
  placed : ArePlaced degrees above children

variable {degrees : String → Option Int} {above : List String} {children : List DirectoryNode}

theorem arePlaced_iff :
    ArePlaced degrees above children ↔ ∀ child ∈ children, child.IsPlaced degrees above := by
  induction children with
  | nil => simp [ArePlaced]
  | cons child rest ih => simp [ArePlaced, ih]

theorem mem_routesOf_iff (route : List String) :
    route ∈ routesOf above children ↔ ∃ child ∈ children, route ∈ child.routes above := by
  induction children with
  | nil => simp [routesOf]
  | cons child rest ih => simp [routesOf, ih]

@[simp] theorem name_withChildren (node : DirectoryNode) (children : List DirectoryNode) :
    (node.withChildren children).name = node.name := by
  cases node
  rfl

theorem routes_withChildren (node : DirectoryNode) (children : List DirectoryNode) :
    (node.withChildren children).routes above =
      (above ++ [node.name]) :: routesOf (above ++ [node.name]) children := by
  cases node
  rfl

theorem routes_eq (node : DirectoryNode) :
    node.routes above = (above ++ [node.name]) :: routesOf (above ++ [node.name]) node.children := by
  cases node
  rfl

theorem DirectoryNode.IsPlaced.areSiblings {node : DirectoryNode}
    (placed : node.IsPlaced degrees above) :
    AreSiblings degrees (above ++ [node.name]) node.children := by
  cases node
  exact ⟨placed.2.2.1, placed.2.2.2⟩

theorem DirectoryNode.IsPlaced.withChildren {node : DirectoryNode}
    (placed : node.IsPlaced degrees above) {children : List DirectoryNode}
    (siblings : AreSiblings degrees (above ++ [node.name]) children) :
    (node.withChildren children).IsPlaced degrees above := by
  cases node
  exact ⟨placed.1, placed.2.1, siblings.distinct, siblings.placed⟩

/-! ### Adding a path -/

theorem insertPath_of_present {part : String} (present : ∃ child ∈ children, child.name = part)
    (rest : List String) :
    insertPath degrees above (part :: rest) children = children.map (fun child =>
      if child.name = part then
        child.withChildren (insertPath degrees (above ++ [part]) rest child.children)
      else child) := by
  rw [insertPath]
  exact if_pos (by simpa using present)

theorem insertPath_of_absent {part : String} (absent : ¬ ∃ child ∈ children, child.name = part)
    (rest : List String) :
    insertPath degrees above (part :: rest) children = children ++ [.node part
      (pathOf (above ++ [part])) (degrees (pathOf (above ++ [part])))
      (insertPath degrees (above ++ [part]) rest [])] := by
  rw [insertPath]
  exact if_neg (by simpa using absent)

/-- Adding a path keeps siblings apart and every node in its place. -/
theorem areSiblings_insertPath (parts : List String) (siblings : AreSiblings degrees above children) :
    AreSiblings degrees above (insertPath degrees above parts children) := by
  induction parts generalizing above children with
  | nil => exact siblings
  | cons part rest ih =>
    by_cases present : ∃ child ∈ children, child.name = part
    · rw [insertPath_of_present present]
      constructor
      · have names : (children.map (fun child => if child.name = part then child.withChildren
            (insertPath degrees (above ++ [part]) rest child.children) else child)).map
              DirectoryNode.name = children.map DirectoryNode.name := by
          rw [List.map_map]
          apply List.map_congr_left
          intro child _
          simp only [Function.comp_apply]
          split <;> simp
        rw [names]
        exact siblings.distinct
      · rw [arePlaced_iff, List.forall_mem_map]
        intro child member
        have placed := arePlaced_iff.1 siblings.placed child member
        split
        · next same =>
          subst same
          exact placed.withChildren (ih placed.areSiblings)
        · exact placed
    · rw [insertPath_of_absent present]
      constructor
      · have fresh : part ∉ children.map DirectoryNode.name := by simpa using present
        rw [List.map_append, List.map_singleton]
        exact List.Nodup.append siblings.distinct (List.nodup_singleton _)
          (List.disjoint_singleton.2 fresh)
      · rw [arePlaced_iff, List.forall_mem_append]
        refine ⟨arePlaced_iff.1 siblings.placed, List.forall_mem_singleton.2 ?_⟩
        have below : AreSiblings degrees (above ++ [part])
            (insertPath degrees (above ++ [part]) rest []) := ih ⟨List.nodup_nil, trivial⟩
        exact ⟨rfl, rfl, below.distinct, below.placed⟩

/-- Whether a route leads from a directory to one of the nodes that a path has below it. -/
def IsBelow (above parts route : List String) : Prop :=
  ∃ front, front ≠ [] ∧ front <+: parts ∧ route = above ++ front

theorem isBelow_cons_iff (part : String) (rest route : List String) :
    IsBelow above (part :: rest) route ↔
      route = above ++ [part] ∨ IsBelow (above ++ [part]) rest route := by
  constructor
  · rintro ⟨front, nonempty, begins, rfl⟩
    obtain ⟨tail, rfl, further⟩ := (List.prefix_cons_iff.1 begins).resolve_left nonempty
    cases tail with
    | nil => exact .inl rfl
    | cons next tail => exact .inr ⟨next :: tail, by simp, further, by simp⟩
  · rintro (rfl | ⟨front, nonempty, begins, rfl⟩)
    · exact ⟨[part], by simp, by simp, rfl⟩
    · exact ⟨part :: front, by simp, by simpa using begins, by simp⟩

/-- Adding a path adds the routes to its nodes, and no others. -/
theorem mem_routesOf_insertPath (parts route : List String) :
    route ∈ routesOf above (insertPath degrees above parts children) ↔
      route ∈ routesOf above children ∨ IsBelow above parts route := by
  induction parts generalizing above children with
  | nil => simp [insertPath, IsBelow]
  | cons part rest ih =>
    rw [isBelow_cons_iff]
    by_cases present : ∃ child ∈ children, child.name = part
    · have step (child : DirectoryNode) : route ∈ (if child.name = part then child.withChildren
          (insertPath degrees (above ++ [part]) rest child.children) else child).routes above ↔
            route ∈ child.routes above ∨
              child.name = part ∧ IsBelow (above ++ [part]) rest route := by
        split
        · next same =>
          subst same
          rw [routes_withChildren, routes_eq child, List.mem_cons, List.mem_cons, ih, or_assoc]
          simp
        · next different => simp [different]
      rw [insertPath_of_present present, mem_routesOf_iff, mem_routesOf_iff]
      simp only [List.mem_map, exists_exists_and_eq_and, step]
      constructor
      · rintro ⟨child, member, there | ⟨_, further⟩⟩
        · exact .inl ⟨child, member, there⟩
        · exact .inr (.inr further)
      · obtain ⟨child, member, same⟩ := present
        rintro (⟨other, listed, there⟩ | rfl | further)
        · exact ⟨other, listed, .inl there⟩
        · exact ⟨child, member, .inl (by rw [routes_eq, same]; simp)⟩
        · exact ⟨child, member, .inr ⟨same, further⟩⟩
    · have added : route ∈ DirectoryNode.routes above (.node part (pathOf (above ++ [part]))
          (degrees (pathOf (above ++ [part]))) (insertPath degrees (above ++ [part]) rest [])) ↔
            route = above ++ [part] ∨ IsBelow (above ++ [part]) rest route := by
        rw [routes_eq, List.mem_cons]
        simp [DirectoryNode.name, DirectoryNode.children, ih, routesOf]
      rw [insertPath_of_absent present, mem_routesOf_iff, mem_routesOf_iff]
      simp only [List.mem_append, List.mem_singleton, or_and_right, exists_or, exists_eq_left, added]

/-! ### Routes are distinct -/

mutual

/-- The routes to the nodes of a tree go through its own name. -/
theorem exists_of_mem_routes : ∀ (node : DirectoryNode) {above route : List String},
    route ∈ node.routes above → ∃ tail, route = above ++ node.name :: tail
  | .node name path hubCount children, above, route, member => by
    rcases List.mem_cons.1 member with rfl | below
    · exact ⟨[], rfl⟩
    · obtain ⟨child, _, tail, rfl⟩ := exists_of_mem_routesOf children below
      exact ⟨child.name :: tail, by simp [DirectoryNode.name]⟩

/-- The routes to the nodes of several trees go through one of their names. -/
theorem exists_of_mem_routesOf : ∀ (children : List DirectoryNode) {above route : List String},
    route ∈ routesOf above children → ∃ child ∈ children, ∃ tail, route = above ++ child.name :: tail
  | [], _, _, member => by cases member
  | child :: rest, above, route, member => by
    rcases List.mem_append.1 member with first | later
    · obtain ⟨tail, same⟩ := exists_of_mem_routes child first
      exact ⟨child, by simp, tail, same⟩
    · obtain ⟨other, listed, tail, same⟩ := exists_of_mem_routesOf rest later
      exact ⟨other, by simp [listed], tail, same⟩

end

mutual

theorem nodup_routes : ∀ (node : DirectoryNode) {above : List String},
    node.IsPlaced degrees above → (node.routes above).Nodup
  | .node name path hubCount children, above, placed => by
    have siblings : AreSiblings degrees (above ++ [name]) children := placed.areSiblings
    rw [DirectoryNode.routes, List.nodup_cons]
    refine ⟨?_, nodup_routesOf children siblings⟩
    -- A route below the node is longer than the route to it.
    intro below
    obtain ⟨child, _, tail, same⟩ := exists_of_mem_routesOf children below
    simpa using congrArg List.length same

/-- Siblings of different names have different routes below them. -/
theorem nodup_routesOf : ∀ (children : List DirectoryNode) {above : List String},
    AreSiblings degrees above children → (routesOf above children).Nodup
  | [], _, _ => List.nodup_nil
  | child :: rest, above, siblings => by
    obtain ⟨fresh, distinct⟩ := List.nodup_cons.1 siblings.distinct
    have placed : child.IsPlaced degrees above ∧ ArePlaced degrees above rest := siblings.placed
    rw [routesOf]
    apply List.Nodup.append (nodup_routes child placed.1)
      (nodup_routesOf rest ⟨distinct, placed.2⟩)
    intro route first later
    obtain ⟨tail, rfl⟩ := exists_of_mem_routes child first
    obtain ⟨other, listed, tail', same⟩ := exists_of_mem_routesOf rest later
    have names : child.name = other.name := by
      have heads := List.append_cancel_left same
      exact (List.cons.inj heads).1
    exact fresh (names ▸ List.mem_map_of_mem listed)

end

/-! ### What the nodes say -/

/-- The path of a node and the number of its importers. -/
def DirectoryNode.mark (node : DirectoryNode) : String × Option Int :=
  (node.path, node.hubCount)

/-- The path of a route and the number of importers recorded for it. -/
def markAt (degrees : String → Option Int) (route : List String) : String × Option Int :=
  (pathOf route, degrees (pathOf route))

mutual

theorem map_mark_nodes : ∀ (node : DirectoryNode) {above : List String},
    node.IsPlaced degrees above →
      node.nodes.map DirectoryNode.mark = (node.routes above).map (markAt degrees)
  | .node name path hubCount children, above, placed => by
    obtain ⟨rfl, rfl, _, below⟩ := placed
    rw [DirectoryNode.nodes, DirectoryNode.routes, List.map_cons, List.map_cons,
      map_mark_nodesOf children below]
    rfl

/-- The nodes say of the routes that lead to them what is recorded. -/
theorem map_mark_nodesOf : ∀ (children : List DirectoryNode) {above : List String},
    ArePlaced degrees above children →
      (nodesOf children).map DirectoryNode.mark = (routesOf above children).map (markAt degrees)
  | [], _, _ => rfl
  | child :: rest, above, placed => by
    rw [nodesOf, routesOf, List.map_append, List.map_append, map_mark_nodes child placed.1,
      map_mark_nodesOf rest placed.2]

end

/-! ### The tree of some paths -/

section Tree

variable (paths : List String) (degrees : String → Option Int)

theorem children_treeOf : (treeOf paths degrees).children =
    paths.foldl (fun children path => insertPath degrees [] (segments path) children) [] :=
  rfl

theorem nodes_treeOf : (treeOf paths degrees).nodes =
    treeOf paths degrees :: nodesOf (treeOf paths degrees).children :=
  rfl

theorem areSiblings_treeOf : AreSiblings degrees [] (treeOf paths degrees).children := by
  rw [children_treeOf]
  have kept (children : List DirectoryNode) (siblings : AreSiblings degrees [] children) :
      AreSiblings degrees [] (paths.foldl
        (fun children path => insertPath degrees [] (segments path) children) children) := by
    induction paths generalizing children with
    | nil => exact siblings
    | cons path rest ih => exact ih _ (areSiblings_insertPath (segments path) siblings)
  exact kept [] ⟨List.nodup_nil, trivial⟩

/-- The routes of a tree are the beginnings of the segments of its paths. -/
theorem mem_routesOf_treeOf (route : List String) :
    route ∈ routesOf [] (treeOf paths degrees).children ↔
      ∃ path ∈ paths, route ≠ [] ∧ route <+: segments path := by
  have below (path : String) : IsBelow [] (segments path) route ↔
      route ≠ [] ∧ route <+: segments path := by
    simp [IsBelow]
  have grown (children : List DirectoryNode) : route ∈ routesOf [] (paths.foldl
      (fun children path => insertPath degrees [] (segments path) children) children) ↔
        route ∈ routesOf [] children ∨ ∃ path ∈ paths, route ≠ [] ∧ route <+: segments path := by
    induction paths generalizing children with
    | nil => simp
    | cons path rest ih =>
      rw [List.foldl_cons, ih, mem_routesOf_insertPath, below, or_assoc]
      simp only [List.mem_cons, or_and_right, exists_or, exists_eq_left]
  rw [children_treeOf, grown]
  simp [routesOf]

end Tree

/-! ### Paths and their segments -/

theorem isSegment_of_mem_segments {path part : String} (member : part ∈ segments path) :
    Path.IsSegment part.toList := by
  obtain ⟨listed, filled⟩ := List.mem_filter.1 member
  obtain ⟨chars, split, rfl⟩ := List.mem_map.1 listed
  refine ⟨?_, ?_⟩
  · intro empty
    simp_all
  · rw [String.toList_ofList]
    exact Text.not_mem_of_mem_split split

/-- A path is what its segments make up, if none of them is empty. -/
theorem pathOf_segments {path : String} (filled : "" ∉ Text.splitText '/' path) :
    pathOf (segments path) = path := by
  have all : segments path = Text.splitText '/' path := by
    apply List.filter_eq_self.2
    intro part member
    exact decide_eq_true (fun empty => filled (empty ▸ member))
  have parts : (Text.splitText '/' path).map String.toList = Text.split '/' path.toList := by
    simp [Text.splitText, Function.comp_def]
  rw [all, pathOf, ← String.toList_inj, String.toList_intercalate, parts]
  exact Text.intercalate_split '/' path.toList

/-- A route can be read off its path. -/
theorem pathOf_injOn {first second : List String} (some_name : first ≠ []) (some_name' : second ≠ [])
    (proper : ∀ part ∈ first, Path.IsSegment part.toList)
    (proper' : ∀ part ∈ second, Path.IsSegment part.toList) (same : pathOf first = pathOf second) :
    first = second := by
  have parts {route : List String} (nonempty : route ≠ [])
      (proper : ∀ part ∈ route, Path.IsSegment part.toList) :
      Text.split '/' (pathOf route).toList = route.map String.toList := by
    rw [pathOf, String.toList_intercalate]
    apply Text.split_intercalate (by simpa using nonempty)
    rw [List.forall_mem_map]
    exact fun part member => (proper part member).noSlash
  have equal : first.map String.toList = second.map String.toList := by
    rw [← parts some_name proper, ← parts some_name' proper', same]
  exact List.map_injective_iff.2 (fun _ _ => String.toList_injective) equal

/-- A node below the root of a tree has the number of importers that is recorded for its path. -/
theorem hubCount_of_mem_treeOf {paths : List String} {degrees : String → Option Int}
    {node : DirectoryNode} (member : node ∈ nodesOf (treeOf paths degrees).children) :
    node.hubCount = degrees node.path := by
  have mark := List.mem_map_of_mem (f := DirectoryNode.mark) member
  rw [map_mark_nodesOf _ (areSiblings_treeOf _ _).placed] at mark
  obtain ⟨route, _, same⟩ := List.mem_map.1 mark
  obtain ⟨path, count⟩ := Prod.mk.inj same
  rw [← count, path]

/-- No two nodes below the root of a tree stand at the same path. -/
theorem nodup_marks_treeOf (paths : List String) (degrees : String → Option Int) :
    ((nodesOf (treeOf paths degrees).children).map DirectoryNode.mark).Nodup := by
  have siblings := areSiblings_treeOf paths degrees
  have proper : ∀ route ∈ routesOf [] (treeOf paths degrees).children,
      route ≠ [] ∧ ∀ part ∈ route, Path.IsSegment part.toList := by
    intro route member
    obtain ⟨path, _, nonempty, begins⟩ := (mem_routesOf_treeOf paths degrees route).1 member
    exact ⟨nonempty, fun part listed => isSegment_of_mem_segments (begins.subset listed)⟩
  rw [map_mark_nodesOf _ siblings.placed]
  apply List.Nodup.map_on _ (nodup_routesOf _ siblings)
  intro first listed second listed' same
  obtain ⟨nonempty, parts⟩ := proper first listed
  obtain ⟨nonempty', parts'⟩ := proper second listed'
  exact pathOf_injOn nonempty nonempty' parts parts' (Prod.mk.inj same).1

end Overview

end RepoAtlas
