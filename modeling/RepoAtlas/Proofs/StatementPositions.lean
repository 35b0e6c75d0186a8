/-
Module: RepoAtlas.Proofs.StatementPositions
Purpose: The statements of a source by their positions.
  A position says at each level which of the statements is entered, so it names one statement of the
  tree and positions in lexicographic order are statements in source order.  Whatever is gathered
  over a tree, each statement giving its own share before those inside it, is gathered position by
  position.
Main exports: Statement.children, statementAt, Place.inside, placeAt, positionsIn,
  statementAt_concat, placeAt_concat, mem_positionsIn_iff, pairwise_positionsIn, positionsOfKind,
  Gathers, Gathers.all_eq_flatMap, Gathers.all_eq_flatMap_ofKind, Gathers.all_eq_filterMap
-/
import RepoAtlas.Source.Summary
import Mathlib.Data.List.Basic

namespace RepoAtlas.Source

/-! ### Positions -/

/-- The statements directly inside a statement. -/
def Statement.children : Statement → List Statement
  | .functionDef _ _ body => body
  | .classDef _ _ body => body
  | .decorated definition => [definition]
  | .compound body => body
  | .importModules _ => []
  | .importFrom _ _ => []
  | .simple => []

/-- The statement at a position: the place among the outermost statements, then the place among those
inside, and so on.  No statement stands at the empty position, which is the module itself. -/
def statementAt (tree : List Statement) : List Nat → Option Statement
  | [] => none
  | [index] => tree[index]?
  | index :: next :: rest =>
    match tree[index]? with
    | none => none
    | some statement => statementAt statement.children (next :: rest)

/-- Where the statements inside a statement stand, given where that one stands. -/
def Place.inside (place : Place) : Statement → Place
  | .classDef _ _ _ => .classBody
  | .decorated _ => place
  | _ => .nested

/-- Where the statement at a position stands, if the outermost ones stand at the given place. -/
def placeAt (place : Place) (tree : List Statement) : List Nat → Place
  | [] => place
  | [_] => place
  | index :: next :: rest =>
    match tree[index]? with
    | none => place
    | some statement => placeAt (place.inside statement) statement.children (next :: rest)

mutual

/-- The positions in a statement, its own first. -/
def positionsOf : Statement → List (List Nat)
  | .functionDef _ _ body => [] :: positionsFrom 0 body
  | .classDef _ _ body => [] :: positionsFrom 0 body
  | .decorated definition => [] :: (positionsOf definition).map (0 :: ·)
  | .compound body => [] :: positionsFrom 0 body
  | .importModules _ => [[]]
  | .importFrom _ _ => [[]]
  | .simple => [[]]

/-- The positions in statements of which the first has the given index. -/
def positionsFrom (index : Nat) : List Statement → List (List Nat)
  | [] => []
  | statement :: rest => (positionsOf statement).map (index :: ·) ++ positionsFrom (index + 1) rest

end

/-- The positions in a tree, in source order. -/
def positionsIn (tree : List Statement) : List (List Nat) :=
  positionsFrom 0 tree

theorem positionsOf_eq (statement : Statement) :
    positionsOf statement = [] :: positionsIn statement.children := by
  cases statement <;> simp [positionsOf, positionsIn, positionsFrom, Statement.children]

/-- A statement is larger than those inside it. -/
theorem sizeOf_lt_of_mem_children {statement child : Statement} (inside : child ∈ statement.children) :
    sizeOf child < sizeOf statement := by
  cases statement with
  | functionDef name isAsync body =>
    have smaller := List.sizeOf_lt_of_mem inside
    simp only [Statement.children] at smaller
    simp only [Statement.functionDef.sizeOf_spec]
    omega
  | classDef name superclasses body =>
    have smaller := List.sizeOf_lt_of_mem inside
    simp only [Statement.children] at smaller
    simp only [Statement.classDef.sizeOf_spec]
    omega
  | decorated definition =>
    obtain rfl := List.mem_singleton.1 inside
    simp only [Statement.decorated.sizeOf_spec]
    omega
  | compound body =>
    have smaller := List.sizeOf_lt_of_mem inside
    simp only [Statement.children] at smaller
    simp only [Statement.compound.sizeOf_spec]
    omega
  | importModules modules => cases inside
  | importFrom origin imported => cases inside
  | simple => cases inside

/-- What holds of a statement whenever it holds of those inside it holds of every statement. -/
theorem Statement.childrenRec {motive : Statement → Prop}
    (step : ∀ statement, (∀ child ∈ statement.children, motive child) → motive statement)
    (statement : Statement) : motive statement := by
  apply step
  intro child inside
  exact Statement.childrenRec step child
termination_by sizeOf statement
decreasing_by exact sizeOf_lt_of_mem_children inside

/-- What holds of statements whenever it holds of what is inside each of them holds of every tree. -/
theorem treeRec {motive : List Statement → Prop}
    (step : ∀ tree, (∀ statement ∈ tree, motive statement.children) → motive tree)
    (tree : List Statement) : motive tree := by
  have inside (statement : Statement) : motive statement.children := by
    induction statement using Statement.childrenRec with
    | step statement ih => exact step statement.children ih
  exact step tree (fun statement _ => inside statement)

section Lookup

variable (tree : List Statement) (place : Place) (index next : Nat) (rest : List Nat)

@[simp] theorem statementAt_singleton : statementAt tree [index] = tree[index]? := rfl

theorem statementAt_cons_cons {statement : Statement} (here : tree[index]? = some statement) :
    statementAt tree (index :: next :: rest) = statementAt statement.children (next :: rest) := by
  rw [statementAt, here]

theorem statementAt_of_absent (absent : tree[index]? = none) :
    statementAt tree (index :: rest) = none := by
  cases rest with
  | nil => exact absent
  | cons next rest => rw [statementAt, absent]

@[simp] theorem placeAt_singleton : placeAt place tree [index] = place := rfl

theorem placeAt_cons_cons {statement : Statement} (here : tree[index]? = some statement) :
    placeAt place tree (index :: next :: rest) =
      placeAt (place.inside statement) statement.children (next :: rest) := by
  rw [placeAt, here]

end Lookup

/-- One level further in: the statement there is among those inside the statement before. -/
theorem statementAt_concat {tree : List Statement} {front : List Nat} (inner : front ≠ [])
    (index : Nat) :
    statementAt tree (front ++ [index]) =
      (statementAt tree front).bind (fun parent => parent.children[index]?) := by
  induction front generalizing tree with
  | nil => exact absurd rfl inner
  | cons first rest ih =>
    rw [List.cons_append]
    cases here : tree[first]? with
    | none =>
      rw [statementAt_of_absent tree first _ here, statementAt_of_absent tree first _ here]
      rfl
    | some outer =>
      cases rest with
      | nil =>
        rw [List.nil_append, statementAt_cons_cons tree first index [] here,
          statementAt_singleton, statementAt_singleton, here]
        rfl
      | cons next rest =>
        rw [List.cons_append, statementAt_cons_cons tree first next _ here,
          statementAt_cons_cons tree first next _ here, ← List.cons_append]
        exact ih (List.cons_ne_nil next rest)

theorem placeAt_concat {tree : List Statement} {front : List Nat} {parent : Statement}
    (stands : statementAt tree front = some parent) (place : Place) (index : Nat) :
    placeAt place tree (front ++ [index]) = (placeAt place tree front).inside parent := by
  induction front generalizing tree place with
  | nil => cases stands
  | cons first rest ih =>
    rw [List.cons_append]
    cases here : tree[first]? with
    | none =>
      rw [statementAt_of_absent tree first rest here] at stands
      cases stands
    | some outer =>
      cases rest with
      | nil =>
        rw [statementAt_singleton, here] at stands
        cases stands
        rw [List.nil_append, placeAt_cons_cons tree place first index [] here, placeAt_singleton,
          placeAt_singleton]
      | cons next rest =>
        rw [statementAt_cons_cons tree first next rest here] at stands
        rw [List.cons_append, placeAt_cons_cons tree place first next _ here,
          placeAt_cons_cons tree place first next _ here, ← List.cons_append]
        exact ih stands (place.inside outer)

/-! ### All positions, in source order -/

theorem mem_positionsFrom_iff (start : Nat) (tree : List Statement) (position : List Nat) :
    position ∈ positionsFrom start tree ↔
      ∃ index statement rest, position = (start + index) :: rest ∧ tree[index]? = some statement ∧
        rest ∈ positionsOf statement := by
  induction tree generalizing start with
  | nil => simp [positionsFrom]
  | cons statement others ih =>
    rw [positionsFrom, List.mem_append, List.mem_map, ih]
    constructor
    · intro found
      rcases found with ⟨rest, listed, rfl⟩ | ⟨index, later, rest, rfl, here, listed⟩
      · exact ⟨0, statement, rest, rfl, rfl, listed⟩
      · exact ⟨index + 1, later, rest, by rw [Nat.add_right_comm, Nat.add_assoc], here, listed⟩
    · intro found
      obtain ⟨index, found, rest, rfl, here, listed⟩ := found
      cases index with
      | zero =>
        cases here
        exact .inl ⟨rest, listed, rfl⟩
      | succ index =>
        exact .inr ⟨index, found, rest, by rw [Nat.add_right_comm, Nat.add_assoc], here, listed⟩

theorem ne_nil_of_mem_positionsIn {tree : List Statement} {position : List Nat}
    (listed : position ∈ positionsIn tree) : position ≠ [] := by
  obtain ⟨index, statement, rest, rfl, _⟩ := (mem_positionsFrom_iff 0 tree position).1 listed
  exact List.cons_ne_nil _ _

/-- The positions are those at which a statement stands. -/
theorem mem_positionsIn_iff (tree : List Statement) (position : List Nat) :
    position ∈ positionsIn tree ↔ ∃ statement, statementAt tree position = some statement := by
  induction tree using treeRec generalizing position with
  | step tree ih =>
    rw [positionsIn, mem_positionsFrom_iff]
    constructor
    · intro found
      obtain ⟨index, statement, rest, rfl, here, listed⟩ := found
      rw [Nat.zero_add]
      rw [positionsOf_eq, List.mem_cons] at listed
      rcases listed with rfl | inside
      · exact ⟨statement, here⟩
      · obtain ⟨next, rest, rfl⟩ := List.exists_cons_of_ne_nil (ne_nil_of_mem_positionsIn inside)
        rw [statementAt_cons_cons tree index next rest here]
        exact (ih statement (List.mem_of_getElem? here) _).1 inside
    · intro found
      obtain ⟨found, stands⟩ := found
      cases position with
      | nil => cases stands
      | cons index rest =>
        cases here : tree[index]? with
        | none =>
          rw [statementAt_of_absent tree index rest here] at stands
          cases stands
        | some statement =>
          refine ⟨index, statement, rest, by rw [Nat.zero_add], here, ?_⟩
          rw [positionsOf_eq, List.mem_cons]
          cases rest with
          | nil => exact .inl rfl
          | cons next rest =>
            rw [statementAt_cons_cons tree index next rest here] at stands
            exact .inr ((ih statement (List.mem_of_getElem? here) _).2 ⟨found, stands⟩)

theorem pairwise_positionsFrom (start : Nat) {tree : List Statement}
    (inside : ∀ statement ∈ tree, (positionsIn statement.children).Pairwise (· < ·)) :
    (positionsFrom start tree).Pairwise (· < ·) := by
  induction tree generalizing start with
  | nil => exact List.Pairwise.nil
  | cons statement others ih =>
    obtain ⟨here, later⟩ := List.forall_mem_cons.1 inside
    rw [positionsFrom, positionsOf_eq, List.pairwise_append, List.pairwise_map,
      List.pairwise_cons]
    refine ⟨⟨?_, ?_⟩, ih (start + 1) later, ?_⟩
    · intro position listed
      obtain ⟨next, rest, rfl⟩ := List.exists_cons_of_ne_nil (ne_nil_of_mem_positionsIn listed)
      exact List.cons_lt_cons_iff.2 (.inr ⟨rfl, List.nil_lt_cons next rest⟩)
    · apply here.imp
      intro first second before
      exact List.cons_lt_cons_iff.2 (.inr ⟨rfl, before⟩)
    · intro first listed second listed'
      obtain ⟨_, _, rfl⟩ := List.mem_map.1 listed
      obtain ⟨index, _, _, rfl, _⟩ := (mem_positionsFrom_iff _ _ _).1 listed'
      exact List.cons_lt_cons_iff.2 (.inl (by omega))

/-- Positions are listed in source order, each once. -/
theorem pairwise_positionsIn (tree : List Statement) :
    (positionsIn tree).Pairwise (· < ·) := by
  induction tree using treeRec with
  | step tree ih => exact pairwise_positionsFrom 0 ih

theorem nodup_positionsIn (tree : List Statement) : (positionsIn tree).Nodup := by
  apply (pairwise_positionsIn tree).imp
  intro first second before same
  exact List.lt_irrefl first (same ▸ before)

/-- The positions of the statements of one kind, in source order. -/
def positionsOfKind (kind : Statement → Bool) (tree : List Statement) : List (List Nat) :=
  (positionsIn tree).filter (fun position => (statementAt tree position).any kind)

theorem mem_positionsOfKind_iff (kind : Statement → Bool) (tree : List Statement)
    (position : List Nat) :
    position ∈ positionsOfKind kind tree ↔
      ∃ statement, statementAt tree position = some statement ∧ kind statement = true := by
  rw [positionsOfKind, List.mem_filter, mem_positionsIn_iff]
  constructor
  · intro listed
    obtain ⟨⟨statement, stands⟩, kept⟩ := listed
    rw [stands] at kept
    exact ⟨statement, stands, kept⟩
  · intro found
    obtain ⟨statement, stands, kept⟩ := found
    exact ⟨⟨statement, stands⟩, by rw [stands]; exact kept⟩

theorem pairwise_positionsOfKind (kind : Statement → Bool) (tree : List Statement) :
    (positionsOfKind kind tree).Pairwise (· < ·) :=
  (pairwise_positionsIn tree).filter _

/-! ### Gathering over a tree -/

/-- A function that gathers over statements: each gives its own share, which may depend on where it
stands, before what is gathered inside it. -/
structure Gathers {α : Type} (own : Place → Statement → List α)
    (all : Place → List Statement → List α) : Prop where
  nil : ∀ place, all place [] = []
  cons : ∀ place statement rest, all place (statement :: rest) =
    own place statement ++ all (place.inside statement) statement.children ++ all place rest

/-- The share of the statement at a position. -/
def shareAt {α : Type} (own : Place → Statement → List α) (place : Place) (tree : List Statement)
    (position : List Nat) : List α :=
  match statementAt tree position with
  | none => []
  | some statement => own (placeAt place tree position) statement

namespace Gathers

variable {α : Type} {own : Place → Statement → List α} {all : Place → List Statement → List α}

/-- What is gathered over a tree is the shares of its statements in source order. -/
theorem all_eq_flatMap (gathers : Gathers own all) (place : Place) (tree : List Statement) :
    all place tree = (positionsIn tree).flatMap (shareAt own place tree) := by
  induction tree using treeRec generalizing place with
  | step tree ih =>
    -- The part of the tree after some of its statements, by induction on that part.
    have suffix (before after : List Statement) (whole : tree = before ++ after) :
        all place after =
          (positionsFrom before.length after).flatMap (shareAt own place tree) := by
      induction after generalizing before with
      | nil => rw [gathers.nil, positionsFrom, List.flatMap_nil]
      | cons statement rest later =>
        have here : tree[before.length]? = some statement := by rw [whole]; simp
        have inside := ih statement (List.mem_of_getElem? here) (place.inside statement)
        have shares : ∀ position ∈ positionsIn statement.children,
            shareAt own place tree (before.length :: position) =
              shareAt own (place.inside statement) statement.children position := by
          intro position listed
          obtain ⟨next, rest, rfl⟩ :=
            List.exists_cons_of_ne_nil (ne_nil_of_mem_positionsIn listed)
          rw [shareAt, shareAt, statementAt_cons_cons tree _ next rest here,
            placeAt_cons_cons tree place _ next rest here]
        have after := later (before ++ [statement]) (by rw [whole]; simp)
        rw [List.length_append, List.length_singleton] at after
        rw [gathers.cons, inside, after, positionsFrom, positionsOf_eq, List.flatMap_append,
          List.flatMap_map, List.flatMap_cons, List.flatMap_congr shares]
        rw [shareAt, statementAt_singleton, here]
        rfl
    exact suffix [] tree rfl

/-- The statements that give nothing can be passed over. -/
theorem all_eq_flatMap_ofKind (gathers : Gathers own all) {kind : Statement → Bool}
    (silent : ∀ place statement, kind statement = false → own place statement = [])
    (place : Place) (tree : List Statement) :
    all place tree = (positionsOfKind kind tree).flatMap (shareAt own place tree) := by
  rw [gathers.all_eq_flatMap, positionsOfKind]
  induction positionsIn tree with
  | nil => rfl
  | cons position later ih =>
    rw [List.flatMap_cons, ih, List.filter_cons]
    split
    · rw [List.flatMap_cons]
    · next passed =>
      have nothing : shareAt own place tree position = [] := by
        rw [shareAt]
        cases stands : statementAt tree position with
        | none => rfl
        | some statement =>
          rw [stands] at passed
          exact silent _ statement (Bool.eq_false_iff.2 passed)
      rw [nothing, List.nil_append]

/-- What gives at most one thing for each statement. -/
theorem all_eq_filterMap {give : Place → Statement → Option α}
    (gathers : Gathers (fun place statement => (give place statement).toList) all) (place : Place)
    (tree : List Statement) :
    all place tree = (positionsIn tree).filterMap
      (fun position => (statementAt tree position).bind (give (placeAt place tree position))) := by
  rw [gathers.all_eq_flatMap, List.filterMap_eq_flatMap_toList]
  apply List.flatMap_congr
  intro position _
  rw [shareAt]
  cases statementAt tree position <;> rfl

end Gathers

end RepoAtlas.Source
