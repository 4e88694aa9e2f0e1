import MacroDoc.Proofs.Forest.Leaves

/-!
# Outlines of a forest

The outline of a forest is what a writer of it does one after the other: a container starts, a leaf is put down, a
container stops. A list of such marks that is written in any other way can be balanced.

* `Mark`, `outlineOf` : the marks of a forest in document order;
* `Mark.leaf?`, `Mark.isBracket` : the leaves among marks, and the others;
* `balance` : marks without the stops that nothing started, and with those that are missing at the end.
-/

namespace MacroDoc

/-- What is written next: the start of a container, a leaf, or the end of the innermost container. -/
inductive Mark where
  | start (c : Container)
  | leaf (l : Leaf)
  | stop
  deriving DecidableEq

mutual

def Block.outline : Block → List Mark
  | .leaf l => [.leaf l]
  | .node c children => .start c :: (outlineOf children ++ [.stop])

def outlineOf : List Block → List Mark
  | [] => []
  | b :: blocks => b.outline ++ outlineOf blocks

end

def Mark.leaf? : Mark → Option Leaf
  | leaf l => some l
  | _ => none

def Mark.isBracket : Mark → Bool
  | leaf _ => false
  | _ => true

/-- The marks from a place on that is inside of `depth` containers, without stops that nothing started, and with a stop
for each container that is still open at the end. -/
def balance (depth : Nat) : List Mark → List Mark
  | [] => List.replicate depth .stop
  | .start c :: marks => .start c :: balance (depth + 1) marks
  | .leaf l :: marks => .leaf l :: balance depth marks
  | .stop :: marks =>
    match depth with
    | 0 => balance 0 marks
    | depth + 1 => .stop :: balance depth marks

@[simp] theorem Block.outline_leaf (l : Leaf) : (Block.leaf l).outline = [.leaf l] := by rw [Block.outline]

@[simp] theorem Block.outline_node (c : Container) (children : List Block) :
    (Block.node c children).outline = .start c :: (outlineOf children ++ [.stop]) := by rw [Block.outline]

@[simp] theorem outlineOf_nil : outlineOf [] = [] := by rw [outlineOf]

@[simp] theorem outlineOf_cons (b : Block) (blocks : List Block) :
    outlineOf (b :: blocks) = b.outline ++ outlineOf blocks := by rw [outlineOf]

@[simp] theorem outlineOf_append (a b : List Block) : outlineOf (a ++ b) = outlineOf a ++ outlineOf b := by
  induction a with
  | nil => simp
  | cons block a ih => simp [ih]

/-! ## Leaves of an outline -/

section Leaves

variable (marks : List Mark)

@[simp] theorem filterMap_start (c : Container) :
    (Mark.start c :: marks).filterMap Mark.leaf? = marks.filterMap Mark.leaf? :=
  List.filterMap_cons_none rfl

@[simp] theorem filterMap_leaf (l : Leaf) :
    (Mark.leaf l :: marks).filterMap Mark.leaf? = l :: marks.filterMap Mark.leaf? :=
  List.filterMap_cons_some rfl

@[simp] theorem filterMap_stop : (Mark.stop :: marks).filterMap Mark.leaf? = marks.filterMap Mark.leaf? :=
  List.filterMap_cons_none rfl

end Leaves

mutual

theorem filterMap_outline : ∀ b : Block, b.outline.filterMap Mark.leaf? = b.leaves
  | .leaf l => by simp
  | .node c children => by simp [filterMap_outlineOf children]

theorem filterMap_outlineOf : ∀ blocks : List Block, (outlineOf blocks).filterMap Mark.leaf? = leavesIn blocks
  | [] => by simp [leavesIn]
  | b :: blocks => by
    rw [outlineOf_cons, List.filterMap_append, filterMap_outline b, filterMap_outlineOf blocks, leavesIn]

end

theorem filter_map_leaf (leaves : List Leaf) : (leaves.map Mark.leaf).filter Mark.isBracket = [] := by
  induction leaves with
  | nil => rfl
  | cons l leaves ih => exact ih

theorem balance_append_leaves (depth : Nat) (leaves : List Leaf) (marks : List Mark) :
    balance depth (leaves.map .leaf ++ marks) = leaves.map .leaf ++ balance depth marks := by
  induction leaves with
  | nil => rfl
  | cons l leaves ih => rw [List.map_cons, List.cons_append, balance, ih]; rfl

theorem filterMap_balance (depth : Nat) (marks : List Mark) :
    (balance depth marks).filterMap Mark.leaf? = marks.filterMap Mark.leaf? := by
  fun_induction balance depth marks with
  | case1 depth => simp [List.filterMap_replicate, Mark.leaf?]
  | case2 | case3 | case4 | case5 => simp_all

end MacroDoc
