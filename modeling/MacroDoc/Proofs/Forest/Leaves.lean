import Mathlib.Data.List.Perm.Basic
import MacroDoc.Block.Walk
import MacroDoc.Block.Words

/-!
# Leaves of a forest

The leaves of a forest in document order, without their paths. What a forest is made of can be counted in them
while the forest is still being built, as containers come and go without a change to them.

* `Block.leaves`, `leavesIn` : the leaves of a block and of a forest;
* `callsIn` : the invocations among them;
* `map_invocation_invocationsIn` : they are those of a walk.
-/

namespace MacroDoc

mutual

def Block.leaves : Block → List Leaf
  | .leaf l => [l]
  | .node _ children => leavesIn children

def leavesIn : List Block → List Leaf
  | [] => []
  | b :: blocks => b.leaves ++ leavesIn blocks

end

def Leaf.invocation? : Leaf → Option Invocation
  | .invocation i => some i
  | _ => none

/-- The invocations of a forest in document order, without their places. -/
def callsIn (blocks : List Block) : List Invocation :=
  (leavesIn blocks).filterMap Leaf.invocation?

@[simp] theorem Block.leaves_leaf (l : Leaf) : (Block.leaf l).leaves = [l] := by rw [Block.leaves]

@[simp] theorem Block.leaves_node (c : Container) (children : List Block) :
    (Block.node c children).leaves = leavesIn children := by rw [Block.leaves]

theorem leavesIn_eq_flatMap (blocks : List Block) : leavesIn blocks = blocks.flatMap Block.leaves := by
  induction blocks with
  | nil => rw [leavesIn, List.flatMap_nil]
  | cons b blocks ih => rw [leavesIn, ih, List.flatMap_cons]

theorem leavesIn_map_leaf (leaves : List Leaf) : leavesIn (leaves.map .leaf) = leaves := by
  rw [leavesIn_eq_flatMap, List.flatMap_map]
  simp

/-! ## Invocations -/

theorem callsIn_eq_flatMap (blocks : List Block) :
    callsIn blocks = blocks.flatMap fun b => b.leaves.filterMap Leaf.invocation? := by
  rw [callsIn, leavesIn_eq_flatMap, List.filterMap_flatMap]

@[simp] theorem callsIn_nil : callsIn [] = [] := rfl

@[simp] theorem callsIn_append (as bs : List Block) : callsIn (as ++ bs) = callsIn as ++ callsIn bs := by
  rw [callsIn_eq_flatMap, callsIn_eq_flatMap, callsIn_eq_flatMap, List.flatMap_append]

theorem callsIn_cons (b : Block) (blocks : List Block) : callsIn (b :: blocks) = callsIn [b] ++ callsIn blocks :=
  callsIn_append [b] blocks

theorem callsIn_node (c : Container) (children : List Block) : callsIn [.node c children] = callsIn children := by
  rw [callsIn, leavesIn, leavesIn, List.append_nil, Block.leaves_node, callsIn]

theorem callsIn_leaf (l : Leaf) : callsIn [.leaf l] = l.invocation?.toList := by
  rw [callsIn, leavesIn, leavesIn, List.append_nil, Block.leaves_leaf]
  cases h : l.invocation? <;> simp [h]

theorem callsIn_reverse (blocks : List Block) : (callsIn blocks.reverse).Perm (callsIn blocks) := by
  rw [callsIn_eq_flatMap, callsIn_eq_flatMap]
  exact (List.reverse_perm blocks).flatMap_right _

theorem invocation?_of_mem_wordLeaves {text : List Char} {l : Leaf} (h : l ∈ wordLeaves text) :
    l.invocation? = none := by
  unfold wordLeaves at h
  induction text generalizing l with
  | nil => cases h
  | cons c text ih =>
    rw [List.foldr_cons] at h
    -- A character is joined to the first leaf, or it is one more.
    generalize text.foldr pushChar [] = run at h ih
    unfold pushChar at h
    split at h
    · split at h
      · exact ih h
      · rcases List.mem_cons.1 h with rfl | h
        · rfl
        · exact ih h
    split at h
    · split at h
      · rcases List.mem_cons.1 h with rfl | h
        · rfl
        · exact ih (List.mem_cons_of_mem _ h)
      · rcases List.mem_cons.1 h with rfl | h
        · rfl
        · exact ih h
    · rcases List.mem_cons.1 h with rfl | h
      · rfl
      · exact ih h

theorem callsIn_words (text : List Char) : callsIn (words text) = [] := by
  rw [callsIn, words, leavesIn_map_leaf]
  exact List.filterMap_eq_nil_iff.2 fun l hl => invocation?_of_mem_wordLeaves hl

/-! ## Walks -/

mutual

theorem invocations_walkBlock (path : Path) (placement : Placement) :
    ∀ b : Block,
      (walkBlock path placement b).filterMap (fun v => v.block.invocation?) = b.leaves.filterMap Leaf.invocation?
  | .leaf l => by
    rw [walkBlock, Block.leaves_leaf]
    cases l <;> rfl
  | .node c children => by
    rw [walkBlock, Block.leaves_node, List.filterMap_cons_none rfl]
    exact invocations_walkChildren path _ 0 children

theorem invocations_walkChildren (parent : Path) (placement : Placement) (i : Nat) :
    ∀ blocks : List Block,
      (walkChildren parent placement i blocks).filterMap (fun v => v.block.invocation?) = callsIn blocks
  | [] => by
    rw [walkChildren]
    rfl
  | b :: blocks => by
    rw [walkChildren, List.filterMap_append, invocations_walkBlock _ _ b, invocations_walkChildren _ _ _ blocks,
      callsIn, callsIn, leavesIn, List.filterMap_append]

end

theorem map_invocation_invocationsIn (blocks : List Block) :
    (invocationsIn blocks).map (·.invocation) = callsIn blocks := by
  rw [invocationsIn, List.map_filterMap]
  simp only [Option.map_map, Function.comp_def, Option.map_id']
  exact invocations_walkChildren ⟨[]⟩ .block 0 blocks

end MacroDoc
