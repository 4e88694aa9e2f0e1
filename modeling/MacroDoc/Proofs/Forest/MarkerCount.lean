import MacroDoc.Expansion.Pass
import MacroDoc.Proofs.Forest.Marking

/-!
# Counting markers

The number of markers of a document, by recursion on its blocks rather than along a walk.

* `Block.markerCount`, `markerCount` : the number of markers of a block and of a forest; it is the length of the list
  of markers (`length_markersIn`);
* `Document.length_markers_set` : the balance when a block takes the place of another;
* `Marked.length_markers` : every invocation that becomes a marker adds one, if there are none below it.
-/

namespace MacroDoc

/-- The number of markers that a container is by itself. -/
def Container.markerCount : Container → Nat
  | marker _ => 1
  | _ => 0

mutual

def Block.markerCount : Block → Nat
  | .leaf _ => 0
  | .node c children => c.markerCount + markerCount children

def markerCount : List Block → Nat
  | [] => 0
  | block :: blocks => block.markerCount + markerCount blocks

end

@[simp] theorem Block.markerCount_leaf (l : Leaf) : (Block.leaf l).markerCount = 0 := by
  rw [Block.markerCount]

@[simp] theorem Block.markerCount_node (c : Container) (children : List Block) :
    (Block.node c children).markerCount = c.markerCount + MacroDoc.markerCount children := by
  rw [Block.markerCount]

@[simp] theorem markerCount_nil : markerCount [] = 0 := by
  rw [markerCount]

@[simp] theorem markerCount_cons (b : Block) (blocks : List Block) :
    markerCount (b :: blocks) = b.markerCount + markerCount blocks := by
  rw [markerCount]

/-! ## Along a walk -/

def markersOf (visits : List Visit) : List (Path × Call × List Block) :=
  visits.filterMap fun v => v.block.marker?.map (v.path, ·)

theorem length_markersOf_node (path : Path) (placement : Placement) (c : Container) (children : List Block)
    (visits : List Visit) :
    (markersOf (⟨path, placement, .node c children⟩ :: visits)).length =
      c.markerCount + (markersOf visits).length := by
  cases c <;> simp [markersOf, Block.marker?, Container.markerCount, Nat.add_comm]

mutual

theorem length_markersOf_walkBlock (path : Path) (placement : Placement) :
    ∀ b : Block, (markersOf (walkBlock path placement b)).length = b.markerCount
  | .leaf l => by simp [walkBlock, markersOf, Block.marker?]
  | .node c children => by
    rw [walkBlock, length_markersOf_node, length_markersOf_walkChildren, Block.markerCount_node]

theorem length_markersOf_walkChildren (parent : Path) (placement : Placement) (i : Nat) :
    ∀ blocks : List Block, (markersOf (walkChildren parent placement i blocks)).length = markerCount blocks
  | [] => by simp [walkChildren, markersOf]
  | b :: blocks => by
    have hblock := length_markersOf_walkBlock (parent.child i) placement b
    have hrest := length_markersOf_walkChildren parent placement (i + 1) blocks
    rw [walkChildren, markerCount_cons, ← hblock, ← hrest, markersOf, List.filterMap_append, List.length_append]
    rfl

end

theorem length_markersIn (blocks : List Block) : (markersIn blocks).length = markerCount blocks :=
  length_markersOf_walkChildren ⟨[]⟩ .block 0 blocks

/-! ## Blocks that take the place of others -/

theorem markerCount_modify {blocks : List Block} {i : Nat} {b : Block} (hb : blocks[i]? = some b)
    (f : Block → Block) :
    markerCount (blocks.modify i f) + b.markerCount = markerCount blocks + (f b).markerCount := by
  induction blocks generalizing i with
  | nil => simp at hb
  | cons first rest ih =>
    cases i with
    | zero =>
      obtain rfl : first = b := by simpa using hb
      simp only [List.modify_zero_cons, markerCount_cons]
      omega
    | succ i =>
      have hrest := ih (i := i) (by simpa using hb)
      simp only [List.modify_succ_cons, markerCount_cons]
      omega

theorem Block.markerCount_put {b old : Block} {path : List Nat} (h : b.descend? path = some old) (new : Block) :
    (b.put path new).markerCount + old.markerCount = b.markerCount + new.markerCount := by
  induction path generalizing b with
  | nil =>
    obtain rfl : b = old := by simpa using h
    rw [put_nil, Nat.add_comm]
  | cons i path ih =>
    cases b with
    | leaf l => simp at h
    | node c children =>
      rw [descend?_node_cons] at h
      obtain ⟨child, hchild, hold⟩ := Option.bind_eq_some_iff.1 h
      have hput := ih hold
      have hmodify := markerCount_modify hchild (·.put path new)
      simp only [put_node_cons, markerCount_node]
      omega

mutual

theorem Block.markerCount_forgetSpans : ∀ b : Block, b.forgetSpans.markerCount = b.markerCount
  | .leaf l => by cases l <;> simp [Block.forgetSpans]
  | .node c children => by simp [Block.forgetSpans, markerCount_forgetSpans children]

theorem markerCount_forgetSpans : ∀ blocks : List Block, markerCount (forgetSpans blocks) = markerCount blocks
  | [] => by simp [forgetSpans]
  | b :: blocks => by simp [forgetSpans, Block.markerCount_forgetSpans b, markerCount_forgetSpans blocks]

end

/-! ## Documents -/

theorem Document.length_markers (d : Document) : d.markers.length = d.root.markerCount := by
  rw [markers, length_markersIn, root, Block.markerCount_node]
  simp [Container.markerCount]

/-- The balance when a block takes the place of another. -/
theorem Document.length_markers_set {d : Document} {path : Path} {old : Block} (h : d.get? path = some old)
    (new : Block) :
    (d.set path new).markers.length + old.markerCount = d.markers.length + new.markerCount := by
  have hne := ne_nil_of_isSome_get? (by rw [h]; rfl)
  rw [get?_eq_descend? d hne] at h
  rw [length_markers, length_markers, root_set d hne]
  exact Block.markerCount_put h new

/-- Every invocation that becomes a marker adds one, if there are none below it. -/
theorem Marked.length_markers {R : Path → Invocation → List Block → Prop} {paths : List Path} {d d' : Document}
    (h : Marked R paths d d') (hbelow : ∀ p i children, R p i children → markerCount children = 0) :
    d'.markers.length = d.markers.length + paths.length := by
  induction h with
  | nil d => rfl
  | @cons p i children paths d d' here below rest ih =>
    have hset := Document.length_markers_set here (.node (.marker i.call) children)
    simp only [Block.markerCount_leaf, Block.markerCount_node, Container.markerCount, hbelow p i children below]
      at hset
    rw [ih, List.length_cons]
    omega

end MacroDoc
