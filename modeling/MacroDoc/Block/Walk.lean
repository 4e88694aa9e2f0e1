import MacroDoc.Block.Path

/-!
# Walks

A walk visits every block of a forest in document order, each with its path and its placement. The children of an
inline container stand inline, those of a marker stand where the marker does, and all others stand among blocks.

* `walk` : all visits of a forest;
* `invocationsIn`, `markersIn` : the visits of invocations and of markers.
-/

namespace MacroDoc

/-- One step of a walk. -/
structure Visit where
  path : Path
  placement : Placement
  block : Block

/-- The placement of the children of a container that stands at `placement`. -/
def Container.placementWithin (c : Container) (placement : Placement) : Placement :=
  match c with
  | marker _ => placement
  | _ => if c.isInline then .inline else .block

mutual

def walkBlock (path : Path) (placement : Placement) : Block → List Visit
  | .leaf l => [⟨path, placement, .leaf l⟩]
  | .node c children =>
    ⟨path, placement, .node c children⟩ :: walkChildren path (c.placementWithin placement) 0 children

/-- The visits of the children of `parent` from index `i` on. -/
def walkChildren (parent : Path) (placement : Placement) (i : Nat) : List Block → List Visit
  | [] => []
  | block :: blocks =>
    walkBlock (parent.child i) placement block ++ walkChildren parent placement (i + 1) blocks

end

/-- All blocks of a forest in document order. -/
def walk (blocks : List Block) : List Visit :=
  walkChildren ⟨[]⟩ .block 0 blocks

/-- An invocation with its place in the tree. -/
structure PlacedInvocation where
  path : Path
  placement : Placement
  invocation : Invocation
  deriving DecidableEq

def invocationsIn (blocks : List Block) : List PlacedInvocation :=
  (walk blocks).filterMap fun v => v.block.invocation?.map (⟨v.path, v.placement, ·⟩)

/-- The markers of a forest in document order: path, call and children. -/
def markersIn (blocks : List Block) : List (Path × Call × List Block) :=
  (walk blocks).filterMap fun v => v.block.marker?.map (v.path, ·)

end MacroDoc
