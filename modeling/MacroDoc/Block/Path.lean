import MacroDoc.Block

/-!
# Paths

A path is the list of child indices from the root of a forest to a block. Paths are ordered lexicographically,
which is document order: a block comes before its descendants, and they come before its later siblings.

* `Path.render` : the written path;
* `Path.IsAncestor` : strict ancestry;
* `get?`, `modify?`, `replace?` : the block at a path, and a forest with that block changed.
-/

namespace MacroDoc

/-- Child indices from the root to a block. -/
structure Path where
  indices : List Nat
  deriving DecidableEq, Inhabited

namespace Path

def top (index : Nat) : Path := ⟨[index]⟩

def child (p : Path) (index : Nat) : Path := ⟨p.indices ++ [index]⟩

/-- The path of the parent; a top-level block has none. -/
def parent? (p : Path) : Option Path :=
  if p.indices.length ≤ 1 then none else some ⟨p.indices.dropLast⟩

/-- Nesting depth: 1 for a top-level block. -/
def depth (p : Path) : Nat := p.indices.length

/-- Strict ancestry: a path is not its own ancestor. -/
def isAncestorOf (p q : Path) : Bool :=
  p.indices.length < q.indices.length && p.indices.isPrefixOf q.indices

instance : LT Path := ⟨fun p q => p.indices < q.indices⟩

instance : DecidableLT Path := fun p q => inferInstanceAs (Decidable (p.indices < q.indices))

/-- Document order. -/
def compare (p q : Path) : Ordering :=
  if p < q then .lt else if p = q then .eq else .gt

/-- The written path: indices with a slash before each. -/
def render (p : Path) : String :=
  "/" ++ "/".intercalate (p.indices.map toString)

end Path

/-- Where a block stands: among blocks, or inside a run of inline text. -/
inductive Placement where
  | block
  | inline
  deriving DecidableEq, Inhabited

def getAt? : List Nat → List Block → Option Block
  | [], _ => none
  | [i], blocks => blocks[i]?
  | i :: j :: rest, blocks => blocks[i]? >>= fun b => getAt? (j :: rest) b.children

/-- The forest with the block at a path changed by `f`, if there is such a block and `f` allows it. -/
def modifyAt? (f : Block → Option Block) : List Nat → List Block → Option (List Block)
  | [], _ => none
  | [i], blocks => blocks[i]? >>= f |>.map fun b => blocks.set i b
  | i :: j :: rest, blocks =>
    blocks[i]? >>= fun b =>
      (modifyAt? f (j :: rest) b.children).map fun children => blocks.set i (b.withChildren children)

/-- The old block at a path, and the forest with `block` in its place. -/
def replaceAt? (path : Path) (block : Block) (blocks : List Block) : Option (Block × List Block) :=
  getAt? path.indices blocks >>= fun old =>
    (modifyAt? (fun _ => some block) path.indices blocks).map fun changed => (old, changed)

end MacroDoc
