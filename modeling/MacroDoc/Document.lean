import MacroDoc.Block.Event
import MacroDoc.Block.Markup
import MacroDoc.Block.Walk

/-!
# Documents

A document owns its top-level blocks in order, and knows the source that it was read from.

* `Document.get?`, `Document.replace?`, `Document.set` : the block at a path, and the document with another block
  there;
* `Document.update?`, `Document.push` : the document with a block changed, or with one more;
* `Document.walk`, `Document.invocations`, `Document.markers` : its blocks in document order;
* `Document.markup` : its written form, every top-level block ending with a line end.
-/

namespace MacroDoc

/-- A document tree with the number of its source. -/
structure Document where
  blocks : List Block
  sourceId : Nat
  deriving DecidableEq, Inhabited

namespace Document

def get? (d : Document) (path : Path) : Option Block :=
  getAt? path.indices d.blocks

/-- The old block at a path, and the document with `block` in its place. -/
def replace? (d : Document) (path : Path) (block : Block) : Option (Block × Document) :=
  (replaceAt? path block d.blocks).map fun (old, blocks) => (old, { d with blocks })

/-- The document with `block` at a path; unchanged if nothing stands there. -/
def set (d : Document) (path : Path) (block : Block) : Document :=
  ((d.replace? path block).map (·.2)).getD d

/-- The document with the block at a path changed, if `change` allows it. -/
def update? (d : Document) (path : Path) (change : Block → Option Block) : Option Document :=
  (modifyAt? change path.indices d.blocks).map fun blocks => { d with blocks }

def push (d : Document) (block : Block) : Document :=
  { d with blocks := d.blocks ++ [block] }

def walk (d : Document) : List Visit :=
  MacroDoc.walk d.blocks

def invocations (d : Document) : List PlacedInvocation :=
  invocationsIn d.blocks

def markers (d : Document) : List (Path × Call × List Block) :=
  markersIn d.blocks

def events (d : Document) : String :=
  eventListing d.blocks

def endLine (text : List Char) : List Char :=
  if text.getLast? = some '\n' then text else text ++ ['\n']

def written (d : Document) : List Char :=
  d.blocks.flatMap fun b => endLine b.written

def markup (d : Document) : String :=
  String.ofList d.written

end Document

end MacroDoc
