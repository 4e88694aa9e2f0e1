import MacroDoc.Markdown.Outline

/-!
# Reading Markdown

* `Node.events` : the events of a block. Paragraphs directly in an item of a tight list have none around them;
* `events` : the events of a document.

References to definitions share one allowance, in the order in which they stand in the document.
-/

namespace MacroDoc.Markdown

mutual

/-- The events of a block, and what is left of the allowance of references; `bare` says that the block stands in an item
of a tight list. -/
def Node.events (definitions : Definitions) (bare : Bool) (allowance : Nat) : Node → List Event × Nat
  | .paragraph content =>
    let (inlines, allowance) := content.inlines definitions allowance
    let inner := inlineEvents inlines
    (if bare then inner else .enter .paragraph :: inner ++ [.leave .paragraph], allowance)
  | .heading level content =>
    let (inlines, allowance) := content.inlines definitions allowance
    (.enter (.heading level) :: inlineEvents inlines ++ [.leave (.heading level)], allowance)
  | .quotation children =>
    let (inner, allowance) := nodeEvents definitions false allowance children
    (.enter .quotation :: inner ++ [.leave .quotation], allowance)
  | .list tight ordered items =>
    let (inner, allowance) := nodeEvents definitions tight allowance items
    (.enter (.list ordered) :: inner ++ [.leave (.list ordered)], allowance)
  | .item children =>
    let (inner, allowance) := nodeEvents definitions bare allowance children
    (.enter .item :: inner ++ [.leave .item], allowance)
  | .rule => ([.rule], allowance)
  | .code text => ([.enter .codeBlock, .text text, .leave .codeBlock], allowance)
  | .html pieces => (.enter .htmlBlock :: pieces ++ [.leave .htmlBlock], allowance)

def nodeEvents (definitions : Definitions) (bare : Bool) (allowance : Nat) : List Node → List Event × Nat
  | [] => ([], allowance)
  | node :: nodes =>
    let (first, allowance) := node.events definitions bare allowance
    let (others, allowance) := nodeEvents definitions bare allowance nodes
    (first ++ others, allowance)

end

/-- How many bytes references to definitions may bring into a document: as many as it has, but at least a hundred
thousand. -/
def referenceAllowance (text : List Char) : Nat :=
  max (Text.byteLength text) 100000

/-- The events of a document. -/
def events (text : List Char) : List Event :=
  let (nodes, definitions) := outline text
  (nodeEvents definitions false (referenceAllowance text) nodes).1

end MacroDoc.Markdown
