import MacroDoc.Call
import MacroDoc.Dialect

/-!
# Blocks

A document is a forest of blocks. A block is a leaf, or a container with children. What a container is by itself
(its kind and its own data) is a value of its own, so that a statement about the shape of a tree does not depend
on the kinds of its containers.

* `Leaf` : words, spaces, symbols, line breaks, rules, verbatim text, error notices, macro calls;
* `Container` : paragraphs, headings, lists, elements, formats, links, macro markers;
* `Block` : a leaf or a container with its children.

Three kinds carry the meaning of macros: an invocation is a call that is still to be expanded, a marker records the
call that its children were made from, a reference is a call that will not be expanded.
-/

namespace MacroDoc

/-- Styles of inline text. -/
inductive Format where
  | bold
  | italic
  | strikethrough
  | monospace
  deriving DecidableEq, Inhabited

/-- A range of bytes of a source text. -/
structure Span where
  start : Nat
  stop : Nat
  deriving DecidableEq, Inhabited

/-- A macro call that is still to be expanded, with the dialect it was written in. It has a span if it was read
from a source text. -/
structure Invocation where
  call : Call
  dialect : Dialect
  span : Option Span
  deriving DecidableEq, Inhabited

def Invocation.identifier (i : Invocation) : String :=
  i.call.identifier

/-- Blocks that have no children. -/
inductive Leaf where
  | horizontalLine
  | word (text : String)
  | space
  | symbol (char : Char)
  | newLine
  | verbatim (content : String) (isInline : Bool)
  | error (message : String) (description : Option String)
  | invocation (invocation : Invocation)
  | reference (call : Call)
  deriving DecidableEq, Inhabited

/-- A container without its children. -/
inductive Container where
  | paragraph
  | heading (level : Nat)
  | quotation
  | list (ordered : Bool)
  | listItem
  | group
  | element (name : String) (attributes : List (String × String))
  | format (format : Format)
  | link (reference : String)
  | marker (call : Call)
  deriving DecidableEq, Inhabited

/-- A node of a document tree. -/
inductive Block where
  | leaf (leaf : Leaf)
  | node (container : Container) (children : List Block)
  deriving Inhabited

/-- Whether the children of a container are a run of inline text. -/
def Container.isInline : Container → Bool
  | .paragraph | .heading _ | .listItem | .format _ | .link _ => true
  | _ => false

namespace Block

/-- The children of a container; a leaf has none. -/
def children : Block → List Block
  | leaf _ => []
  | node _ children => children

/-- The same block with other children; a leaf stays as it is. -/
def withChildren (block : Block) (children : List Block) : Block :=
  match block with
  | leaf l => leaf l
  | node c _ => node c children

/-- A container with one more child; a leaf has none. -/
def pushChild? (child : Block) : Block → Option Block
  | leaf _ => none
  | node c children => some (node c (children ++ [child]))

def isInlineContainer : Block → Bool
  | leaf _ => false
  | node c _ => c.isInline

def invocation? : Block → Option Invocation
  | leaf (.invocation i) => some i
  | _ => none

/-- The call and the children of a marker, if the block is one. -/
def marker? : Block → Option (Call × List Block)
  | node (.marker call) children => some (call, children)
  | _ => none

/-- Whether the children of a marker say that its call was left as it is: they are one reference. -/
def isUnexpanded : List Block → Bool
  | [leaf (.reference _)] => true
  | _ => false

mutual

def decEq : (a b : Block) → Decidable (a = b)
  | leaf a, leaf b => decidable_of_iff (a = b) (by simp)
  | node c as, node d bs =>
    match decEqList as bs with
    | .isTrue h => decidable_of_iff (c = d) (by simp [h])
    | .isFalse h => .isFalse (by simp [h])
  | leaf _, node _ _ => .isFalse (by simp)
  | node _ _, leaf _ => .isFalse (by simp)

def decEqList : (as bs : List Block) → Decidable (as = bs)
  | [], [] => .isTrue rfl
  | a :: as, b :: bs =>
    match decEq a b with
    | .isTrue h =>
      match decEqList as bs with
      | .isTrue h' => .isTrue (by rw [h, h'])
      | .isFalse h' => .isFalse (by simp [h'])
    | .isFalse h => .isFalse (by simp [h])
  | [], _ :: _ => .isFalse (by simp)
  | _ :: _, [] => .isFalse (by simp)

end

instance : DecidableEq Block := decEq

end Block

end MacroDoc
