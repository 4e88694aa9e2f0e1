import MacroDoc.Block
import MacroDoc.Text.Scan

/-!
# Markup of blocks

Every block has a written form. Markers leave no trace in it; invocations and references are written as calls.

* `Leaf.written` : the markup of a leaf;
* `Container.written` : the markup of a container from the markup of its children;
* `Block.written`, `writtenEach` : the markup of a block, and of each block of a forest.
-/

namespace MacroDoc

/-- What stands on both sides of formatted text. -/
def Format.delimiter : Format → List Char
  | .bold => ['*', '*']
  | .italic => ['*']
  | .strikethrough => ['~', '~']
  | .monospace => ['`']

def codeFence : List Char := ['`', '`', '`', '\n']

def Leaf.written : Leaf → List Char
  | horizontalLine => ['-', '-', '-', '\n']
  | word text => text.toList
  | space => [' ']
  | symbol c => [c]
  | newLine => ['\n']
  | verbatim content true => '`' :: content.toList ++ ['`']
  | verbatim content false => codeFence ++ Text.dropTrailing '\n' content.toList ++ '\n' :: codeFence
  | error message _ => "[error: ".toList ++ message.toList ++ [']']
  | invocation i => i.call.written
  | reference call => call.written

/-- An attribute value as it stands between double quotes. -/
def escapeAttribute (value : List Char) : List Char :=
  value.flatMap fun c => if c = '&' then "&amp;".toList else if c = '"' then "&quot;".toList else [c]

/-- The start of an element, without the mark that ends its tag. -/
def writtenTag (name : String) (attributes : List (String × String)) : List Char :=
  '<' :: name.toList
    ++ attributes.flatMap fun (key, value) =>
        ' ' :: key.toList ++ '=' :: '"' :: escapeAttribute value.toList ++ ['"']

/-- Items of a list, each on its own lines, numbered from `n` on if the list is ordered. -/
def writtenItems (ordered : Bool) (n : Nat) : List (List Char) → List Char
  | [] => []
  | item :: rest =>
    (if ordered then (toString n).toList ++ ['.', ' '] else ['-', ' ']) ++ Text.trimEnd item
      ++ '\n' :: writtenItems ordered (n + 1) rest

/-- The markup of a container, from the markup of its children. -/
def Container.written (c : Container) (parts : List (List Char)) : List Char :=
  match c with
  | paragraph => parts.flatten ++ ['\n']
  | heading level => List.replicate level '#' ++ ' ' :: parts.flatten ++ ['\n']
  | quotation => (Text.lines parts.flatten).flatMap fun line => '>' :: ' ' :: line ++ ['\n']
  | list ordered => writtenItems ordered 1 parts
  | listItem | group | marker _ => parts.flatten
  | element name attributes =>
    if parts.isEmpty then writtenTag name attributes ++ ['/', '>', '\n']
    else writtenTag name attributes ++ '>' :: '\n' :: parts.flatten ++ '<' :: '/' :: name.toList ++ ['>', '\n']
  | format f => f.delimiter ++ parts.flatten ++ f.delimiter
  | link reference => '[' :: parts.flatten ++ ']' :: '(' :: reference.toList ++ [')']

mutual

def Block.written : Block → List Char
  | .leaf l => l.written
  | .node c children => c.written (writtenEach children)

def writtenEach : List Block → List (List Char)
  | [] => []
  | block :: blocks => block.written :: writtenEach blocks

end

theorem writtenEach_eq_map (blocks : List Block) : writtenEach blocks = blocks.map Block.written := by
  induction blocks with
  | nil => rfl
  | cons b bs ih => rw [writtenEach, ih, List.map_cons]

def Block.markup (b : Block) : String :=
  String.ofList b.written

end MacroDoc
