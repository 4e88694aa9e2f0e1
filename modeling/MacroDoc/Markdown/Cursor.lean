/-!
# The start of a line

The start of a line says which containers the line continues. It is read by columns: a tab reaches to the next
column that is a multiple of four, and may be used in part.

* `Cursor` : a place in the start of a line;
* `Cursor.takeSpaces` : use up a number of columns of white space;
* `Nest`, `Cursor.enter` : the containers that are open, and how many of them a line continues;
* `lineEnd?`, `blankLine?` : the length of a line end, and of a blank rest of a line.
-/

namespace MacroDoc.Markdown

/-- White space of ASCII other than line ends. -/
def isInlineSpace (c : Char) : Bool :=
  c == ' ' || c == '\t' || c == '\x0b' || c == '\x0c'

/-- White space of ASCII. -/
def isSpace (c : Char) : Bool :=
  isInlineSpace c || c == '\n' || c == '\r'

/-- Number of characters at the start of a text that satisfy `p`. -/
def runLength (p : Char → Bool) (text : List Char) : Nat :=
  (text.takeWhile p).length

/-- The length of the line end that a text begins with. The end of the text ends a line too. -/
def lineEnd? : List Char → Option Nat
  | [] => some 0
  | '\n' :: _ => some 1
  | '\r' :: '\n' :: _ => some 2
  | '\r' :: _ => some 1
  | _ => none

/-- The length of white space and a line end, if nothing else is left of the line. -/
def blankLine? (text : List Char) : Option Nat :=
  let n := runLength isInlineSpace text
  (lineEnd? (text.drop n)).map (n + ·)

/-- A place in the start of a line: the text from there on, the column, the columns of the last tab that are not used
up, and the number of characters taken so far. -/
structure Cursor where
  rest : List Char
  column : Nat
  owed : Nat
  taken : Nat
  deriving Inhabited

namespace Cursor

def start (text : List Char) : Cursor := ⟨text, 0, 0, 0⟩

def skip (c : Cursor) (n : Nat) : Cursor :=
  { c with rest := c.rest.drop n, column := c.column + n, taken := c.taken + n }

/-- Use up to `n` columns of white space: the columns that were missing, and the text, the column, the unused columns
of a tab and the number of characters taken afterwards. -/
def spaces (n column taken : Nat) : List Char → Nat × Cursor
  | [] => (n, ⟨[], column, 0, taken⟩)
  | c :: cs =>
    if n = 0 then (0, ⟨c :: cs, column, 0, taken⟩)
    else if c = ' ' then spaces (n - 1) (column + 1) (taken + 1) cs
    else if c = '\t' then
      let width := 4 - column % 4
      if n < width then (0, ⟨cs, column + width, width - n, taken + 1⟩)
      else spaces (n - width) (column + width) (taken + 1) cs
    else (n, ⟨c :: cs, column, 0, taken⟩)

/-- Use up to `n` columns of white space: how many there were, and the place after them. -/
def takeSpaces (c : Cursor) (n : Nat) : Nat × Cursor :=
  if n ≤ c.owed then (n, { c with owed := c.owed - n })
  else
    let (missing, after) := spaces (n - c.owed) c.column c.taken c.rest
    (n - missing, after)

def skipSpaces (c : Cursor) : Cursor :=
  { c.skip (runLength (fun c => c == ' ' || c == '\t') c.rest) with owed := 0 }

def atLineEnd (c : Cursor) : Bool :=
  match c.rest with
  | [] => true
  | c :: _ => c == '\n' || c == '\r'

/-- Step over the mark of a quotation and one column of white space after it. -/
def quoteMark? (c : Cursor) : Option Cursor :=
  match c.rest with
  | '>' :: _ => some ((c.skip 1).takeSpaces 1).2
  | _ => none

end Cursor

/-- An open container as lines continue it: a quotation by its mark, an item of a list by its indentation, and a list
by anything. -/
inductive Nest where
  | quotation
  | list
  | item (indent : Nat)
  deriving DecidableEq

/-- The place after the start of a line by which it continues a container, if it does. -/
def Nest.continue? (c : Cursor) : Nest → Option Cursor
  | quotation => (c.takeSpaces 3).2.quoteMark?
  | list => some c
  | item indent =>
    let (found, after) := c.takeSpaces indent
    if found = indent || after.atLineEnd then some after else none

/-- How many of the open containers, outermost first, a line continues, and the place after that. -/
def Cursor.enter (c : Cursor) : List Nest → Nat × Cursor
  | [] => (0, c)
  | nest :: nests =>
    match nest.continue? c with
    | none => (0, c)
    | some after =>
      let (n, after) := after.enter nests
      (n + 1, after)

/-- The number of characters at the start of a line by which it continues open containers. -/
def nestLength (nests : List Nest) (text : List Char) : Nat :=
  ((Cursor.start text).enter nests).2.taken

end MacroDoc.Markdown
