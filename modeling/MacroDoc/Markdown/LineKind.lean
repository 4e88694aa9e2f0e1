import MacroDoc.Markdown.Cursor
import MacroDoc.Text.Scan

/-!
# Kinds of lines

What a line begins, once the containers that it continues are out of the way.

* `rule?`, `atxLevel?`, `setext?`, `fence?`, `closingFence?` : rules, headings, and fences of code;
* `ListMark`, `listMark?` : the mark of an item of a list;
* `interruptsByMark` : whether a line begins an item that ends the paragraph before it.

The optional numbers are lengths.
-/

namespace MacroDoc.Markdown

def runOf (c : Char) (text : List Char) : Nat :=
  runLength (· == c) text

/-- Read a rule from its mark on: at least three marks and white space. -/
def ruleFrom (mark : Char) (marks taken : Nat) : List Char → Option Nat
  | [] => if 3 ≤ marks then some taken else none
  | c :: cs =>
    if c = '\n' || c = '\r' then
      if 3 ≤ marks then (lineEnd? (c :: cs)).map (taken + ·) else none
    else if c = mark then ruleFrom mark (marks + 1) (taken + 1) cs
    else if c = ' ' || c = '\t' then ruleFrom mark marks (taken + 1) cs
    else none

/-- The length of a line that is a rule, with its end. -/
def rule? (text : List Char) : Option Nat :=
  match text with
  | c :: _ => if c = '*' || c = '-' || c = '_' then ruleFrom c 0 0 text else none
  | [] => none

/-- The level of a heading that begins with number signs. -/
def atxLevel? (text : List Char) : Option Nat :=
  let level := runOf '#' text
  let ended := match text.drop level with
    | [] => true
    | c :: _ => isSpace c
  if ended && 1 ≤ level && level ≤ 6 then some level else none

/-- The length of an underline, and the level of the heading above it. -/
def setext? (text : List Char) : Option (Nat × Nat) :=
  match text with
  | c :: _ =>
    if c = '=' || c = '-' then
      let n := runOf c text
      (blankLine? (text.drop n)).map fun m => (n + m, if c = '=' then 1 else 2)
    else none
  | [] => none

/-- The characters of the line, with the line feed that ends it. -/
def firstLine (text : List Char) : List Char × List Char :=
  match text with
  | [] => ([], [])
  | c :: cs =>
    if c = '\n' then ([c], cs)
    else
      let (line, rest) := firstLine cs
      (c :: line, rest)

/-- The length and the character of a fence that begins a block of code. -/
def fence? (text : List Char) : Option (Nat × Char) :=
  match text with
  | c :: _ =>
    if c = '`' || c = '~' then
      let n := runOf c text
      if n < 3 then none
      else if c = '`' && (firstLine (text.drop n)).1.contains '`' then none
      else some (n, c)
    else none
  | [] => none

/-- The length of a fence that ends a block of code begun by `n` characters `c`. The end of the text ends it too. -/
def closingFence? (c : Char) (n : Nat) (text : List Char) : Option Nat :=
  if text.isEmpty then some 0
  else
    let run := runOf c text
    if run < n then none
    else
      let length := run + runOf ' ' (text.drop run)
      (lineEnd? (text.drop length)).map fun _ => length

/-- The mark of an item: its character, the number before it, and how far the item is indented. -/
structure ListMark where
  mark : Char
  number : Nat
  indent : Nat

/-- Step over the white space after a mark that ends at `c`. More than four columns of it belong to the content. -/
def finishMark (mark : Char) (number indent : Nat) (c : Cursor) : ListMark × Cursor :=
  if (blankLine? c.rest).isSome then (⟨mark, number, indent⟩, c)
  else
    let (found, after) := c.takeSpaces 4
    if found < 4 then (⟨mark, number, indent + found⟩, after) else (⟨mark, number, indent⟩, c)

/-- Whether some digits and the character after them can be the mark of an ordered list. -/
def isOrderedMark (digits : List Char) (e : Char) : Bool :=
  1 ≤ digits.length && digits.length ≤ 9 && (e = '.' || e = ')')

/-- Step over a mark, white space after it included. It needs a space after it unless the line ends there. -/
def listMark? (indent : Nat) (c : Cursor) : Option (ListMark × Cursor) :=
  let finish (mark : Char) (number width : Nat) : Option (ListMark × Cursor) :=
    let (found, after) := (c.skip width).takeSpaces 1
    if found = 1 || after.atLineEnd then some (finishMark mark number (indent + width + 1) after) else none
  match c.rest with
  | [] => none
  | d :: _ =>
    if d = '-' || d = '+' || d = '*' then
      if (rule? c.rest).isSome then none else finish d 0 1
    else if d.isDigit then
      let digits := c.rest.takeWhile Char.isDigit
      match c.rest.drop digits.length with
      | e :: _ =>
        if isOrderedMark digits e then finish e (Text.numeral 10 digits) (digits.length + 1) else none
      | [] => none
    else none

/-- The text after the mark of an item, with the mark and the number, as it is seen from inside a paragraph. -/
def itemStart? (text : List Char) : Option (Char × Nat × List Char) :=
  let after (mark : Char) (number : Nat) (rest : List Char) : Option (Char × Nat × List Char) :=
    match rest with
    | [] => some (mark, number, rest)
    | c :: _ => if isSpace c then some (mark, number, rest) else none
  match text with
  | [] => none
  | c :: rest =>
    if c = '-' || c = '+' || c = '*' then after c 0 rest
    else
      let digits := text.takeWhile Char.isDigit
      match text.drop digits.length with
      | e :: rest =>
        if isOrderedMark digits e then after e (Text.numeral 10 digits) rest else none
      | [] => none

/-- Whether a line begins an item that ends the paragraph before it. In a container that the line continues, an empty
item does not, and a numbered item does only if its number is one. -/
def interruptsByMark (continued : Bool) (text : List Char) : Bool :=
  match itemStart? text with
  | none => false
  | some (mark, number, rest) =>
    !continued || ((mark == '-' || mark == '+' || mark == '*' || number == 1) && (blankLine? rest).isNone)

end MacroDoc.Markdown
