import MacroDoc.Markdown.Inline

/-!
# Block structure

Markdown is read line by line. A line first continues containers that are open, closing the others, then may open new
ones, and what is left of it begins or continues a leaf block.

* `Node` : a block of the document;
* `Outline` : the open containers and the blocks so far;
* `Outline.readBlock` : one block, or the start of a line that has none;
* `outline` : the blocks of a document and the definitions in it.

A list is tight until a blank line separates two of its items, or two blocks directly in one of its items.
-/

namespace MacroDoc.Markdown

inductive Node where
  | paragraph (content : Content)
  | heading (level : Nat) (content : Content)
  | quotation (children : List Node)
  | list (tight ordered : Bool) (items : List Node)
  | item (children : List Node)
  | rule
  | code (text : List Char)
  | html (pieces : List Event)
  deriving Inhabited

inductive Holder where
  | quotation
  | list (tight : Bool) (mark : Char)
  | item (indent : Nat)

def Holder.nest : Holder → Nest
  | quotation => .quotation
  | list _ _ => .list
  | item indent => .item indent

/-- The block that an open container becomes when it is closed. -/
def Holder.close (h : Holder) (children : List Node) : Node :=
  match h with
  | quotation => .quotation children
  | list tight mark => .list tight (mark == '.' || mark == ')') children
  | item _ => .item children

/-- The state of reading: the open containers, innermost first, each with its blocks in reverse; the closed blocks
outside of them in reverse; whether the innermost item has been empty so far; whether the last line was blank; and the
definitions so far. -/
structure Outline where
  spine : List (Holder × List Node)
  nodes : List Node
  emptyItem : Bool
  blank : Bool
  definitions : Definitions

namespace Outline

def add (s : Outline) (node : Node) : Outline :=
  match s.spine with
  | [] => { s with nodes := node :: s.nodes }
  | (holder, children) :: rest => { s with spine := (holder, node :: children) :: rest }

def enter (s : Outline) (holder : Holder) : Outline :=
  { s with spine := (holder, []) :: s.spine }

def leave (s : Outline) : Outline :=
  match s.spine with
  | [] => s
  | (holder, children) :: rest =>
    let closed := add { s with spine := rest } (holder.close children.reverse)
    match holder with
    | .list true _ => { closed with emptyItem := false }
    | _ => closed

def leaveTo (s : Outline) (depth : Nat) : Outline :=
  Nat.repeat leave (s.spine.length - depth) s

def nests (s : Outline) : List Nest :=
  s.spine.reverse.map (·.1.nest)

def loosen : Holder × List Node → Holder × List Node
  | (.list _ mark, items) => (.list false mark, items)
  | other => other

/-- An item that begins with a blank line ends at the next one. -/
def finishEmptyItem (s : Outline) : Outline :=
  let s := match s.spine with
    | (.item _, _) :: _ => if s.emptyItem && s.blank then s.leave else s
    | _ => s
  { s with emptyItem := false }

/-- Begin a block that is no item: a list that is open here ends, and a blank line before the block makes the list
around it loose. -/
def finishList (s : Outline) : Outline :=
  let s := s.finishEmptyItem
  let s := match s.spine with
    | (.list _ _, _) :: _ => s.leave
    | _ => s
  if s.blank then
    match s.spine with
    | inner :: outer :: rest => { s with spine := inner :: loosen outer :: rest, blank := false }
    | _ => { s with blank := false }
  else s

/-- Begin an item: it continues the list that is open here if that has the same mark, and begins a list otherwise. -/
def continueList (s : Outline) (mark : Char) : Outline :=
  let s := s.finishEmptyItem
  let fresh (s : Outline) : Outline := { s.enter (.list true mark) with blank := false }
  match s.spine with
  | [] => fresh s
  | (.list tight existing, items) :: rest =>
    if existing = mark then
      if s.blank then { s with spine := (.list false existing, items) :: rest, blank := false }
      else { s with spine := (.list tight existing, items) :: rest }
    else fresh s.finishList
  | _ => fresh s.finishList

/-- Take in a blank line. An item that has been empty so far cannot go on after it. -/
def addBlank (s : Outline) : Outline :=
  match s.spine with
  | (.quotation, _) :: _ => s
  | (.item indent, children) :: rest =>
    { s with spine := (.item (if s.emptyItem then 0 else indent), children) :: rest, blank := true }
  | _ => { s with blank := true }

/-- Open the containers that begin on a line. The text after an item that is blank on its first line comes third. -/
def openContainers : Nat → Outline → Cursor → Outline × Cursor × Option (List Char)
  | 0, s, c => (s, c, none)
  | fuel + 1, s, c =>
    let (indent, after) := c.takeSpaces 4
    if 4 ≤ indent then (s, c, none)
    else match listMark? indent after with
      | some (mark, after) =>
        let s := (s.continueList mark.mark).enter (.item mark.indent)
        match blankLine? after.rest with
        | some n => ({ s with emptyItem := true }, after, some (after.rest.drop n))
        | none => openContainers fuel s after
      | none =>
        match after.quoteMark? with
        | some after => openContainers fuel (s.finishList.enter .quotation) after
        | none => (s, c, none)

/-! ## Leaf blocks -/

def interrupts (continued : Bool) (text : List Char) : Bool :=
  (lineEnd? text).isSome || (rule? text).isSome || (atxLevel? text).isSome || (fence? text).isSome
    || text.head? == some '>' || interruptsByMark continued text
    || match text with
      | '<' :: rest => (htmlBlockEnd? rest).isSome || beginsNamedBlock rest
      | _ => false

/-- A line of raw text with the unused columns of a tab before it, where a line feed is the only line end. -/
def rawLine (owed : Nat) (line : List Char) : List Char :=
  let line := match line.reverse with
    | c :: '\r' :: front => if c.utf8Size = 1 then (c :: front).reverse else line
    | _ => line
  List.replicate owed ' ' ++ line

/-- The lines of a paragraph from `text` on: the tokens in reverse, the place after them, the text after them, and the
level if they turn out to be a heading. -/
def paragraphFrom (nests : List Nest) : Nat → Nat → List Token → List Char → List Token × Nat × List Char × Option Nat
  | 0, place, tokens, text => (tokens, place, text, none)
  | fuel + 1, place, tokens, text =>
    let line := lineTokens place tokens text
    let (n, cursor) := (Cursor.start line.rest).enter nests
    let continued := n == nests.length
    let (found, cursor) := cursor.takeSpaces 4
    let ended := match line.ending with
      | some ⟨.hardBreak true, start, _⟩ => appendText start (start + 1) line.tokens
      | _ => line.tokens
    match if found < 4 && continued then setext? cursor.rest else none with
    | some (n, level) => (ended, line.place + cursor.taken + n, cursor.rest.drop n, some level)
    | none =>
      let after := cursor.skipSpaces
      if (found < 4 && interrupts continued cursor.rest) || after.atLineEnd then (ended, line.place, line.rest, none)
      else
        let tokens := match line.ending with
          | some ending => ending :: line.tokens
          | none => line.tokens
        paragraphFrom nests fuel (line.place + after.taken) tokens after.rest

/-- Read a paragraph, or a heading with an underline. -/
def readParagraph (s : Outline) (text : List Char) : Outline × List Char :=
  let (tokens, place, rest, level) := paragraphFrom s.nests (text.length + 1) 0 [] text
  let content : Content := ⟨text.take place, s.nests, tokens.reverse⟩
  match level with
  | some level => (s.add (.heading level content), rest)
  | none => (s.add (.paragraph content), rest)

/-- Where the text of a heading ends, without the number signs that close it. -/
def headingLimit (text : List Char) : Nat :=
  let limit := (text.reverse.dropWhile fun c => c == '\n' || c == '\r' || c == ' ').length
  let closer := ((text.take limit).reverse.dropWhile (· == '#')).length
  if closer = 0 then 0
  else
    let kept := ((text.take closer).reverse.dropWhile (· == ' ')).length
    if kept < closer then kept else limit

def readHeading (s : Outline) (level : Nat) (text : List Char) : Outline × List Char :=
  let text := text.drop level
  match lineEnd? text with
  | some n => (s.add (.heading level ⟨[], s.nests, []⟩), text.drop n)
  | none =>
    let text := text.drop (runLength isInlineSpace text)
    let line := lineTokens 0 [] text
    let content := text.take line.place
    let tokens := match line.ending with
      | some ⟨.hardBreak true, start, _⟩ => appendText start (start + 1) line.tokens
      | _ => line.tokens
    let tokens := match tokens with
      | last :: others => { last with stop := headingLimit content } :: others
      | [] => []
    (s.add (.heading level ⟨content, s.nests, tokens.reverse⟩), line.rest)

/-- The lines of a fenced block of code, without `indent` columns at their starts: the code in reverse, and the text
after the block. -/
def fencedFrom (nests : List Nest) (indent : Nat) (mark : Char) (length : Nat) :
    Nat → List (List Char) → List Char → List (List Char) × List Char
  | 0, code, text => (code, text)
  | fuel + 1, code, text =>
    let (n, cursor) := (Cursor.start text).enter nests
    if n < nests.length then (code, text)
    else
      let inner := (cursor.takeSpaces indent).2
      let (found, close) := inner.takeSpaces (4 - indent)
      match if found < 4 - indent then closingFence? mark length close.rest else none with
      | some n =>
        let rest := close.rest.drop n
        (code, rest.drop ((blankLine? rest).getD 0))
      | none =>
        let (line, rest) := firstLine inner.rest
        fencedFrom nests indent mark length fuel (rawLine inner.owed line :: code) rest

def readFenced (s : Outline) (indent length : Nat) (mark : Char) (text : List Char) : Outline × List Char :=
  let (code, rest) := fencedFrom s.nests indent mark length (text.length + 1) [] (firstLine text).2
  (s.add (.code code.reverse.flatten), rest)

/-- The lines of an indented block of code: the code up to the last line that is not blank, in reverse, the blank
lines after it in reverse, and the text after the block. -/
def indentedFrom (nests : List Nest) :
    Nat → Bool → Nat → List (List Char) → List (List Char) → List Char → List (List Char) × Bool × List Char
  | 0, blank, _, code, _, text => (code, blank, text)
  | fuel + 1, blank, owed, code, blanks, text =>
    let (line, rest) := firstLine text
    let line := rawLine owed line
    let (code, blanks) := if blank then (code, line :: blanks) else (line :: blanks ++ code, [])
    let (n, cursor) := (Cursor.start rest).enter nests
    let (found, cursor) := cursor.takeSpaces 4
    if n < nests.length || !(found = 4 || cursor.atLineEnd) || cursor.rest.isEmpty then (code, blank, rest)
    else indentedFrom nests fuel (blankLine? cursor.rest).isSome cursor.owed code blanks cursor.rest

def readIndented (s : Outline) (owed : Nat) (text : List Char) : Outline × List Char :=
  let (code, blank, rest) := indentedFrom s.nests (text.length + 1) false owed [] [] text
  ({ s with blank }.add (.code code.reverse.flatten), rest)

def htmlLine (indent : Nat) (line : List Char) : List Event :=
  (if indent = 0 then [] else [.text (List.replicate indent ' ')])
    ++ match line.reverse with
      | c :: '\r' :: front => if c.utf8Size = 1 then [.html front.reverse, .html [c]] else [.html line]
      | _ => [.html line]

/-- The lines of a block of HTML, up to a line that holds the mark `ending`, or up to a blank line if there is no such
mark. -/
def htmlFrom (nests : List Nest) (ending : Option (List Char)) :
    Nat → Nat → List Event → List Char → List Event × List Char
  | 0, _, pieces, text => (pieces, text)
  | fuel + 1, indent, pieces, text =>
    let (line, rest) := firstLine text
    let pieces := pieces ++ htmlLine indent line
    let (n, cursor) := (Cursor.start rest).enter nests
    let ends := match ending with
      | some mark => Text.contains mark line
      | none => (blankLine? cursor.rest).isSome
    if n < nests.length || ends || cursor.rest.isEmpty then (pieces, rest)
    else htmlFrom nests ending fuel cursor.owed pieces cursor.rest

def readHtml (s : Outline) (ending : Option (List Char)) (indent : Nat) (text : List Char) : Outline × List Char :=
  let (pieces, rest) := htmlFrom s.nests ending (text.length + 1) indent [] text
  (s.add (.html pieces), rest)

/-! ## Definitions

A definition is the start of a paragraph: its lines go on as the lines of a paragraph do, and so do the lines after it.
-/

/-- The start of a line that goes on with the paragraph before it: its length, and the place after it. A line that ends
the paragraph, or makes a heading of it, has none. -/
def continuation? (nests : List Nest) (text : List Char) : Option Cursor :=
  let (count, cursor) := (Cursor.start text).enter nests
  let continued := count == nests.length
  let (found, cursor) := cursor.takeSpaces 4
  if found < 4 && (interrupts continued cursor.rest || (continued && (setext? cursor.rest).isSome)) then none
  else some cursor

/-- The length of white space in a definition and the number of line ends in it, of which there may be one. -/
def definitionSpace? (nests : List Nest) : Nat → Nat → List Char → Option (Nat × Nat)
  | 0, _, _ => none
  | fuel + 1, lineEnds, text =>
    let n := runLength isInlineSpace text
    match lineEnd? (text.drop n) with
    | none => some (n, lineEnds)
    | some m =>
      if lineEnds ≠ 0 then none
      else
        continuation? nests (text.drop (n + m)) >>= fun cursor =>
          (definitionSpace? nests fuel (lineEnds + 1) cursor.rest).map fun (length, lineEnds) =>
            (n + m + cursor.taken + length, lineEnds)

/-- Read a title up to its closing character: the number of characters with that, and the title, which holds no blank
line. The first `skip` characters are done with; `escaped` says that a backslash stands right before. -/
def definitionTitle? (nests : List Nest) (closing : Char) (skip : Nat) (escaped : Bool) :
    List Char → Option (Nat × List Char)
  | [] => none
  | c :: cs =>
    let more (skip : Nat) (escaped : Bool) (out : List Char) : Option (Nat × List Char) :=
      (definitionTitle? nests closing skip escaped cs).map fun (n, title) => (n + 1, out ++ title)
    match skip with
    | skip + 1 => more skip false []
    | 0 =>
      if c = '\n' || c = '\r' then
        let n := (lineEnd? (c :: cs)).getD 1
        continuation? nests ((c :: cs).drop n) >>= fun cursor =>
          if (blankLine? cursor.rest).isSome then none else more (n - 1 + cursor.taken) false ['\n']
      else if escaped then more 0 false [c]
      else if c = closing then some (1, [])
      else if c = '(' && closing = ')' then none
      else more 0 (c = '\\') [c]

/-- The length of a definition up to the end of its destination or title, its label, and where it leads. -/
def definition? (nests : List Nest) (text : List Char) : Option (Nat × List Char × Definition) :=
  let lineStart (text : List Char) : Option Nat := (continuation? nests text).map (·.taken)
  linkLabel? lineStart text >>= fun (n, label) =>
    if (text.drop n).head? != some ':' then none
    else definitionSpace? nests 3 0 (text.drop (n + 1)) >>= fun (space, _) =>
      let start := n + 1 + space
      linkDestination? (text.drop start) >>= fun (length, destination) =>
        if length = 0 then none
        else
          let stop := start + length
          let destination := unescape destination
          let found (stop : Nat) (title : List Char) : Nat × List Char × Definition :=
            (stop, label, ⟨destination, Text.byteLength destination + Text.byteLength (unescape title)⟩)
          match definitionSpace? nests 3 0 (text.drop stop) with
          | none => some (found stop [])
          | some (space, lineEnds) =>
            let place := stop + space
            if space = 0 then none
            else
              let untitled := if lineEnds ≠ 0 then some (found stop []) else none
              let closing? := match (text.drop place).head? with
                | some '\'' => some '\''
                | some '"' => some '"'
                | some '(' => some ')'
                | _ => none
              match closing? >>= fun closing => definitionTitle? nests closing 0 false (text.drop (place + 1)) with
              | none => untitled
              | some (length, title) =>
                let place := place + 1 + length
                if (blankLine? (text.drop place)).isSome then some (found place title) else untitled

/-- Read the definitions that a paragraph begins with, and then the rest of its lines if there are any. -/
def readDefinitions : Nat → Outline → List Char → Outline × List Char
  | 0, s, text => s.readParagraph text
  | fuel + 1, s, text =>
    match definition? s.nests text with
    | none => s.readParagraph text
    | some (n, label, definition) =>
      let s := { s with definitions := s.definitions ++ [(labelKey label, definition)] }
      let rest := text.drop n
      let rest := rest.drop ((blankLine? rest).getD 0)
      let (count, cursor) := (Cursor.start rest).enter s.nests
      let (found, cursor) := cursor.takeSpaces 4
      let ends := found < 4 && interrupts (count == s.nests.length) cursor.rest
      if ends || (blankLine? cursor.rest).isSome then (s, rest) else readDefinitions fuel s cursor.skipSpaces.rest

/-! ## Documents -/

/-- Read what a line begins after the containers: a leaf block or a definition. -/
def readLeaf (s : Outline) (c : Cursor) : Outline × List Char :=
  let s := s.finishList
  let (indent, after) := c.takeSpaces 4
  if indent = 4 then s.readIndented after.owed after.rest
  else
    let text := after.rest
    let htmlIndent := max c.owed indent
    let htmlEnd := match text with
      | '<' :: rest => htmlBlockEnd? rest
      | _ => none
    let namedHtml := match text with
      | '<' :: rest =>
        beginsNamedBlock rest
          || match htmlTag? none text with
            | some (_, rest) => (blankLine? rest).isSome
            | none => false
      | _ => false
    if htmlEnd.isSome || namedHtml then s.readHtml htmlEnd htmlIndent text
    else match rule? text with
      | some n => (s.add .rule, text.drop n)
      | none =>
        match atxLevel? text with
        | some level => s.readHeading level text
        | none =>
          match fence? text with
          | some (n, mark) => s.readFenced indent n mark (text.drop n)
          | none => s.readDefinitions (text.length + 1) text

def readBlock (s : Outline) (text : List Char) : Outline × List Char :=
  let (depth, cursor) := (Cursor.start text).enter s.nests
  let (s, cursor, done) := (s.leaveTo depth).openContainers (text.length + 1) cursor
  match done with
  | some rest => (s, rest)
  | none =>
    match blankLine? cursor.rest with
    | some n => (s.addBlank, cursor.rest.drop n)
    | none => s.readLeaf cursor

/-- Read blocks up to the end of the text, and close what is open. -/
def readAll : Nat → Outline → List Char → Outline
  | 0, s, _ => s.leaveTo 0
  | fuel + 1, s, text =>
    if text.isEmpty then s.leaveTo 0
    else
      let (s, rest) := s.readBlock text
      readAll fuel s rest

end Outline

/-- The blocks of a document, and the definitions in it. -/
def outline (text : List Char) : List Node × Definitions :=
  let s := Outline.readAll (text.length + 1) ⟨[], [], false, false, []⟩ text
  (s.nodes.reverse, s.definitions)

end MacroDoc.Markdown
