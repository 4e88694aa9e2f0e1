import MacroDoc.ParseError
import MacroDoc.Source.Line
import MacroDoc.Text.Scan
import MacroDoc.Text.Width

/-!
# Excerpts of a source

A notice about a range of a source shows the lines that the range is in, with carets under it:

```text
error: macro 'a' is never closed
  ┌─ page.md:1:1
  │
1 │ {{a}}
  │ ^^^^^
  │
  = close it with {{/a}} or write {{a/}}
```

* `Cell`, `cells` : the characters of a line with the columns that they take up;
* `caretLines`, `bracketLines` : a range within one line, and one over several;
* `Notice.render` : the notice with its excerpt.
-/

namespace MacroDoc

/-- How bad the matter of a notice is. -/
inductive Severity where
  | error
  | warning
  deriving DecidableEq, Inhabited

/-- A message about a range of a source, with notes on how to mend it. -/
structure Notice where
  severity : Severity
  message : String
  span : Span
  notes : List String
  deriving DecidableEq, Inhabited

namespace Excerpt

/-! ## Cells -/

/-- A character of a line, with the byte that it begins at and the columns that it takes up. -/
structure Cell where
  place : Nat
  width : Nat
  char : Char

def tabWidth : Nat := 4

/-- The columns of a character that begins at `column`: a tab reaches to the next stop. -/
def columns (column : Nat) (c : Char) : Nat :=
  if c = '\t' then tabWidth - column % tabWidth else Text.width c

def cellsFrom (place column : Nat) : List Char → List Cell
  | [] => []
  | c :: cs =>
    let width := columns column c
    ⟨place, width, c⟩ :: cellsFrom (place + c.utf8Size) (column + width) cs

def cells (text : List Char) : List Cell :=
  cellsFrom 0 0 text

/-- What is shown of a line: all but the carriage returns and null characters that it ends with. -/
def visibleText (line : SourceLine) : List Char :=
  (line.text.reverse.dropWhile fun c => c = '\n' ∨ c = '\r' ∨ c = '\x00').reverse

def Cell.filled (cell : Cell) (c : Char) : List Char :=
  List.replicate cell.width c

def expandTabs (text : List Char) : String :=
  String.ofList ((cells text).flatMap fun cell => if cell.char = '\t' then cell.filled ' ' else [cell.char])

/-! ## Rows -/

/-- A row without a line number, in a gutter for numbers of `width` digits. -/
def row (width : Nat) (border text : String) : String :=
  "".pushn ' ' (width + 1) ++ border ++ text

/-- A row with the number and the text of a line, and a mark left of the text. -/
def numberedRow (width : Nat) (mark : String) (line : SourceLine) : String :=
  let number := toString line.number
  "".pushn ' ' (width - number.length) ++ number ++ " │" ++ mark ++ " " ++ expandTabs (visibleText line)

/-- Carets under the cells that `start` to `stop` touches, and spaces before them. -/
def carets (start stop : Nat) (cell : Cell) : List Char :=
  if max start cell.place < min stop (cell.place + cell.char.utf8Size) then cell.filled '^'
  else if cell.place < stop then cell.filled ' '
  else []

/-- A range within one line: the line, and carets under the range. An empty range still gets a caret, which may stand
after the last character. -/
def caretLines (width : Nat) (line : SourceLine) (span : Span) : List String :=
  let text := visibleText line
  let start := span.start - line.start
  let stop := max (span.stop - line.start) (start + 1)
  let afterText : Cell := ⟨Text.byteLength text, 1, '\x00'⟩
  [numberedRow width "" line, row width "│ " (String.ofList ((cells text ++ [afterText]).flatMap (carets start stop)))]

/-- A rule under the cells that begin before a byte, with a caret at its end. -/
def rule (text : List Char) (byte : Nat) : String :=
  let under := (cells text).takeWhile fun cell => cell.place < byte
  String.ofList (under.flatMap (·.filled '─')) ++ "^"

/-- The line that a range over several lines starts in. A range that starts with the first character of the line needs
no rule. -/
def openingLines (width : Nat) (line : SourceLine) (byte : Nat) : List String :=
  let text := visibleText line
  if byte ≤ Text.byteLength (text.takeWhile Text.isBlank) then [numberedRow width " ╭" line]
  else [numberedRow width "  " line, row width "│ ╭" (rule text (byte + 1))]

/-- The lines within a range. Of more than five, the first three and the last are shown. -/
def innerLines (width : Nat) (lines : List SourceLine) : List String :=
  let shown := numberedRow width " │"
  if lines.length ≤ 5 then lines.map shown
  else (lines.take 3).map shown ++ row width "· │" "" :: (lines.drop (lines.length - 1)).map shown

/-- The line that a range over several lines ends in. -/
def closingLines (width : Nat) (line : SourceLine) (byte : Nat) : List String :=
  [numberedRow width " │" line, row width "│ ╰" (rule (visibleText line) byte)]

/-- A range over several lines, with a bracket on its left. -/
def bracketLines (width : Nat) (lines : List SourceLine) (first last : SourceLine) (span : Span) : List String :=
  let inner := lines.filter fun line => first.number < line.number ∧ line.number < last.number
  openingLines width first (span.start - first.start) ++ innerLines width inner
    ++ closingLines width last (span.stop - last.start)

/-- The rows of a note: a bullet before its first line. -/
def noteLines (width : Nat) (note : String) : List String :=
  match (Text.lines note.toList).map String.ofList with
  | [] => []
  | first :: rest => row width "= " first :: rest.map (row width "  ")

end Excerpt

open Excerpt

def Severity.name : Severity → String
  | error => "error"
  | warning => "warning"

namespace Notice

def rows (n : Notice) (fileName : String) (source : String) : List String :=
  let lines := sourceLines source.toList
  let first := lineAt lines n.span.start
  let last := lineAt lines n.span.stop
  let width := (toString last.number).length
  let oneLine := first.number = last.number
  let blank := row width (if oneLine then "│" else "│  ") ""
  let place := fileName ++ ":" ++ toString first.number ++ ":" ++ toString (first.column n.span.start)
  let excerpt := if oneLine then caretLines width first n.span else bracketLines width lines first last n.span
  let notes := if n.notes.isEmpty then [] else blank :: n.notes.flatMap (noteLines width)
  [n.severity.name ++ ": " ++ n.message, row width "┌─ " place, blank] ++ excerpt ++ notes ++ [""]

def render (n : Notice) (fileName : String) (source : String) : String :=
  String.join ((n.rows fileName source).map (· ++ "\n"))

def ofParseError (e : ParseError) : Notice :=
  ⟨.error, e.message, e.span, e.notes⟩

end Notice

end MacroDoc
