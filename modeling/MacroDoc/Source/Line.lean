import MacroDoc.Text.Scan

/-!
# Lines of a source

Bytes of a source are shown to its author as lines and columns, both counted from one.

* `SourceLine` : a line with its number and the byte that it starts at;
* `sourceLines` : the lines of a source, of which there is always at least one;
* `lineAt` : the line that a byte is in;
* `SourceLine.column` : the column of a byte in its line.
-/

namespace MacroDoc

/-- A line of a source without the line feed that ends it. -/
structure SourceLine where
  number : Nat
  start : Nat
  text : List Char
  deriving DecidableEq, Inhabited

def sourceLinesFrom (number start : Nat) : List (List Char) → List SourceLine
  | [] => []
  | text :: rest => ⟨number, start, text⟩ :: sourceLinesFrom (number + 1) (start + Text.byteLength text + 1) rest

def sourceLines (source : List Char) : List SourceLine :=
  sourceLinesFrom 1 0 (Text.splitLines source)

/-- The line that a byte is in: the last one that does not start after it. -/
def lineAt (lines : List SourceLine) (byte : Nat) : SourceLine :=
  (lines.takeWhile fun line => line.start ≤ byte).getLastD ⟨1, 0, []⟩

/-- Number of characters of a text that end within its first `bytes` bytes. -/
def charactersWithin (bytes : Nat) : List Char → Nat
  | [] => 0
  | c :: cs => if c.utf8Size ≤ bytes then charactersWithin (bytes - c.utf8Size) cs + 1 else 0

def SourceLine.column (line : SourceLine) (byte : Nat) : Nat :=
  charactersWithin (byte - line.start) line.text + 1

end MacroDoc
