import MacroDoc.Block
import MacroDoc.Text.Alphanumeric
import MacroDoc.Text.Scan

/-!
# Words

Plain text is a run of words, spaces and symbols: a word is a maximal run of letters and digits, a space stands for
a maximal run of blank characters, and any other character is a symbol.

* `pushChar` : put one more character in front of a run;
* `words` : the run of a text;
* `paragraphOf` : a paragraph of the words of a text.
-/

namespace MacroDoc

/-- Put a character in front of a run of leaves. -/
def pushChar (c : Char) (run : List Leaf) : List Leaf :=
  if Text.isBlank c then
    match run with
    | .space :: _ => run
    | _ => .space :: run
  else if Text.isAlphanumeric c then
    match run with
    | .word w :: rest => .word (String.ofList (c :: w.toList)) :: rest
    | _ => .word (String.ofList [c]) :: run
  else .symbol c :: run

def wordLeaves (text : List Char) : List Leaf :=
  text.foldr pushChar []

/-- The words, spaces and symbols of a text, as blocks. -/
def words (text : List Char) : List Block :=
  (wordLeaves text).map .leaf

def paragraphOf (text : String) : Block :=
  .node .paragraph (words text.toList)

end MacroDoc
