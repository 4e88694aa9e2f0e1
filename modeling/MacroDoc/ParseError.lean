import MacroDoc.Block

/-!
# Errors in a source

* `ParseError` : a message about a range of bytes of a numbered source, with notes on how to mend it;
* `ParseError.render` : the message with its range;
* `ParseError.shift` : the same error in a text that begins earlier.
-/

namespace MacroDoc

/-- A problem found in a source text. -/
structure ParseError where
  message : String
  span : Span
  fileId : Nat
  notes : List String
  deriving DecidableEq, Inhabited

namespace ParseError

/-- The message with its range. -/
def render (e : ParseError) : String :=
  e.message ++ " at " ++ toString e.span.start ++ ".." ++ toString e.span.stop

def withNote (e : ParseError) (note : String) : ParseError :=
  { e with notes := e.notes ++ [note] }

/-- The error in a text that has `offset` more bytes in front. -/
def shift (e : ParseError) (offset : Nat) : ParseError :=
  { e with span := ⟨e.span.start + offset, e.span.stop + offset⟩ }

end ParseError

end MacroDoc
