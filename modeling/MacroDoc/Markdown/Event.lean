/-!
# Markdown events

Reading Markdown gives a flat sequence of events: containers open and close, and between that stand pieces of text,
code, raw HTML, line breaks and rules, and whatever else a reader may find that stands for nothing in a document.

Nothing is assumed of a sequence of events: openings and closings need not match.
-/

namespace MacroDoc.Markdown

/-- What a pair of events stands around. -/
inductive Tag where
  | paragraph
  | heading (level : Nat)
  | quotation
  | list (ordered : Bool)
  | item
  | emphasis
  | strong
  | strikethrough
  | link (destination : List Char)
  | codeBlock
  | htmlBlock
  deriving DecidableEq, Inhabited

inductive Event where
  | enter (tag : Tag)
  | leave (tag : Tag)
  | text (text : List Char)
  | code (text : List Char)
  | html (text : List Char)
  | lineBreak
  | rule
  | other
  deriving DecidableEq, Inhabited

end MacroDoc.Markdown
