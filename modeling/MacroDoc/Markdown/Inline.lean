import MacroDoc.Markdown.Emphasis
import MacroDoc.Markdown.Html
import MacroDoc.Markdown.Link
import MacroDoc.Markdown.Token
import MacroDoc.Text.CaseFold

/-!
# Resolving inline tokens

Code, raw HTML and links are found in one pass from left to right, since they bind tighter than emphasis. Brackets
nest: a closing bracket makes a link of the nearest opening one, or turns both into text. A link holds no other link.

What references to labels bring into a document is limited: every reference uses up an allowance, and once nothing is
left of it the references that follow are text.

* `Definition`, `Definitions` : the destinations of labels;
* `Content` : the tokens of a paragraph or heading with its text;
* `Content.inlines` : the nodes of the content, and the allowance that is left.
-/

namespace MacroDoc.Markdown

/-- Where a label leads, and how many bytes a reference to it brings into the document: those of the destination and
of the title. -/
structure Definition where
  destination : List Char
  size : Nat

/-- The definitions of labels. Of several for one label, the first counts. -/
abbrev Definitions := List (List Char × Definition)

def labelKey (label : List Char) : List Char :=
  Text.foldCase label

/-- The definition of a label, as long as something is left of the allowance. -/
def Definitions.find? (definitions : Definitions) (allowance : Nat) (label : List Char) : Option Definition :=
  if allowance = 0 then none else definitions.lookup (labelKey label)

/-- The text of a paragraph or heading, the containers it stands in, and its tokens. -/
structure Content where
  text : List Char
  nests : List Nest
  tokens : List Token
  deriving Inhabited

/-- An opening bracket: whether it begins an image, whether it may still become a link, its text and where that ends,
and the nodes after it in reverse. -/
structure Bracket where
  isImage : Bool
  enabled : Bool
  text : List Char
  stop : Nat
  nodes : List Inline

/-- The nodes of a bracket as plain text and what follows, in reverse. -/
def Bracket.flatten (b : Bracket) : List Inline :=
  b.nodes ++ [.text b.text]

/-- Open brackets, innermost first, the nodes before them in reverse, and what is left of the allowance of
references. -/
structure Brackets where
  stack : List Bracket
  base : List Inline
  allowance : Nat

namespace Brackets

def append (b : Brackets) (nodes : List Inline) : Brackets :=
  match b.stack with
  | [] => { b with base := nodes ++ b.base }
  | top :: rest => { b with stack := { top with nodes := nodes ++ top.nodes } :: rest }

def push (b : Brackets) (node : Inline) : Brackets :=
  b.append [node]

/-- The brackets when no bracket but an image may become a link any more. -/
def disable (b : Brackets) : Brackets :=
  { b with stack := b.stack.map fun bracket => if bracket.isImage then bracket else { bracket with enabled := false } }

/-- All nodes, with the brackets that are still open as plain text. -/
def finish (b : Brackets) : List Inline :=
  (b.stack.flatMap Bracket.flatten ++ b.base).reverse

end Brackets

/-- The tokens from the character `place` on. A token that reaches over `place` is cut there. -/
def tokensFrom (place : Nat) (tokens : List Token) : List Token :=
  match tokens.dropWhile (·.stop ≤ place) with
  | [] => []
  | t :: rest => { t with start := max t.start place } :: rest

theorem length_tokensFrom (place : Nat) (tokens : List Token) :
    (tokensFrom place tokens).length ≤ tokens.length := by
  have := (List.dropWhile_sublist (p := fun t : Token => decide (t.stop ≤ place)) (l := tokens)).length_le
  unfold tokensFrom
  split <;> simp_all

/-- The first run of `count` backticks, and the tokens after it. -/
def closingBackticks? (count : Nat) : List Token → Option (Token × List Token)
  | [] => none
  | t :: rest =>
    match t.kind with
    | .backticks n _ => if n = count then some (t, rest) else closingBackticks? count rest
    | _ => closingBackticks? count rest

theorem length_of_closingBackticks? {count : Nat} {tokens : List Token} {t : Token} {rest : List Token}
    (h : closingBackticks? count tokens = some (t, rest)) : rest.length ≤ tokens.length := by
  induction tokens with
  | nil => simp [closingBackticks?] at h
  | cons u us ih =>
    unfold closingBackticks? at h
    split at h
    · split at h
      · simp_all
      · have := ih h; simp only [List.length_cons]; omega
    · have := ih h; simp only [List.length_cons]; omega

namespace Content

def slice (c : Content) (start stop : Nat) : List Char :=
  (c.text.drop start).take (stop - start)

/-- The text of code: a line feed or carriage return, with the start of a line after it, is one space. -/
def codeLines (nests : List Nest) (skip : Nat) : List Char → List Char
  | [] => []
  | c :: cs =>
    match skip with
    | skip + 1 => codeLines nests skip cs
    | 0 => if c = '\n' || c = '\r' then ' ' :: codeLines nests (nestLength nests cs) cs else c :: codeLines nests 0 cs

/-- The code between two runs of backticks. One space is dropped from each end if there is one at both, unless there
is nothing else. -/
def codeText (c : Content) (start stop : Nat) : List Char :=
  let text := codeLines c.nests 0 (c.slice start stop)
  if text.head? = some ' ' && text.getLast? = some ' ' && !text.all (· == ' ') then text.tail.dropLast else text

/-- Step over white space with at most one line end in the parentheses of a link. -/
def separator (c : Content) (place : Nat) : Nat :=
  let place := place + runLength isInlineSpace (c.text.drop place)
  let place := match lineEnd? (c.text.drop place) with
    | some n => place + n + nestLength c.nests (c.text.drop (place + n))
    | none => place
  place + runLength isInlineSpace (c.text.drop place)

/-- The place after the parentheses that follow a closing bracket, and the destination in them. -/
def parentheses? (c : Content) (place : Nat) : Option (Nat × List Char) :=
  if (c.text.drop place).head? != some '(' then none
  else
    let place := c.separator (place + 1)
    linkDestination? (c.text.drop place) >>= fun (n, destination) =>
      let place := c.separator (place + n)
      let place := match linkTitle? (c.text.drop place) with
        | some n => c.separator (place + n)
        | none => place
      if (c.text.drop place).head? = some ')' then some (place + 1, unescape destination) else none

def label? (c : Content) (start stop : Nat) : Option (Nat × List Char) :=
  linkLabel? (fun text => some (nestLength c.nests text)) (c.slice start stop)

/-- What a closing bracket that no parentheses follow refers to: nothing; a label after it, whose closing bracket is
the token with the given index; or the text between the brackets, after which a number of tokens is skipped. -/
inductive Reference where
  | none
  | label (label : List Char) (closing : Nat)
  | own (skip : Nat)

/-- Read what follows a closing bracket that ends at `place`. A token that does not begin there has an escaped character
at its start. -/
def reference (c : Content) (place : Nat) (rest : List Token) : Reference :=
  match rest with
  | [] => .own 0
  | next :: _ =>
    if next.start ≠ place then .own 0
    else if ['[', ']'].isPrefixOf (c.text.drop next.start) then .own 2
    else
      match c.label? next.start c.text.length with
      | some (n, label) =>
        match rest.findIdx? fun t => next.start + n - 1 < t.stop with
        | some i => .label label i
        | none => .none
      | none => .own 0

/-- What a closing bracket makes of the nearest opening one: where it leads if there is a link, and the tokens to go on
with. A label that leads nowhere is not tried again when its own closing bracket comes. -/
def target? (c : Content) (find? : List Char → Option Definition) (bracket : Bracket) (closing : Token)
    (mayBeReference : Bool) (rest : List Token) : Option Definition × List Token :=
  match c.parentheses? closing.stop with
  | some (place, destination) => (some ⟨destination, 0⟩, tokensFrom place rest)
  | none =>
    match c.reference closing.stop rest with
    | .none => (none, rest)
    | .label label i =>
      match find? label with
      | some definition => (some definition, rest.drop (i + 1))
      | none => (none, rest.modify i fun t => { t with kind := .closingBracket false })
    | .own skip =>
      let label? := if mayBeReference then c.label? (bracket.stop - 1) closing.stop else none
      match label? with
      | some (n, label) =>
        if bracket.stop - 1 + n = closing.stop then
          match find? label with
          | some definition => (some definition, rest.drop skip)
          | none => (none, rest)
        else (none, rest)
      | none => (none, rest)

theorem length_target? (c : Content) (find? : List Char → Option Definition) (bracket : Bracket) (closing : Token)
    (mayBeReference : Bool) (rest : List Token) :
    (c.target? find? bracket closing mayBeReference rest).2.length ≤ rest.length := by
  unfold target?
  split
  · exact length_tokensFrom _ _
  · split
    · simp
    · split <;> simp
    · dsimp only
      split
      · split
        · split <;> simp
        · simp
      · simp

/-- The children of a link: emphasis is settled within it, and a backslash before a line end at its end is text if
there was emphasis to settle. -/
def linkChildren (nodes : List Inline) : List Inline :=
  let runs := nodes.any fun
    | .delimiters .. => true
    | _ => false
  match runs, nodes.getLast? with
  | true, some (.lineBreak true) => emphasize (nodes.dropLast ++ [.text ['\\']])
  | _, _ => emphasize nodes

/-- The code that begins at a run of backticks, if another run ends it, and the tokens after it. -/
def code? (c : Content) (t : Token) (count : Nat) (rest : List Token) : Option (Inline × List Token) :=
  if count = 0 then none
  else (closingBackticks? count rest).map fun (close, after) => (.code (c.codeText t.stop close.start), after)

/-- The address or the raw HTML that begins at an angle bracket, and the tokens after it. -/
def angled? (c : Content) (t : Token) (rest : List Token) : Option (Inline × List Token) :=
  match rest with
  | [] => none
  | next :: _ =>
    let text := c.text.drop next.start
    match autolink? text with
    | some address =>
      let stop := next.start + address.length
      some (.span (.link address) [.text (c.slice t.stop stop)], tokensFrom (stop + 1) rest)
    | none =>
      (inlineHtml? (nestLength c.nests) text).map fun (html, n) => (.html html, tokensFrom (next.start - 1 + n) rest)

/-- Close the nearest bracket: with a link if it leads somewhere, and as text otherwise. -/
def closeBracket (c : Content) (definitions : Definitions) (b : Brackets) (t : Token) (mayBeReference : Bool)
    (rest : List Token) : Brackets × List Token :=
  let closing := c.slice t.start t.stop
  match b.stack with
  | [] => (b.push (.text closing), rest)
  | bracket :: stack =>
    let around : Brackets := { b with stack }
    let asText := (around.append bracket.flatten).push (.text closing)
    if !bracket.enabled then (asText, rest)
    else
      let (definition?, rest) := c.target? (definitions.find? b.allowance) bracket t mayBeReference rest
      match definition? with
      | none => (asText, rest)
      | some definition =>
        let around := around.push (.span (.link definition.destination) (linkChildren bracket.nodes.reverse))
        let around := { around with allowance := around.allowance - definition.size }
        (if bracket.isImage then around else around.disable, rest)

/-- Take in a token: the nodes with it, and the tokens to go on with. -/
def takeToken (c : Content) (definitions : Definitions) (b : Brackets) (t : Token) (rest : List Token) :
    Brackets × List Token :=
  let written := c.slice t.start t.stop
  match t.kind with
  | .text => (b.push (.text written), rest)
  | .character characters => (b.push (.text characters), rest)
  | .delimiters char count opens closes =>
    (b.push (.delimiters char count opens closes (c.slice (t.start + count) t.stop)), rest)
  | .softBreak => (b.push (.lineBreak false), rest)
  | .hardBreak backslash => (b.push (.lineBreak backslash), rest)
  | .bracket isImage => ({ b with stack := ⟨isImage, true, written, t.stop, []⟩ :: b.stack }, rest)
  | .backticks count escaped =>
    match c.code? t (if escaped then count - 1 else count) rest with
    | none => (b.push (.text written), rest)
    | some (code, after) => ((if escaped then b.push (.text ['`']) else b).push code, after)
  | .angle =>
    match c.angled? t rest with
    | none => (b.push (.text written), rest)
    | some (node, after) => (b.push node, after)
  | .closingBracket mayBeReference => c.closeBracket definitions b t mayBeReference rest

theorem length_code? {c : Content} {t : Token} {count : Nat} {rest : List Token} {node : Inline} {after : List Token}
    (h : c.code? t count rest = some (node, after)) : after.length ≤ rest.length := by
  unfold code? at h
  split at h
  · simp at h
  · obtain ⟨⟨close, others⟩, found, h⟩ := Option.map_eq_some_iff.1 h
    simp only [Prod.mk.injEq] at h
    exact h.2 ▸ length_of_closingBackticks? found

theorem length_angled? {c : Content} {t : Token} {rest : List Token} {node : Inline} {after : List Token}
    (h : c.angled? t rest = some (node, after)) : after.length ≤ rest.length := by
  unfold angled? at h
  split at h
  · simp at h
  · dsimp only at h
    split at h
    · simp only [Option.some.injEq, Prod.mk.injEq] at h
      exact h.2 ▸ length_tokensFrom _ _
    · obtain ⟨⟨html, n⟩, _, h⟩ := Option.map_eq_some_iff.1 h
      simp only [Prod.mk.injEq] at h
      exact h.2 ▸ length_tokensFrom _ _

theorem length_closeBracket (c : Content) (definitions : Definitions) (b : Brackets) (t : Token)
    (mayBeReference : Bool) (rest : List Token) :
    (c.closeBracket definitions b t mayBeReference rest).2.length ≤ rest.length := by
  unfold closeBracket
  split
  · simp
  · next bracket _ _ =>
    dsimp only
    split
    · simp
    · have := c.length_target? (definitions.find? b.allowance) bracket t mayBeReference rest
      split <;> exact this

theorem length_takeToken (c : Content) (definitions : Definitions) (b : Brackets) (t : Token) (rest : List Token) :
    (c.takeToken definitions b t rest).2.length ≤ rest.length := by
  unfold takeToken
  dsimp only
  split
  case h_7 =>
    split
    · simp
    · next h => exact length_code? h
  case h_8 =>
    split
    · simp
    · next h => exact length_angled? h
  case h_9 => exact length_closeBracket ..
  all_goals simp

def resolve (c : Content) (definitions : Definitions) (b : Brackets) : List Token → Brackets
  | [] => b
  | t :: rest =>
    have := c.length_takeToken definitions b t rest
    let next := c.takeToken definitions b t rest
    c.resolve definitions next.1 next.2
  termination_by tokens => tokens.length
  decreasing_by simp only [List.length_cons]; omega

/-- The tokens to resolve: a backslash before a line end at the end of the content is text if there is anything else to
resolve. -/
def settledTokens (c : Content) : List Token :=
  match c.tokens.getLast? with
  | some ⟨.hardBreak true, start, _⟩ =>
    if c.tokens.any (·.kind.isUnsettled) then c.tokens.dropLast ++ [⟨.text, start, start + 1⟩] else c.tokens
  | _ => c.tokens

/-- The nodes of the content, and what is left of the allowance of references. -/
def inlines (c : Content) (definitions : Definitions) (allowance : Nat) : List Inline × Nat :=
  let b := c.resolve definitions ⟨[], [], allowance⟩ c.settledTokens
  (emphasize b.finish, b.allowance)

end Content

end MacroDoc.Markdown
