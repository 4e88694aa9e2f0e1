import MacroDoc.Markdown.Entity
import MacroDoc.Text.Punctuation
import MacroDoc.Text.Scan

/-!
# Inline tokens

The lines of a paragraph or heading are cut into tokens: text, and the characters that may mean something in it. What
they mean is settled when all lines are known.

* `Token` : a kind and a range of characters, counted from the start of the paragraph;
* `canOpen`, `canClose` : whether a run of delimiters may begin or end formatted text;
* `lineTokens` : the tokens of one line, and the break that ends it.
-/

namespace MacroDoc.Markdown

inductive TokenKind where
  | text
  | character (characters : List Char)
  | delimiters (char : Char) (count : Nat) (opens closes : Bool)
  | backticks (count : Nat) (escaped : Bool)
  | angle
  | bracket (isImage : Bool)
  | closingBracket (mayBeReference : Bool)
  | softBreak
  | hardBreak (backslash : Bool)
  deriving DecidableEq

/-- Whether what the token means depends on other tokens. -/
def TokenKind.isUnsettled : TokenKind → Bool
  | delimiters .. | backticks .. | angle | bracket _ | closingBracket _ => true
  | text | character _ | softBreak | hardBreak _ => false

/-- A token, from the character `start` up to the character `stop`. -/
structure Token where
  kind : TokenKind
  start : Nat
  stop : Nat

/-- Append a token of text to tokens in reverse. Text that touches the text before it extends that. -/
def appendText (start stop : Nat) (tokens : List Token) : List Token :=
  if stop ≤ start then tokens
  else match tokens with
    | ⟨.text, first, last⟩ :: rest =>
      if last = start then ⟨.text, first, stop⟩ :: rest else ⟨.text, start, stop⟩ :: tokens
    | _ => ⟨.text, start, stop⟩ :: tokens

/-- Whether a run of `count` delimiters may begin formatted text, between the character before it on its line and the
text after it. -/
def canOpen (delimiter : Char) (count : Nat) (before : Option Char) (after : List Char) : Bool :=
  match after with
  | [] => false
  | next :: _ =>
    if Text.isBlank next then false
    else match before with
      | none => true
      | some before =>
        (delimiter == '*' && !Text.isPunctuation next) || (delimiter == '~' && 1 < count)
          || (delimiter == '~' && before == '~' && !Text.isPunctuation next)
          || Text.isBlank before || Text.isPunctuation before

/-- Whether a run of `count` delimiters may end formatted text. -/
def canClose (delimiter : Char) (count : Nat) (before : Option Char) (after : List Char) : Bool :=
  match before with
  | none => false
  | some before =>
    if Text.isBlank before then false
    else match after with
      | [] => true
      | next :: _ =>
        ((delimiter == '*' || (delimiter == '~' && 1 < count)) && !Text.isPunctuation before)
          || (delimiter == '~' && before == '~') || Text.isBlank next || Text.isPunctuation next

/-- What is known in the middle of a line: the place, where the text that is not yet a token begins, the character
before, how many backslashes and how many white space characters stand right before, how many characters are done
with, and the tokens so far in reverse. -/
structure LineState where
  place : Nat
  textStart : Nat
  before : Option Char
  backslashes : Nat
  spaces : Nat
  skip : Nat
  tokens : List Token

def LineState.step (s : LineState) (c : Char) : LineState :=
  { s with
    place := s.place + 1, before := some c, skip := s.skip - 1
    backslashes := if c = '\\' then s.backslashes + 1 else 0
    spaces := if isInlineSpace c then s.spaces + 1 else 0 }

/-- Add a token of `length` characters at the place of `s`, and the text before it. The characters from the second on
are done with. -/
def LineState.add (s : LineState) (kind : TokenKind) (length : Nat) : LineState :=
  { s with
    tokens := ⟨kind, s.place, s.place + length⟩ :: appendText s.textStart s.place s.tokens
    textStart := s.place + length, skip := length }

/-- A line that has been cut into tokens: the tokens in reverse, the break that ends it, the place after it, and the
text after it. -/
structure Line where
  tokens : List Token
  ending : Option Token
  place : Nat
  rest : List Char

/-- The line whose end `n` characters long is reached in state `s`, with `rest` after it. -/
def LineState.finish (s : LineState) (n : Nat) (rest : List Char) : Line :=
  let stop := s.place + n
  if s.backslashes % 2 = 1 && !rest.isEmpty then
    ⟨appendText s.textStart (s.place - 1) s.tokens, some ⟨.hardBreak true, s.place - 1, stop⟩, stop, rest⟩
  else
    let kind := if 2 ≤ s.spaces then .hardBreak false else .softBreak
    ⟨appendText s.textStart (s.place - s.spaces) s.tokens, some ⟨kind, s.place - s.spaces, stop⟩, stop, rest⟩

/-- Look at the character `c` in front of `cs`: the state in which it is stepped over. -/
def LineState.look (s : LineState) (c : Char) (cs : List Char) : LineState :=
  if c = '\\' then
    match cs with
    | d :: rest =>
      if d = '`' then
        let count := 1 + runOf '`' rest
        { s with
          tokens := ⟨.backticks count true, s.place + 1, s.place + 1 + count⟩ :: appendText s.textStart s.place s.tokens
          textStart := s.place + 1 + count, skip := 1 + count }
      else if Text.isAsciiPunctuation d then
        { s with tokens := appendText s.textStart s.place s.tokens, textStart := s.place + 1, skip := 2 }
      else s
    | [] => s
  else if c = '*' || c = '_' || c = '~' then
    let count := 1 + runOf c cs
    let after := cs.drop (count - 1)
    let opens := canOpen c count s.before after
    let closes := canClose c count s.before after
    if (opens || closes) && (c != '~' || count ≤ 2) then s.add (.delimiters c count opens closes) count
    else { s with skip := count }
  else if c = '`' then
    let count := 1 + runOf '`' cs
    s.add (.backticks count false) count
  else if c = '<' && cs.head? != some '\\' then s.add .angle 1
  else if c = '!' && cs.head? == some '[' then s.add (.bracket true) 2
  else if c = '[' then s.add (.bracket false) 1
  else if c = ']' then s.add (.closingBracket true) 1
  else if c = '&' then
    match characterReference? (c :: cs) with
    | some (n, characters) => s.add (.character characters) n
    | none => s
  else s

def lineTokensFrom (s : LineState) : List Char → Line
  | [] => ⟨appendText s.textStart (s.place - min s.spaces (s.place - s.textStart)) s.tokens, none, s.place, []⟩
  | c :: cs =>
    if s.skip ≠ 0 then lineTokensFrom (s.step c) cs
    else if c = '\n' then s.finish 1 cs
    else if c = '\r' then
      match cs with
      | '\n' :: rest => s.finish 2 rest
      | _ => s.finish 1 cs
    else lineTokensFrom ((s.look c cs).step c) cs

/-- Cut the line at the start of `text` into tokens, which are added to `tokens`; `place` is where it begins. -/
def lineTokens (place : Nat) (tokens : List Token) (text : List Char) : Line :=
  lineTokensFrom ⟨place, place, none, 0, 0, 0, tokens⟩ text

end MacroDoc.Markdown
