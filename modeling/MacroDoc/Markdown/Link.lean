import MacroDoc.Markdown.Entity
import MacroDoc.Text.Punctuation

/-!
# Parts of links

* `unescape` : a text with its escapes and character references replaced;
* `linkDestination?`, `linkTitle?` : the two parts in the parentheses of a link;
* `linkLabel?` : a label in square brackets, its white space collapsed;
* `autolink?` : an address between angle brackets.

The numbers are lengths in the text.
-/

namespace MacroDoc.Markdown

/-- Whether a backslash and a character that it escapes stand at the start of a text. -/
def isEscape : List Char → Bool
  | '\\' :: c :: _ => Text.isAsciiPunctuation c
  | _ => false

/-- Replace escapes and character references, and drop carriage returns; `skip` characters are done with. -/
def unescapeFrom (skip : Nat) : List Char → List Char
  | [] => []
  | c :: cs =>
    match skip with
    | skip + 1 => unescapeFrom skip cs
    | 0 =>
      if isEscape (c :: cs) then cs.take 1 ++ unescapeFrom 1 cs
      else if c = '&' then
        match characterReference? (c :: cs) with
        | some (n, characters) => characters ++ unescapeFrom (n - 1) cs
        | none => c :: unescapeFrom 0 cs
      else if c = '\r' then unescapeFrom 0 cs
      else c :: unescapeFrom 0 cs

def unescape (text : List Char) : List Char :=
  unescapeFrom 0 text

/-- Read a destination in angle brackets, after the opening one: the number of characters up to the closing one. -/
def angledLength? (skip : Bool) : List Char → Option Nat
  | [] => none
  | c :: cs =>
    if skip then (angledLength? false cs).map (· + 1)
    else if c = '\n' || c = '\r' || c = '<' then none
    else if c = '>' then some 0
    else (angledLength? (isEscape (c :: cs)) cs).map (· + 1)

def maxParentheses : Nat := 32

/-- Read a plain destination inside `depth` parentheses: its length, if they all close. -/
def plainLength? (skip : Bool) (depth : Nat) : List Char → Option Nat
  | [] => if depth = 0 then some 0 else none
  | c :: cs =>
    if skip then (plainLength? false depth cs).map (· + 1)
    else if c.toNat ≤ 0x20 then if depth = 0 then some 0 else none
    else if c = '(' then
      if maxParentheses < depth then none else (plainLength? false (depth + 1) cs).map (· + 1)
    else if c = ')' then
      match depth with
      | 0 => some 0
      | depth + 1 => (plainLength? false depth cs).map (· + 1)
    else (plainLength? (isEscape (c :: cs)) depth cs).map (· + 1)

/-- The length of a destination, and the destination as it is written. -/
def linkDestination? (text : List Char) : Option (Nat × List Char) :=
  match text with
  | '<' :: rest => (angledLength? false rest).map fun n => (n + 2, rest.take n)
  | _ => (plainLength? false 0 text).map fun n => (n, text.take n)

/-- The number of characters up to the closing character of a title and with it. A title may not hold its opening
character. -/
def titleLength? (opening closing : Char) (skip : Bool) : List Char → Option Nat
  | [] => none
  | c :: cs =>
    if skip then (titleLength? opening closing false cs).map (· + 1)
    else if c = closing then some 1
    else if c = opening then none
    else (titleLength? opening closing (isEscape (c :: cs)) cs).map (· + 1)

def linkTitle? (text : List Char) : Option Nat :=
  match text with
  | c :: rest =>
    if c = '"' || c = '\'' then (titleLength? c c false rest).map (· + 1)
    else if c = '(' then (titleLength? c ')' false rest).map (· + 1)
    else none
  | [] => none

/-! ## Labels -/

/-- Read white space inside a label. One line end is allowed; after it, `lineStart` gives the length of the start of
the next line, or refuses. -/
def labelSpace? (lineStart : List Char → Option Nat) : Nat → Bool → List Char → Option Nat
  | 0, _, _ => some 0
  | fuel + 1, sawLineEnd, text =>
    match text with
    | [] => some 0
    | c :: cs =>
      if isInlineSpace c then (labelSpace? lineStart fuel sawLineEnd cs).map (· + 1)
      else if c = '\n' || c = '\r' then
        if sawLineEnd then none
        else (lineEnd? text) >>= fun n =>
          lineStart (text.drop n) >>= fun m =>
            (labelSpace? lineStart fuel true (text.drop (n + m))).map (· + (n + m))
      else some 0

/-- The room in a label. White space takes one for each of its characters, an escape two, a lone backslash one, a
character beyond ASCII as many as it has bytes, and any other character nothing. -/
def labelRoom : Nat := 1000

/-- Read a label after its opening bracket, as long as there is room in it: its length with the closing bracket, and its
text with white space collapsed. -/
def labelRest? (lineStart : List Char → Option Nat) : Nat → Nat → List Char → Option (Nat × List Char)
  | 0, _, _ => none
  | fuel + 1, room, text =>
    let more (n taken : Nat) (out : List Char) : Option (Nat × List Char) :=
      (labelRest? lineStart fuel (room - taken) (text.drop n)).map fun (length, label) => (length + n, out ++ label)
    match text with
    | [] => none
    | c :: _ =>
      if room = 0 || c = '[' then none
      else if c = ']' then some (1, [])
      else if isEscape text then more 2 2 (text.take 2)
      else if isSpace c then labelSpace? lineStart (text.length + 1) false text >>= fun n => more n n [' ']
      else more 1 (if c = '\\' then 1 else if c.toNat < 0x80 then 0 else c.utf8Size) [c]

/-- The length of a label with its brackets, and its text. A label holds something besides white space. -/
def linkLabel? (lineStart : List Char → Option Nat) (text : List Char) : Option (Nat × List Char) :=
  match text with
  | '[' :: rest =>
    labelRest? lineStart (rest.length + 1) labelRoom rest >>= fun (n, label) =>
      if label.all isSpace then none else some (n + 1, label)
  | _ => none

/-! ## Addresses between angle brackets -/

/-- The address at the start of a text, before a closing angle bracket: a scheme, a colon, and anything without
white space. -/
def address? (text : List Char) : Option (List Char) :=
  match text with
  | [] => none
  | c :: rest =>
    let scheme := 1 + runLength (fun d => d.isAlphanum || d == '.' || d == '-' || d == '+') rest
    if c.isAlpha && (text.drop scheme).head? == some ':' && 2 ≤ scheme && scheme ≤ 32 then
      let length := scheme + 1 + runLength (fun d => 0x20 < d.toNat && d != '<' && d != '>') (text.drop (scheme + 1))
      if (text.drop length).head? == some '>' then some (text.take length) else none
    else none

def isMailChar (c : Char) : Bool :=
  c.isAlphanum || ".!#$%&'*+/=?^_`\x7b|\x7d~-".toList.contains c

/-- The length of the labels, parted by dots, after the at sign of a mail address. -/
def mailHost? : Nat → List Char → Option Nat
  | 0, _ => none
  | fuel + 1, text =>
    let label := text.takeWhile fun c => c.isAlphanum || c == '-'
    if label.isEmpty || 63 < label.length || label.head? == some '-' || label.getLast? == some '-' then none
    else
      match text.drop label.length with
      | '.' :: rest => (mailHost? fuel rest).map (· + (label.length + 1))
      | _ => some label.length

/-- The mail address at the start of a text, before a closing angle bracket. -/
def mailAddress? (text : List Char) : Option (List Char) :=
  let user := runLength isMailChar text
  if user = 0 || (text.drop user).head? != some '@' then none
  else
    mailHost? (text.length + 1) (text.drop (user + 1)) >>= fun n =>
      let length := user + 1 + n
      if (text.drop length).head? == some '>' then some (text.take length) else none

def autolink? (text : List Char) : Option (List Char) :=
  (address? text).or (mailAddress? text)

end MacroDoc.Markdown
