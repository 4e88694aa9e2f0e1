import MacroDoc.Markdown.LineKind
import MacroDoc.Text.Scan

/-!
# Raw HTML

* `htmlBlockEnd?`, `beginsNamedBlock` : what begins a block of HTML that ends at a mark, or at a blank line;
* `htmlTag?` : a single tag;
* `inlineHtml?` : a tag, comment, instruction, declaration or character data inside text.

A tag may run over several lines. The start of each further line, by which it continues the open containers, is no
part of the tag.
-/

namespace MacroDoc.Markdown

/-- Elements whose tag begins a block of HTML that a blank line ends. -/
def blockElements : List String :=
  ["address", "article", "aside", "base", "basefont", "blockquote", "body", "caption", "center", "col", "colgroup",
    "dd", "details", "dialog", "dir", "div", "dl", "dt", "fieldset", "figcaption", "figure", "footer", "form",
    "frame", "frameset", "h1", "h2", "h3", "h4", "h5", "h6", "head", "header", "hr", "html", "iframe", "legend",
    "li", "link", "main", "menu", "menuitem", "nav", "noframes", "ol", "optgroup", "option", "p", "param",
    "search", "section", "summary", "table", "tbody", "td", "tfoot", "th", "thead", "title", "tr", "track", "ul"]

/-- The mark that ends a block of HTML begun after `<`, if it is a block that ends at a mark. -/
def htmlBlockEnd? (text : List Char) : Option (List Char) :=
  let named := ["pre", "style", "script", "textarea"].find? fun name =>
    (text.take name.length).map Char.toLower == name.toList
      && match text.drop name.length with
        | [] => true
        | c :: _ => isSpace c || c == '>'
  match named with
  | some name => some ('<' :: '/' :: name.toList ++ ['>'])
  | none =>
    if "!--".toList.isPrefixOf text then some "-->".toList
    else if ['?'].isPrefixOf text then some "?>".toList
    else if "![CDATA[".toList.isPrefixOf text then some "]]>".toList
    else match text with
      | '!' :: c :: _ => if c.isAlpha then some ['>'] else none
      | _ => none

/-- Whether what stands after `<` begins a block of HTML that a blank line ends. -/
def beginsNamedBlock (text : List Char) : Bool :=
  let text := match text with
    | '/' :: rest => rest
    | _ => text
  let name := text.takeWhile Char.isAlphanum
  blockElements.contains (String.ofList (name.map Char.toLower))
    && match text.drop name.length with
      | [] => true
      | '/' :: '>' :: _ => true
      | c :: _ => c == ' ' || c == '\t' || c == '\r' || c == '\n' || c == '>'

/-! ## Tags -/

/-- Text taken, without the starts of lines, in reverse, and the text that is left. -/
abbrev Taken := List Char × List Char

def takeChars (n : Nat) (t : Taken) : Taken :=
  ((t.2.take n).reverse ++ t.1, t.2.drop n)

/-- Take white space. A line end is followed by `n` characters that are dropped, where `lineStart?` gives `n`; without
it there may be no line end. -/
def takeSpace (lineStart? : Option (List Char → Nat)) : Nat → Taken → Option Taken
  | 0, t => some t
  | fuel + 1, t =>
    match t.2 with
    | [] => some t
    | c :: _ =>
      if isInlineSpace c then takeSpace lineStart? fuel (takeChars 1 t)
      else if c = '\n' || c = '\r' then
        match lineStart?, lineEnd? t.2 with
        | some lineStart, some n =>
          let (out, rest) := takeChars n t
          takeSpace lineStart? fuel (out, rest.drop (lineStart rest))
        | _, _ => none
      else some t

/-- Take the rest of a quoted value and its closing quote. -/
def takeQuoted (lineStart? : Option (List Char → Nat)) (quote : Char) : Nat → Taken → Option Taken
  | 0, _ => none
  | fuel + 1, t =>
    match t.2 with
    | [] => none
    | c :: _ =>
      if c = quote then some (takeChars 1 t)
      else if c = '\n' || c = '\r' then
        match lineStart?, lineEnd? t.2 with
        | some lineStart, some n =>
          let (out, rest) := takeChars n t
          takeQuoted lineStart? quote fuel (out, rest.drop (lineStart rest))
        | _, _ => none
      else takeQuoted lineStart? quote fuel (takeChars 1 t)

def isBareValueChar (c : Char) : Bool :=
  !(c == '\'' || c == '"' || c == ' ' || c == '=' || c == '>' || c == '<' || c == '`' || c == '\n' || c == '\r')

def takeValue (lineStart? : Option (List Char → Nat)) (t : Taken) : Option Taken :=
  match t.2 with
  | [] => none
  | c :: rest =>
    if c = '"' || c = '\'' then takeQuoted lineStart? c (rest.length + 1) (takeChars 1 t)
    else if c = ' ' || c = '=' || c = '>' || c = '<' || c = '`' || c = '\n' || c = '\r' then none
    else some (takeChars (runLength isBareValueChar t.2) t)

/-- A character of the name of an attribute, after the first one. -/
def isAttributeNameChar (c : Char) : Bool :=
  c.isAlphanum || c == '_' || c == '.' || c == ':' || c == '-'

/-- Take an attribute: a name, and a value if an equals sign follows. -/
def takeAttribute (lineStart? : Option (List Char → Nat)) (t : Taken) : Option Taken :=
  match t.2 with
  | [] => none
  | c :: rest =>
    if c.isAlpha || c = '_' || c = ':' then
      let named := takeChars (1 + runLength isAttributeNameChar rest) t
      takeSpace lineStart? (t.2.length + 1) named >>= fun spaced =>
        match spaced.2 with
        | '=' :: _ =>
          takeSpace lineStart? (t.2.length + 1) (takeChars 1 spaced) >>= takeValue lineStart?
        | _ => some named
    else none

/-- Take attributes, each after white space, up to the end mark of a tag. -/
def takeAttributes (lineStart? : Option (List Char → Nat)) : Nat → Taken → Option Taken
  | 0, _ => none
  | fuel + 1, t =>
    takeSpace lineStart? (t.2.length + 1) t >>= fun spaced =>
      match spaced.2 with
      | [] => none
      | c :: _ =>
        if c = '/' || c = '>' then some spaced
        else if spaced.2.length = t.2.length then none
        else takeAttribute lineStart? spaced >>= takeAttributes lineStart? fuel

/-- Take a tag at the start of a text: what was taken, and the text after it. -/
def htmlTag? (lineStart? : Option (List Char → Nat)) (text : List Char) : Option Taken :=
  match text with
  | '<' :: rest =>
    let closing := rest.head? == some '/'
    let name := if closing then rest.drop 1 else rest
    let first := runLength Char.isAlpha name
    if first = 0 then none
    else
      let length := first + runLength (fun c => c.isAlphanum || c == '-') (name.drop first)
      let named := takeChars ((if closing then 2 else 1) + length) ([], text)
      let attributes := if closing then some named else takeAttributes lineStart? text.length named
      attributes >>= fun t =>
        let t := takeChars (runLength isInlineSpace t.2) t
        let t := if !closing && t.2.head? == some '/' then takeChars 1 t else t
        if t.2.head? == some '>' then
          let (out, rest) := takeChars 1 t
          some (out.reverse, rest)
        else none
  | _ => none

/-! ## HTML inside text -/

/-- The number of characters up to and with the first `pattern`. -/
def through? (pattern text : List Char) : Option Nat :=
  (Text.indexOf? pattern text).map (· + pattern.length)

/-- The length of a comment, declaration or section of character data, after `<!`. -/
def htmlDeclaration? (text : List Char) : Option Nat :=
  match text with
  | '-' :: '-' :: rest =>
    if ['>'].isPrefixOf rest then some 3
    else if ['-', '>'].isPrefixOf rest then some 4
    else (through? "-->".toList rest).map (2 + ·)
  | '[' :: _ =>
    if "[CDATA[".toList.isPrefixOf text then
      let content := text.drop 7
      let before := runLength (· != ']') content
      let brackets := runOf ']' (content.drop before)
      if brackets ≠ 0 && (content.drop (before + brackets)).head? == some '>' then
        some (7 + before + brackets + 1)
      else none
    else none
  | c :: _ => if c.isAlpha then through? ['>'] text else none
  | [] => none

/-- The HTML after `<` in a run of text: what it is, and its length with the `<`. -/
def inlineHtml? (lineStart : List Char → Nat) (text : List Char) : Option (List Char × Nat) :=
  match text with
  | '!' :: rest => (htmlDeclaration? rest).map fun n => ('<' :: text.take (n + 1), n + 2)
  | '?' :: rest => (through? "?>".toList rest).map fun n => ('<' :: text.take (n + 1), n + 2)
  | _ => (htmlTag? (some lineStart) ('<' :: text)).map fun (out, rest) => (out, text.length + 1 - rest.length)

end MacroDoc.Markdown
