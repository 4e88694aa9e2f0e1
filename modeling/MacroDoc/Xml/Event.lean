import MacroDoc.Xml.Attribute

/-!
# XML events

A text of XML is read as a sequence of events. Tags are matched with each other; attributes, and references in text,
are left as they stand.

* `Event` : a tag, text, or character data; anything else is an aside;
* `Fault` : why there are no more events;
* `Reading` : the events of a text, and the fault that ends them, if one does;
* `read` : the reading of a text.
-/

namespace MacroDoc.Xml

/-- The content of a tag: its name, up to the first blank, and what stands after that. -/
structure Tag where
  name : List Char
  rest : List Char
  deriving DecidableEq

def Tag.ofContent (content : List Char) : Tag :=
  ⟨content.takeWhile (!isBlank ·), content.dropWhile (!isBlank ·)⟩

def Tag.attributes (tag : Tag) : Except AttributeFault (List (String × String)) :=
  readAttributes (Text.byteLength tag.name) tag.rest

inductive Event where
  | opening (tag : Tag)
  | empty (tag : Tag)
  | closing (name : List Char)
  | text (raw : List Char)
  | data (content : List Char)
  | aside (content : List Char)
  deriving DecidableEq

/-- Why there are no more events. -/
inductive Fault where
  | mismatchedEnd (expected found : List Char)
  | unmatchedEnd (name : List Char)
  | unnamedDoctype
  | unclosedTag
  | unclosedComment
  | unclosedData
  | unclosedDoctype
  | unclosedInstruction
  | unknownMarkup
  deriving DecidableEq

def Fault.message : Fault → String
  | mismatchedEnd expected found =>
    "ill-formed document: expected `</" ++ String.ofList expected ++ ">`, but `</" ++ String.ofList found
      ++ ">` was found"
  | unmatchedEnd name =>
    "ill-formed document: close tag `</" ++ String.ofList name ++ ">` does not match any open tag"
  | unnamedDoctype =>
    "ill-formed document: `<!DOCTYPE>` declaration does not contain a name of a document type"
  | unclosedTag => "syntax error: tag not closed: `>` not found before end of input"
  | unclosedComment => "syntax error: comment not closed: `-->` not found before end of input"
  | unclosedData => "syntax error: CDATA not closed: `]]>` not found before end of input"
  | unclosedDoctype => "syntax error: DOCTYPE not closed: `>` not found before end of input"
  | unclosedInstruction =>
    "syntax error: processing instruction or xml declaration not closed: `?>` not found before end of input"
  | unknownMarkup => "syntax error: unknown or missed symbol in markup"

/-! ## Ends of markup -/

/-- The place of the `>` that ends a tag; one between quotes does not. -/
def tagEnd? (quote? : Option Char) : List Char → Option Nat
  | [] => none
  | c :: cs =>
    match quote? with
    | none =>
      if c = '>' then some 0
      else (tagEnd? (if c = '"' ∨ c = '\'' then some c else none) cs).map (· + 1)
    | some quote => (tagEnd? (if c = quote then none else quote?) cs).map (· + 1)

/-- The place of the `>` that ends a document type in which `depth` angle brackets are open. -/
def doctypeEnd? (depth : Nat) : List Char → Option Nat
  | [] => none
  | c :: cs =>
    if c = '<' then (doctypeEnd? (depth + 1) cs).map (· + 1)
    else if c = '>' then
      match depth with
      | 0 => some 0
      | depth + 1 => (doctypeEnd? depth cs).map (· + 1)
    else (doctypeEnd? depth cs).map (· + 1)

/-- The place of the `>` that ends the markup whose text begins right after its `<`. A comment has at least the
length of an empty one. -/
def markupEnd (text : List Char) : Except Fault Nat :=
  let required (fault : Fault) (place? : Option Nat) : Except Fault Nat :=
    match place? with
    | some place => .ok place
    | none => .error fault
  match text with
  | '!' :: '[' :: _ => required .unclosedData ((Text.indexOf? [']', ']', '>'] text).map (· + 2))
  | '!' :: '-' :: _ => required .unclosedComment ((Text.indexOf? ['-', '-', '>'] (text.drop 3)).map (· + 5))
  | '!' :: c :: _ =>
    if c = 'D' ∨ c = 'd' then required .unclosedDoctype (doctypeEnd? 0 text) else .error .unknownMarkup
  | ['!'] => .error .unknownMarkup
  | '?' :: _ => required .unclosedInstruction ((Text.indexOf? ['?', '>'] text).map (· + 1))
  | _ => required .unclosedTag (tagEnd? none text)

/-! ## Events of markup -/

/-- Whether a text begins with a word, in either case of letters. -/
def beginsWithWord (word text : List Char) : Bool :=
  word.isPrefixOf ((text.take word.length).map Char.toUpper)

def declarationEvent (content : List Char) : Except Fault Event :=
  match content with
  | '!' :: '[' :: _ =>
    match Text.dropStart? "![CDATA[".toList content with
    | some rest => .ok (.data (rest.take (rest.length - 2)))
    | none => .error .unclosedData
  | '!' :: '-' :: _ =>
    if "!--".toList.isPrefixOf content then .ok (.aside content) else .error .unclosedComment
  | _ =>
    if beginsWithWord "!DOCTYPE".toList content then
      if (content.drop 8).all isBlank then .error .unnamedDoctype else .ok (.aside content)
    else .error .unclosedDoctype

/-- A text without the blank characters at its end, unless it is all blank. -/
def trimName (name : List Char) : List Char :=
  if name.all isBlank then name else (name.reverse.dropWhile isBlank).reverse

/-- The event of markup, and the names of the tags that are open after it; `opened` are those open before it, the
innermost first. -/
def markupEvent (opened : List (List Char)) (content : List Char) : Except Fault (Event × List (List Char)) :=
  match content with
  | '!' :: _ => (declarationEvent content).map (·, opened)
  | '?' :: _ => if content.length < 2 then .error .unclosedInstruction else .ok (.aside content, opened)
  | '/' :: name =>
    let name := trimName name
    match opened with
    | [] => .error (.unmatchedEnd name)
    | expected :: outer => if name = expected then .ok (.closing name, outer) else .error (.mismatchedEnd expected name)
  | _ =>
    match Text.dropEnd? ['/'] content with
    | some content => .ok (.empty (.ofContent content), opened)
    | none =>
      let tag := Tag.ofContent content
      .ok (.opening tag, tag.name :: opened)

/-! ## Readings -/

/-- The events of a text in order, and the fault that ends them, if one does. -/
structure Reading where
  events : List Event
  fault? : Option Fault

def Reading.push (event : Event) (r : Reading) : Reading :=
  { r with events := event :: r.events }

def Reading.pushText (raw : List Char) (r : Reading) : Reading :=
  if raw.isEmpty then r else r.push (.text raw)

/-- Read a text inside the tags `opened`. -/
def readFrom (opened : List (List Char)) (text : List Char) : Reading :=
  let plain := text.takeWhile (· ≠ '<')
  match h : text.dropWhile (· ≠ '<') with
  | [] => Reading.pushText plain ⟨[], none⟩
  | _ :: markup =>
    Reading.pushText plain <|
      match markupEnd markup with
      | .error fault => ⟨[], some fault⟩
      | .ok place =>
        match markupEvent opened (markup.take place) with
        | .error fault => ⟨[], some fault⟩
        | .ok (event, opened) =>
          have : markup.length < text.length := by
            have := (List.dropWhile_suffix (l := text) (· ≠ '<')).length_le
            rw [h] at this
            simp at this
            omega
          (readFrom opened (markup.drop (place + 1))).push event
  termination_by text.length
  decreasing_by simp; omega

/-- Read a text. A byte order mark at its start is not part of it. -/
def read (text : List Char) : Reading :=
  readFrom [] ((Text.dropStart? ['\uFEFF'] text).getD text)

end MacroDoc.Xml
