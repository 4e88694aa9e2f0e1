import MacroDoc.Call
import MacroDoc.ParseError
import MacroDoc.Text.Alphanumeric
import MacroDoc.Text.Scan

/-!
# Reading macro calls

A call begins with an opening tag: an identifier and parameters between double braces. A tag that ends with a slash
stands alone; any other tag has a closing tag, and what stands between them is the content. Inside the content, tags
of the same macro nest.

* `readOpenTag` : the tag at the start of a text;
* `scanClose` : the place of the closing tag;
* `readCall` : the call at the start of a text;
* `CallFault.message`, `CallFault.notes` : what is said about a text that begins a call and is none.

A value is written between quotes, where a backslash takes the next character as it is, or bare, where it ends
before a blank character, a closing brace, or the mark of a self-closing tag.
-/

namespace MacroDoc

open Call (openMark closeMark selfCloseMark closingTag)

/-- A character of macro identifiers and parameter names. -/
def isIdentifierChar (c : Char) : Bool :=
  Text.isAlphanumeric c || c == '_' || c == '-' || c == '.' || c == ':'

/-- What can be wrong with a text that begins a call. -/
inductive CallFault where
  | unterminatedCall (identifier : String)
  | unexpectedCharacter (char : Char)
  | missingEquals (parameter : String)
  | unterminatedValue (parameter : String)
  | neverClosed (identifier : String)
  deriving DecidableEq

def CallFault.message : CallFault → String
  | unterminatedCall identifier => "unterminated macro call '" ++ identifier ++ "'"
  | unexpectedCharacter c => "unexpected character '" ++ String.singleton c ++ "' in macro parameters"
  | missingEquals parameter => "expected '=' after parameter '" ++ parameter ++ "'"
  | unterminatedValue parameter => "unterminated value for parameter '" ++ parameter ++ "'"
  | neverClosed identifier => "macro '" ++ identifier ++ "' is never closed"

/-- How it can be mended. -/
def CallFault.notes : CallFault → List String
  | unterminatedCall _ => ["macro calls end with '\x7d\x7d' or '/\x7d\x7d'"]
  | neverClosed identifier =>
    ["close it with \x7b\x7b/" ++ identifier ++ "\x7d\x7d or write \x7b\x7b" ++ identifier ++ "/\x7d\x7d"]
  | _ => []

/-- A fault with the range of bytes it is about, from the start of the text. -/
structure CallError where
  fault : CallFault
  span : Span
  deriving DecidableEq

/-- The error as one of a numbered source, in which the text begins at `offset`. -/
def CallError.inSource (e : CallError) (fileId offset : Nat) : ParseError :=
  ⟨e.fault.message, ⟨e.span.start + offset, e.span.stop + offset⟩, fileId, e.fault.notes⟩

/-- An opening tag: how many characters it has, and whether it closes itself. -/
structure OpenTag where
  identifier : String
  parameters : Parameters
  selfClosing : Bool
  length : Nat
  deriving DecidableEq

/-! ## Values -/

/-- Read the rest of a quoted value: the value, and the text after its closing quote. -/
def readQuoted : List Char → Option (List Char × List Char)
  | [] => none
  | ['\\'] => none
  | '\\' :: c :: rest => (readQuoted rest).map fun (value, after) => (c :: value, after)
  | c :: rest =>
    if c = '"' then some ([], rest) else (readQuoted rest).map fun (value, after) => (c :: value, after)

def readBare : List Char → List Char × List Char
  | [] => ([], [])
  | c :: rest =>
    if Text.isBlank c || c == '}' || selfCloseMark.isPrefixOf (c :: rest) then ([], c :: rest)
    else
      let (value, after) := readBare rest
      (c :: value, after)

def readValue (text : List Char) : Option (List Char × List Char) :=
  match text with
  | '"' :: quoted => readQuoted quoted
  | _ => some (readBare text)

theorem length_of_readQuoted {text value after : List Char} (h : readQuoted text = some (value, after)) :
    after.length ≤ text.length := by
  fun_induction readQuoted text generalizing value with
  | case1 | case2 => simp at h
  | case3 c rest ih =>
    obtain ⟨⟨v, a⟩, hv, he⟩ := Option.map_eq_some_iff.1 h
    have := @ih v (by simp_all)
    simp only [List.length_cons]; omega
  | case4 rest => simp_all
  | case5 c rest _ _ _ ih =>
    obtain ⟨⟨v, a⟩, hv, he⟩ := Option.map_eq_some_iff.1 h
    have := @ih v (by simp_all)
    simp only [List.length_cons]; omega

theorem length_readBare (text : List Char) : (readBare text).2.length ≤ text.length := by
  fun_induction readBare text with
  | case1 => simp
  | case2 c rest => simp
  | case3 c rest _ value after h ih => rw [h] at ih; simp only [List.length_cons]; simp at ih; omega

theorem length_of_readValue {text value after : List Char} (h : readValue text = some (value, after)) :
    after.length ≤ text.length := by
  unfold readValue at h
  split at h
  · have := length_of_readQuoted h
    simp only [List.length_cons]; omega
  · have := length_readBare text
    simp_all

/-! ## Tags -/

theorem length_after_parameter {rest value v after : List Char}
    (hname : (Text.trimStart rest).dropWhile isIdentifierChar = '=' :: value)
    (hvalue : readValue value = some (v, after)) : after.length < rest.length := by
  have h1 := length_of_readValue hvalue
  have h2 := (List.dropWhile_sublist (p := isIdentifierChar) (l := Text.trimStart rest)).length_le
  have h3 := (List.dropWhile_sublist (p := Text.isBlank) (l := rest)).length_le
  rw [hname, List.length_cons, Text.trimStart] at h2
  omega

/-- Read the parameters and the end of the tag that `text` begins with; `rest` is what is left of it. -/
def readParameters (text : List Char) (identifier : String) (parameters : Parameters) (rest : List Char) :
    Except CallError OpenTag :=
  let here := Text.trimStart rest
  let place (after : List Char) : Nat := Text.byteLength text - Text.byteLength after
  if selfCloseMark.isPrefixOf here then
    .ok ⟨identifier, parameters, true, text.length - here.length + selfCloseMark.length⟩
  else if closeMark.isPrefixOf here then
    .ok ⟨identifier, parameters, false, text.length - here.length + closeMark.length⟩
  else match here with
    | [] => .error ⟨.unterminatedCall identifier, ⟨0, Text.byteLength text⟩⟩
    | c :: _ =>
      let key := here.takeWhile isIdentifierChar
      if key.isEmpty then .error ⟨.unexpectedCharacter c, ⟨place here, place here + c.utf8Size⟩⟩
      else match hafter : here.dropWhile isIdentifierChar with
        | '=' :: value =>
          match hvalue : readValue value with
          | none => .error ⟨.unterminatedValue (String.ofList key), ⟨place value, Text.byteLength text⟩⟩
          | some (v, after) =>
            have := length_after_parameter hafter hvalue
            readParameters text identifier (parameters.insert (String.ofList key) (String.ofList v)) after
        | after => .error ⟨.missingEquals (String.ofList key), ⟨place here, place after⟩⟩
  termination_by rest.length

/-- Read the opening tag at the start of a text, if one begins there. -/
def readOpenTag (text : List Char) : Except CallError (Option OpenTag) :=
  match Text.dropStart? openMark text with
  | none => .ok none
  | some rest =>
    let identifier := rest.takeWhile isIdentifierChar
    if identifier.isEmpty then .ok none
    else (readParameters text (String.ofList identifier) .empty (rest.dropWhile isIdentifierChar)).map some

/-! ## Content -/

/-- The opening tag of the macro `identifier` at the start of a text, if a well-formed one stands there. -/
def nestedTag? (identifier : String) (text : List Char) : Option OpenTag :=
  match readOpenTag text with
  | .ok (some tag) => if tag.identifier = identifier then some tag else none
  | _ => none

/-- The place of the closing tag of the macro `identifier`. Of the tags read so far, `depth` are still to be closed
first. The next `whole` characters belong to a tag. The next `inside` characters belong to a self-closing tag: no
opening tag is looked for there, but a closing tag counts. -/
def scanClose (identifier : String) (depth whole inside : Nat) : List Char → Option Nat
  | [] => none
  | c :: cs =>
    match whole with
    | whole + 1 => (scanClose identifier depth whole inside cs).map (· + 1)
    | 0 =>
      let closing := closingTag identifier.toList
      if closing.isPrefixOf (c :: cs) then
        match depth with
        | 0 => some 0
        | depth + 1 => (scanClose identifier depth (closing.length - 1) 0 cs).map (· + 1)
      else match inside with
        | inside + 1 => (scanClose identifier depth 0 inside cs).map (· + 1)
        | 0 =>
          match nestedTag? identifier (c :: cs) with
          | some tag =>
            if tag.selfClosing then (scanClose identifier depth 0 (tag.length - 1) cs).map (· + 1)
            else (scanClose identifier (depth + 1) (tag.length - 1) 0 cs).map (· + 1)
          | none => (scanClose identifier depth 0 0 cs).map (· + 1)

/-- Drop one line end from each end, so that content may stand on lines of its own. -/
def trimContent (content : List Char) : List Char :=
  let content := ((Text.dropStart? ['\r', '\n'] content).or (Text.dropStart? ['\n'] content)).getD content
  ((Text.dropEnd? ['\r', '\n'] content).or (Text.dropEnd? ['\n'] content)).getD content

/-- A call with the number of characters that it takes up. -/
structure ReadCall where
  call : Call
  length : Nat
  deriving DecidableEq

/-- Read the call at the start of a text. There is none if no opening tag begins there; a text that begins a call
and does not complete it is an error. -/
def readCall (text : List Char) : Except CallError (Option ReadCall) :=
  readOpenTag text >>= fun
    | none => .ok none
    | some tag =>
      if tag.selfClosing then .ok (some ⟨⟨tag.identifier, tag.parameters, none⟩, tag.length⟩)
      else
        match scanClose tag.identifier 0 0 0 (text.drop tag.length) with
        | none => .error ⟨.neverClosed tag.identifier, ⟨0, Text.byteLength (text.take tag.length)⟩⟩
        | some n =>
          let content := trimContent ((text.drop tag.length).take n)
          .ok (some ⟨⟨tag.identifier, tag.parameters, some (String.ofList content)⟩,
            tag.length + n + (closingTag tag.identifier.toList).length⟩)

end MacroDoc
