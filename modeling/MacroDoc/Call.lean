import MacroDoc.Parameters

/-!
# Macro calls

A call is what an author writes: an identifier, parameters, and content if it has an opening and a closing tag.

* `Call.describe` : the one-line listing `[id] [k=v, ...] [content]`;
* `Call.written` : the markup of the call. A quote or backslash in a value has a backslash before it, the content
  stands as it is.
-/

namespace MacroDoc

/-- The source of a macro call. -/
structure Call where
  identifier : String
  parameters : Parameters
  content : Option String
  deriving DecidableEq, Inhabited

namespace Call

def openMark : List Char := ['{', '{']

def closeMark : List Char := ['}', '}']

def selfCloseMark : List Char := ['/', '}', '}']

def closingTag (identifier : List Char) : List Char :=
  openMark ++ '/' :: identifier ++ closeMark

/-- One line that names the call, its parameters and its content. -/
def describe (c : Call) : String :=
  let parameters := c.parameters.entries.map fun (name, value) => name ++ "=" ++ value
  "[" ++ c.identifier ++ "] [" ++ ", ".intercalate parameters ++ "] [" ++ c.content.getD "null" ++ "]"

/-- A value as it stands between quotes. -/
def quoteValue (value : List Char) : List Char :=
  value.flatMap fun c => if c = '\\' ∨ c = '"' then ['\\', c] else [c]

/-- One parameter as it stands in a tag, with the space before it. -/
def writtenParameter (name value : List Char) : List Char :=
  ' ' :: name ++ '=' :: '"' :: quoteValue value ++ ['"']

/-- The opening tag up to its end mark. -/
def writtenHead (c : Call) : List Char :=
  openMark ++ c.identifier.toList
    ++ c.parameters.entries.flatMap fun (name, value) => writtenParameter name.toList value.toList

def written (c : Call) : List Char :=
  match c.content with
  | some content => c.writtenHead ++ closeMark ++ content.toList ++ closingTag c.identifier.toList
  | none => c.writtenHead ++ selfCloseMark

end Call

end MacroDoc
