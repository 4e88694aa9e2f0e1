import MacroDoc.Block.Words
import MacroDoc.Expansion.Registry
import MacroDoc.Source.Parse
import MacroDoc.Xml.Event

/-!
# The standard macros

* `code` : its content stands in the document as verbatim text, inline if the call is;
* `box` : its title and its content, read as markup, stand in a group;
* `xhtml` : elements and their attributes come from the XML of the content. Text between tags is read as markup, so a
  list in a cell is a list; character data stands as verbatim text, and asides leave no trace;
* `Registry.withStandard` : a registry with the three of them for all dialects.

Calls in the markup that `box` and `xhtml` read are expanded in the next pass.
-/

namespace MacroDoc

namespace Macros

/-! ## Verbatim text -/

def codeDescriptor : Descriptor where
  name := "Code"
  description := "Displays content verbatim"
  category := some "Formatting"
  supportsInline := true
  content := some ⟨"The code to display", true⟩
  parameters := [⟨"language", "Language of the code", false⟩]
  priority := Descriptor.defaultPriority

def expandCode (context : Context) : Except String (List Block) :=
  match context.call.content with
  | some content => .ok [.leaf (.verbatim content (context.placement = .inline))]
  | none => .error "no code given"

def code {σ : Type} : Expander σ :=
  .stateless codeDescriptor expandCode

/-! ## Boxes -/

/-- The messages of errors on one line. -/
def joinMessages (errors : List ParseError) : String :=
  ", ".intercalate (errors.map (·.message))

def boxDescriptor : Descriptor where
  name := "Box"
  description := "Draws a box around its content"
  category := some "Layout"
  supportsInline := false
  content := some ⟨"The content of the box", false⟩
  parameters := [⟨"title", "Box title", false⟩]
  priority := Descriptor.defaultPriority

def boxTitle (title : String) : Block :=
  .node .paragraph [.node (.format .bold) (words title.toList)]

def expandBox (context : Context) : Except String (List Block) :=
  let title := ((context.call.parameters.get? "title").map boxTitle).toList
  match context.call.content with
  | none => .ok [.node .group title]
  | some content =>
    match parseFragment context.dialect content with
    | .ok blocks => .ok [.node .group (title ++ blocks)]
    | .error errors => .error ("cannot parse box content: " ++ joinMessages errors)

def box {σ : Type} : Expander σ :=
  .stateless boxDescriptor expandBox

/-! ## XML -/

/-- Why XML yields no blocks. -/
inductive XhtmlFault where
  | xml (fault : Xml.Fault)
  | tag (fault : Xml.AttributeFault)
  | reference (fault : Xml.ReferenceFault)
  | unexpectedEnd (name : String)
  | unclosed (name : String)
  | markup (errors : List ParseError)

def XhtmlFault.message : XhtmlFault → String
  | xml fault => "invalid XHTML: " ++ fault.message
  | tag fault => "invalid XHTML: " ++ fault.message
  | reference fault => "invalid XHTML: " ++ fault.message
  | unexpectedEnd name => "invalid XHTML: unexpected closing tag </" ++ name ++ ">"
  | unclosed name => "invalid XHTML: element <" ++ name ++ "> is never closed"
  | markup errors => "cannot parse XHTML text: " ++ joinMessages errors

/-- An element whose end has not been read. -/
structure OpenElement where
  name : String
  attributes : List (String × String)
  children : List Block

def OpenElement.close (e : OpenElement) : Block :=
  .node (.element e.name e.attributes) e.children

def OpenElement.ofTag (tag : Xml.Tag) : Except XhtmlFault OpenElement :=
  match tag.attributes with
  | .ok attributes => .ok ⟨String.ofList tag.name, attributes, []⟩
  | .error fault => .error (.tag fault)

/-- Finished top-level blocks, and the open elements, the innermost first. -/
structure Elements where
  blocks : List Block
  opened : List OpenElement

namespace Elements

/-- Add blocks to the innermost open element, or at top level. -/
def append (e : Elements) (blocks : List Block) : Elements :=
  match e.opened with
  | [] => { e with blocks := e.blocks ++ blocks }
  | inner :: outer => { e with opened := { inner with children := inner.children ++ blocks } :: outer }

def textBlocks (dialect : Dialect) (raw : List Char) : Except XhtmlFault (List Block) :=
  match Xml.unescape raw with
  | .error fault => .error (.reference fault)
  | .ok text =>
    if Text.isBlankText text then .ok []
    else match parseFragment dialect (String.ofList text) with
      | .ok blocks => .ok blocks
      | .error errors => .error (.markup errors)

def event (dialect : Dialect) (e : Elements) : Xml.Event → Except XhtmlFault Elements
  | .opening tag => (OpenElement.ofTag tag).map fun element => { e with opened := element :: e.opened }
  | .empty tag => (OpenElement.ofTag tag).map fun element => e.append [element.close]
  | .closing name =>
    match e.opened with
    | element :: outer =>
      if element.name = String.ofList name then .ok ({ e with opened := outer }.append [element.close])
      else .error (.unexpectedEnd (String.ofList name))
    | [] => .error (.unexpectedEnd (String.ofList name))
  | .text raw => (textBlocks dialect raw).map e.append
  | .data content => .ok (e.append [.leaf (.verbatim (String.ofList content) false)])
  | .aside _ => .ok e

def events (dialect : Dialect) (e : Elements) (events : List Xml.Event) : Except XhtmlFault Elements :=
  events.foldlM (event dialect) e

end Elements

def blocksOfReading (dialect : Dialect) (reading : Xml.Reading) : Except XhtmlFault (List Block) :=
  match Elements.events dialect ⟨[], []⟩ reading.events with
  | .error fault => .error fault
  | .ok elements =>
    match reading.fault?, elements.opened with
    | some fault, _ => .error (.xml fault)
    | none, element :: _ => .error (.unclosed element.name)
    | none, [] => .ok elements.blocks

/-- The blocks of a text of XML. -/
def parseXhtml (dialect : Dialect) (source : String) : Except XhtmlFault (List Block) :=
  blocksOfReading dialect (Xml.read source.toList)

def xhtmlDescriptor : Descriptor where
  name := "XHTML"
  description := "Inserts XHTML content"
  category := some "Development"
  supportsInline := false
  content := some ⟨"The XHTML content", true⟩
  parameters := []
  priority := Descriptor.defaultPriority

def expandXhtml (context : Context) : Except String (List Block) :=
  match context.call.content with
  | none => .error "no XHTML given"
  | some content => (parseXhtml context.dialect content).mapError XhtmlFault.message

def xhtml {σ : Type} : Expander σ :=
  .stateless xhtmlDescriptor expandXhtml

end Macros

/-! ## Registration -/

/-- Register the standard macros for all dialects. -/
def Registry.withStandard {σ : Type} (r : Registry σ) : Registry σ :=
  r.registerForAll "code" Macros.code |>.registerForAll "box" Macros.box |>.registerForAll "xhtml" Macros.xhtml

end MacroDoc
