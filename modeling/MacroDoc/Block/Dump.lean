import MacroDoc.Document
import MacroDoc.Text.Printable

/-!
# Dumps of documents

A dump shows every part of a document, one value to a row, with each value indented under the one that it is part of.

* `Layout` : a value that fits one row, or a group of values between brackets;
* `Layout.render` : the rows of a value;
* `Block.layout`, `Document.dump` : the parts of a block, and the dump of a document.
-/

namespace MacroDoc

/-! ## Layouts -/

/-- A value of a dump: one row, or labelled values between an opening and a closing. -/
inductive Layout where
  | atom (text : String)
  | group (opening closing : String) (items : List (String × Layout))
  deriving Inhabited

namespace Layout

/-- Columns by which a value is indented under the one that it is part of. -/
def step : Nat := 4

mutual

/-- The rows of a value that stands at an indentation. A group of nothing fits one row. -/
def render (indent : Nat) : Layout → String
  | atom text => text
  | group opening closing [] => opening ++ closing
  | group opening closing (item :: items) =>
    opening ++ "\n" ++ renderItems (indent + step) (item :: items) ++ "".pushn ' ' indent ++ closing

/-- The rows of values at an indentation, each with a comma after it. -/
def renderItems (indent : Nat) : List (String × Layout) → String
  | [] => ""
  | (label, item) :: items =>
    "".pushn ' ' indent ++ label ++ item.render indent ++ ",\n" ++ renderItems indent items

end

def list (items : List Layout) : Layout :=
  group "[" "]" (items.map ("", ·))

def tuple (name : String) (items : List Layout) : Layout :=
  group (name ++ "(") ")" (items.map ("", ·))

def record (name : String) (fields : List (String × Layout)) : Layout :=
  group (name ++ " \x7b") "\x7d" (fields.map fun (field, value) => (field ++ ": ", value))

def string (text : String) : Layout :=
  atom (Text.stringLiteral text)

def boolean (truth : Bool) : Layout :=
  atom (if truth then "true" else "false")

def number (n : Nat) : Layout :=
  atom (toString n)

def option : Option Layout → Layout
  | some value => tuple "Some" [value]
  | none => atom "None"

end Layout

/-! ## Documents -/

def Call.layout (c : Call) : Layout :=
  let parameter (p : String × String) := (Text.stringLiteral p.1 ++ ": ", .string p.2)
  .record "MacroCall"
    [("identifier", .string c.identifier), ("parameters", .group "\x7b" "\x7d" (c.parameters.entries.map parameter)),
      ("raw_content", .option (c.content.map .string))]

def Dialect.layout (d : Dialect) : Layout :=
  .record "Syntax" [("syntax_type", .string d.kind), ("version", .string d.version)]

def Span.layout (s : Span) : Layout :=
  .atom (toString s.start ++ ".." ++ toString s.stop)

def Invocation.layout (i : Invocation) : Layout :=
  .record "MacroInvocation"
    [("call", i.call.layout), ("syntax", i.dialect.layout), ("span", .option (i.span.map Span.layout))]

def Format.title : Format → String
  | bold => "Bold"
  | italic => "Italic"
  | strikethrough => "Strikethrough"
  | monospace => "Monospace"

def Leaf.layout : Leaf → Layout
  | horizontalLine => .atom "HorizontalLine"
  | word text => .tuple "Word" [.string text]
  | space => .atom "Space"
  | symbol c => .tuple "SpecialSymbol" [.atom (Text.charLiteral c)]
  | newLine => .atom "NewLine"
  | verbatim content isInline => .record "Verbatim" [("content", .string content), ("inline", .boolean isInline)]
  | error message description =>
    .record "Error" [("message", .string message), ("description", .option (description.map .string))]
  | invocation i => .tuple "MacroInvocation" [i.layout]
  | reference call => .tuple "MacroReference" [call.layout]

/-- The dump of a container, from the dumps of its children. -/
def Container.layout (c : Container) (parts : List Layout) : Layout :=
  let children := ("children", .list parts)
  match c with
  | paragraph => .tuple "Paragraph" [.list parts]
  | heading level => .record "Heading" [("level", .number level), children]
  | quotation => .tuple "Quotation" [.list parts]
  | .list ordered => .record "List" [("ordered", .boolean ordered), ("items", .list parts)]
  | listItem => .tuple "ListItem" [.list parts]
  | group => .tuple "Group" [.list parts]
  | element name attributes =>
    let pair (p : String × String) := .tuple "" [.string p.1, .string p.2]
    .record "XmlElement" [("name", .string name), ("attributes", .list (attributes.map pair)), children]
  | format f => .record "Format" [("format", .atom f.title), children]
  | link reference => .record "Link" [("reference", .string reference), children]
  | marker call => .tuple "MacroMarker" [.record "MacroMarker" [("call", call.layout), children]]

mutual

def Block.layout : Block → Layout
  | .leaf l => l.layout
  | .node c children => c.layout (layoutEach children)

def layoutEach : List Block → List Layout
  | [] => []
  | block :: blocks => block.layout :: layoutEach blocks

end

def Document.dump (d : Document) : String :=
  (Layout.record "XDom" [("blocks", .list (layoutEach d.blocks)), ("source_id", .number d.sourceId)]).render 0

end MacroDoc
