import MacroDoc.Block
import MacroDoc.Text.Scan

/-!
# Event streams

The event stream of a forest has two events around the children of a container and one event for a leaf. A listing
has one line per event, such as `beginMacroMarker: [toc] [] [null]`.

* `traverse` : the stream of a forest;
* `Leaf.describe`, `Container.describe` : the name and the arguments of an event;
* `Output`, `writeAll` : what text is written to, and the writing of pieces until one is refused;
* `EventWriter` : a writer of a listing, which writes nothing more once a line has failed;
* `Sink`, `writeEvents` : a listing written into a sink of bounded size;
* `eventListing` : the whole listing.
-/

namespace MacroDoc

/-- A step of a traversal. -/
inductive Event where
  | opening (block : Block)
  | closing (block : Block)
  | single (block : Block)

mutual

def traverseBlock : Block → List Event
  | .leaf l => [.single (.leaf l)]
  | .node c children => .opening (.node c children) :: traverse children ++ [.closing (.node c children)]

def traverse : List Block → List Event
  | [] => []
  | block :: blocks => traverseBlock block ++ traverse blocks

end

def Format.name : Format → String
  | .bold => "BOLD"
  | .italic => "ITALIC"
  | .strikethrough => "STRIKEDOUT"
  | .monospace => "MONOSPACE"

/-- The name and the arguments of a leaf in a listing. A reference reads like the call it stands for. -/
def Leaf.describe : Leaf → String
  | horizontalLine => "HorizontalLine"
  | word text => "Word: [" ++ text ++ "]"
  | space => "Space"
  | symbol c => "SpecialSymbol: [" ++ String.singleton c ++ "]"
  | newLine => "NewLine"
  | verbatim content isInline =>
    (if isInline then "VerbatimInline: [" else "VerbatimStandalone: [") ++ content ++ "]"
  | error message _ => "Error: [" ++ message ++ "]"
  | invocation i => "Macro: " ++ i.call.describe
  | reference call => "Macro: " ++ call.describe

def Container.describe : Container → String
  | paragraph => "Paragraph"
  | heading level => "Header: [" ++ toString level ++ "]"
  | quotation => "Quotation"
  | list ordered => "List: [" ++ (if ordered then "NUMBERED" else "BULLETED") ++ "]"
  | listItem => "ListItem"
  | group => "Group"
  | element name attributes =>
    let pairs := attributes.map fun (key, value) => key ++ "=" ++ value
    "XMLElement: [" ++ name ++ "] [" ++ ", ".intercalate pairs ++ "]"
  | format f => "Format: [" ++ f.name ++ "]"
  | link reference => "Link: [" ++ reference ++ "]"
  | marker call => "MacroMarker: " ++ call.describe

def Block.describe : Block → String
  | leaf l => l.describe
  | node c _ => c.describe

/-- The pieces that the line of an event is written in. -/
def Event.pieces : Event → List String
  | opening b => ["begin", b.describe, "\n"]
  | closing b => ["end", b.describe, "\n"]
  | single b => ["on", b.describe, "\n"]

/-- What text is written to. A piece is accepted or refused. -/
class Output (W : Type) where
  write : W → String → W × Bool

instance : Output String where
  write text piece := (text ++ piece, true)

/-- A place to write to that has room for a number of bytes. -/
structure Sink where
  held : String
  room : Nat
  deriving DecidableEq

/-- A sink accepts a piece if all of it fits. -/
instance : Output Sink where
  write s piece :=
    if piece.utf8ByteSize ≤ s.room then (⟨s.held ++ piece, s.room - piece.utf8ByteSize⟩, true) else (s, false)

/-- Write pieces in order until one is refused: the output then, and whether all were accepted. -/
def writeAll {W : Type} [Output W] (out : W) : List String → W × Bool
  | [] => (out, true)
  | piece :: rest =>
    match Output.write out piece with
    | (out, true) => writeAll out rest
    | (out, false) => (out, false)

/-- A writer of a listing: its output, and whether every line so far was accepted. -/
structure EventWriter (W : Type) where
  out : W
  ok : Bool

namespace EventWriter

variable {W : Type}

def start (out : W) : EventWriter W :=
  ⟨out, true⟩

/-- Write the line of an event, if every line so far was accepted. -/
def event [Output W] (w : EventWriter W) (e : Event) : EventWriter W :=
  if w.ok then
    let (out, ok) := writeAll w.out e.pieces
    ⟨out, ok⟩
  else w

/-- Write the events of a forest. The traversal does not know of failures, and always comes to its end. -/
def feed [Output W] (w : EventWriter W) (blocks : List Block) : EventWriter W :=
  (traverse blocks).foldl event w

def finish? (w : EventWriter W) : Option W :=
  if w.ok then some w.out else none

end EventWriter

/-- Write the listing of a forest into a sink: the sink then, and whether all of the listing was accepted. -/
def writeEvents (blocks : List Block) (s : Sink) : Sink × Bool :=
  let w := (EventWriter.start s).feed blocks
  (w.out, w.ok)

/-- The listing of a forest, a line per event. -/
def eventListing (blocks : List Block) : String :=
  ((EventWriter.start "").feed blocks).finish?.getD ""

end MacroDoc
