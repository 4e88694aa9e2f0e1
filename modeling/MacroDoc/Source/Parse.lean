import MacroDoc.Document
import MacroDoc.Markdown.Reader
import MacroDoc.Source.Builder
import MacroDoc.Source.Cut

/-!
# Reading documents

A source is cut into pieces; the Markdown between two standalone calls is read with a placeholder for each inline
call; and the blocks of all of it make up the document. Any call that is not completed makes the whole source an
error.

* `segments`, `cutCalls` : standalone calls and the Markdown between them, and the inline calls;
* `sourceErrors` : the errors of the pieces;
* `parseBlocksBy`, `parseDocumentBy` : the blocks of a source, and its document, with any reader of Markdown;
* `parseBlocks`, `parseDocument` : the same with the reader of this library.
-/

namespace MacroDoc

/-- A standalone call, or the Markdown between two of them. -/
inductive Segment where
  | markup (text : List Char)
  | call (invocation : Invocation)

/-- The invocation of a call that was read at byte `place` of a source. -/
def invocationAt (dialect : Dialect) (place : Nat) (call : Call) (text : List Char) : Invocation :=
  ⟨call, dialect, some ⟨place, place + Text.byteLength text⟩⟩

def markupSegment (text : List Char) : List Segment :=
  if text.isEmpty then [] else [.markup text]

/-- The segments of pieces, of which the first stands at byte `place`; `text` is the Markdown right before them, and
`number` the number of the next inline call. -/
def segmentsFrom (dialect : Dialect) (place number : Nat) (text : List Char) : List Piece → List Segment
  | [] => markupSegment text
  | piece :: rest =>
    let next := place + Text.byteLength piece.source
    match piece with
    | .copied copied => segmentsFrom dialect next number (text ++ copied) rest
    | .inlineCall _ _ => segmentsFrom dialect next (number + 1) (text ++ placeholder number) rest
    | .standalone before call written _ =>
      markupSegment text
        ++ .call (invocationAt dialect (place + Text.byteLength before) call written)
          :: segmentsFrom dialect next number [] rest
    | .faulty _ _ _ => segmentsFrom dialect next number text rest

def segments (dialect : Dialect) (pieces : List Piece) : List Segment :=
  segmentsFrom dialect 0 0 [] pieces

/-- The inline calls of pieces, of which the first stands at byte `place`. -/
def cutCallsFrom (dialect : Dialect) (place : Nat) : List Piece → List CutCall
  | [] => []
  | piece :: rest =>
    let others := cutCallsFrom dialect (place + Text.byteLength piece.source) rest
    match piece with
    | .inlineCall call text => ⟨some (invocationAt dialect place call text), text⟩ :: others
    | _ => others

def cutCalls (dialect : Dialect) (pieces : List Piece) : List CutCall :=
  cutCallsFrom dialect 0 pieces

def sourceErrorsFrom (fileId place : Nat) : List Piece → List ParseError
  | [] => []
  | piece :: rest =>
    let others := sourceErrorsFrom fileId (place + Text.byteLength piece.source) rest
    match piece with
    | .faulty before error _ => error.inSource fileId (place + Text.byteLength before) :: others
    | _ => others

def sourceErrors (fileId : Nat) (pieces : List Piece) : List ParseError :=
  sourceErrorsFrom fileId 0 pieces

/-- Add a segment to the blocks of a source, with its Markdown read by `events`. -/
def Builder.segment (events : List Char → List Markdown.Event) (b : Builder) : Segment → Builder
  | .markup text => b.read (events text)
  | .call invocation => { b with blocks := .leaf (.invocation invocation) :: b.blocks }

/-- The blocks of pieces without errors, with their Markdown read by `events`. -/
def buildBlocks (events : List Char → List Markdown.Event) (dialect : Dialect) (pieces : List Piece) : List Block :=
  let start : Builder := ⟨[], [], cutCalls dialect pieces, none, none⟩
  ((segments dialect pieces).foldl (Builder.segment events) start).blocks.reverse

/-- Read the blocks of a source, with its Markdown read by `events`. -/
def parseBlocksBy (events : List Char → List Markdown.Event) (dialect : Dialect) (fileId : Nat) (source : String) :
    Except (List ParseError) (List Block) :=
  let pieces := cut source.toList
  match sourceErrors fileId pieces with
  | [] => .ok (buildBlocks events dialect pieces)
  | errors => .error errors

def parseBlocks (dialect : Dialect) (fileId : Nat) (source : String) : Except (List ParseError) (List Block) :=
  parseBlocksBy Markdown.events dialect fileId source

/-- Read the document of a source, with its Markdown read by `events`. -/
def parseDocumentBy (events : List Char → List Markdown.Event) (dialect : Dialect) (fileId : Nat) (source : String) :
    Except (List ParseError) Document :=
  (parseBlocksBy events dialect fileId source).map (⟨·, fileId⟩)

def parseDocument (dialect : Dialect) (fileId : Nat) (source : String) : Except (List ParseError) Document :=
  parseDocumentBy Markdown.events dialect fileId source

/-- Read the blocks of a text that is no source of its own, such as the content of a call. -/
def parseFragment (dialect : Dialect) (source : String) : Except (List ParseError) (List Block) :=
  parseBlocks dialect 0 source

end MacroDoc
