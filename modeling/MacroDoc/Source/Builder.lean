import MacroDoc.Block.Words
import MacroDoc.Markdown.Event
import MacroDoc.Source.Placeholder

/-!
# Building trees from Markdown events

Blocks are collected in the innermost open container. Consecutive pieces of text are joined before they are split
into words. A placeholder in text becomes the invocation it stands for; in code and in destinations of links, where
nothing is expanded, the text of its call is put back.

* `Builder` : what is known between two events;
* `Builder.event` : take in one event;
* `Builder.read` : take in a sequence of events, which need not be well nested.
-/

namespace MacroDoc

open Markdown (Tag)

/-- The state of building: the open containers, innermost first, each with its children in reverse; the finished
blocks in reverse; the calls that placeholders stand for; text that is still to be split; and the text of an open
block of code. -/
structure Builder where
  spine : List (Container × List Block)
  blocks : List Block
  calls : List CutCall
  pending : Option (List Char)
  code : Option (List Char)

namespace Builder

def push (b : Builder) (block : Block) : Builder :=
  match b.spine with
  | [] => { b with blocks := block :: b.blocks }
  | (c, children) :: rest => { b with spine := (c, block :: children) :: rest }

def pushAll (b : Builder) (blocks : List Block) : Builder :=
  blocks.foldl push b

def close (b : Builder) : Builder :=
  match b.spine with
  | [] => b
  | (c, children) :: rest => push { b with spine := rest } (.node c children.reverse)

def closeAll (b : Builder) : Builder :=
  Nat.repeat close b.spine.length b

/-- Add a part of a text: its words, or the invocation of a call that has not been used yet. -/
def pushPart (b : Builder) : TextPart → Builder
  | .plain text => b.pushAll (words text)
  | .stray => b.push (.leaf (.word (String.singleton placeholderStart)))
  | .call n =>
    match (b.calls[n]?).bind (·.invocation) with
    | some invocation => push { b with calls := useCall b.calls n } (.leaf (.invocation invocation))
    | none => b

def pushText (b : Builder) (text : List Char) : Builder :=
  (textParts text).foldl pushPart b

def flush (b : Builder) : Builder :=
  match b.pending with
  | some text => pushText { b with pending := none } text
  | none => b

/-- The text of a part as it was written, and the calls afterwards. -/
def restorePart (calls : List CutCall) : TextPart → List Char × List CutCall
  | .plain text => (text, calls)
  | .stray => ([placeholderStart], calls)
  | .call n => (((calls[n]?).map (·.text)).getD [], useCall calls n)

def restoreParts (calls : List CutCall) : List TextPart → List Char × List CutCall
  | [] => ([], calls)
  | part :: rest =>
    let (text, calls) := restorePart calls part
    let (after, calls) := restoreParts calls rest
    (text ++ after, calls)

/-- A text with the calls in it as they were written; their invocations are used up. -/
def restore (b : Builder) (text : List Char) : List Char × Builder :=
  let (text, calls) := restoreParts b.calls (textParts text)
  (text, { b with calls })

def openContainer (b : Builder) (c : Container) : Builder :=
  { b with spine := (c, []) :: b.spine }

def enter (b : Builder) : Tag → Builder
  | .paragraph => b.openContainer .paragraph
  | .heading level => b.openContainer (.heading level)
  | .quotation => b.openContainer .quotation
  | .list ordered => b.openContainer (.list ordered)
  | .item => b.openContainer .listItem
  | .emphasis => b.openContainer (.format .italic)
  | .strong => b.openContainer (.format .bold)
  | .strikethrough => b.openContainer (.format .strikethrough)
  | .link destination =>
    let (reference, b) := b.restore destination
    b.openContainer (.link (String.ofList reference))
  | .codeBlock => { b with code := some [] }
  | .htmlBlock => b.openContainer .group

/-- Take in an event while a block of code is open; only text and the end of the block count. -/
def codeEvent (b : Builder) (code : List Char) : Markdown.Event → Builder
  | .text text =>
    let (text, b) := b.restore text
    { b with code := some (code ++ text) }
  | .leave .codeBlock =>
    let content := String.ofList (Text.dropTrailing '\n' code)
    push { b with code := none } (.leaf (.verbatim content false))
  | _ => b

/-- Take in an event other than text outside of blocks of code. -/
def plainEvent (b : Builder) : Markdown.Event → Builder
  | .enter tag => b.enter tag
  | .leave .codeBlock => b
  | .leave _ => b.close
  | .code text =>
    let (text, b) := b.restore text
    b.push (.leaf (.verbatim (String.ofList text) true))
  | .html text => b.pushText text
  | .lineBreak => b.push (.leaf .newLine)
  | .rule => b.push (.leaf .horizontalLine)
  | .text _ | .other => b

def event (b : Builder) (e : Markdown.Event) : Builder :=
  match b.code with
  | some code => b.codeEvent code e
  | none =>
    match e with
    | .text text => { b with pending := some (b.pending.getD [] ++ text) }
    | e => b.flush.plainEvent e

/-- Take in a sequence of events, and close what it leaves open. -/
def read (b : Builder) (events : List Markdown.Event) : Builder :=
  (events.foldl event b).flush.closeAll

end Builder

end MacroDoc
