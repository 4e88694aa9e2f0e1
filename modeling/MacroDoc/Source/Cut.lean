import MacroDoc.Call.Reader

/-!
# Cutting calls out of a source

A source is cut into consecutive pieces before its Markdown is read. A call that has its lines to itself is a
standalone piece, any other call is an inline piece, and all else is copied. Fenced code and code between backticks
on one line are copied whole.

* `Piece`, `Piece.source` : a piece and the text it was cut from;
* `cutStep` : the pieces at the start of what is left;
* `cut` : all pieces of a source.
-/

namespace MacroDoc

/-- A piece of a source. A standalone call comes with the white space before it and the rest of its last line. A
faulty piece is a line, or the rest of one, in which a call begins and is not completed. -/
inductive Piece where
  | copied (text : List Char)
  | inlineCall (call : Call) (text : List Char)
  | standalone (before : List Char) (call : Call) (text after : List Char)
  | faulty (before : List Char) (error : CallError) (text : List Char)
  deriving DecidableEq

def Piece.source : Piece → List Char
  | copied text => text
  | inlineCall _ text => text
  | standalone before _ text after => before ++ text ++ after
  | faulty before _ text => before ++ text

/-- Whether a line, without the white space before it, opens or closes fenced code. -/
def isFenceLine (line : List Char) : Bool :=
  ['`', '`', '`'].isPrefixOf line || ['~', '~', '~'].isPrefixOf line

/-- The place of the first run of exactly `n` backticks. `run` backticks stand right before the text. -/
def backtickRun? (n run : Nat) : List Char → Option Nat
  | [] => if run = n then some 0 else none
  | c :: cs =>
    if c = '`' then (backtickRun? n (run + 1) cs).map (· + 1)
    else if run = n then some 0
    else (backtickRun? n 0 cs).map (· + 1)

/-- What is cut off in one step, and whether a line starts after it. -/
structure CutStep where
  pieces : List Piece
  lineStart : Bool

/-- The pieces up to and with the first brace or backtick of a line, at the start of `rest`. -/
def cutInline (rest : List Char) : CutStep :=
  let line := rest.take (Text.lineLength rest)
  let plain := line.takeWhile fun c => c != '{' && c != '`'
  let here := rest.drop plain.length
  let left := line.drop plain.length
  let after (piece : Piece) (lineStart : Bool) : CutStep :=
    ⟨if plain.isEmpty then [piece] else [.copied plain, piece], lineStart⟩
  match left with
  | [] => ⟨[.copied line], true⟩
  | '`' :: _ =>
    let run := (left.takeWhile (· == '`')).length
    let length := match backtickRun? run 0 (left.drop run) with
      | some n => run + n
      | none => run
    after (.copied (left.take length)) false
  | '{' :: '{' :: _ =>
    match readCall here with
    | .ok (some r) => after (.inlineCall r.call (here.take r.length)) false
    | .ok none => after (.copied ['{', '{']) false
    | .error e => after (.faulty [] e left) true
  | c :: _ => after (.copied [c]) false

/-- The pieces at the start of a line outside of fenced code. -/
def cutLine (rest : List Char) : CutStep :=
  let line := rest.take (Text.lineLength rest)
  let before := line.takeWhile Text.isBlank
  let here := rest.drop before.length
  if !Call.openMark.isPrefixOf (line.drop before.length) then cutInline rest
  else
    match readCall here with
    | .ok (some r) =>
      let tail := here.drop r.length
      let after := tail.take (Text.lineLength tail)
      if Text.isBlankText after then ⟨[.standalone before r.call (here.take r.length) after], true⟩
      else cutInline rest
    | .ok none => cutInline rest
    | .error e => ⟨[.faulty before e (line.drop before.length)], true⟩

/-- The pieces at the start of `rest`, which is not empty, and whether fenced code is open after them. -/
def cutStep (lineStart inFence : Bool) (rest : List Char) : CutStep × Bool :=
  if lineStart then
    let line := rest.take (Text.lineLength rest)
    let fence := isFenceLine (Text.trimStart line)
    let inFence := inFence != fence
    if inFence || fence then (⟨[.copied line], true⟩, inFence) else (cutLine rest, false)
  else (cutInline rest, inFence)

def cutFrom (lineStart inFence : Bool) (rest : List Char) : List Piece :=
  match rest with
  | [] => []
  | c :: cs =>
    let (step, inFence) := cutStep lineStart inFence (c :: cs)
    let length := (step.pieces.flatMap Piece.source).length
    step.pieces ++ cutFrom step.lineStart inFence (cs.drop (length - 1))
  termination_by rest.length
  decreasing_by simp only [List.length_cons, List.length_drop]; omega

def cut (source : List Char) : List Piece :=
  cutFrom true false source

end MacroDoc
