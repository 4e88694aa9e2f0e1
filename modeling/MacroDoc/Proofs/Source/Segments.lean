import MacroDoc.Proofs.Source.Pieces
import MacroDoc.Source.Parse

/-!
# Segments of a source

A source without errors is accounted for piece by piece: the standalone calls and the Markdown between them are its
segments, and the inline calls are numbered in order.

* `inlineCount` : the number of inline calls of pieces;
* `markupOf` : the Markdown of pieces, with a placeholder for each inline call;
* `SegmentsOf` : the segments of pieces, one for each standalone call and for each run of others;
* `AccountedFor` : what is known of the pieces of a source;
* `cut_accounts` : all of that holds of every source without errors.
-/

namespace MacroDoc

open Call (openMark closeMark closingTag)

/-! ## Runs of pieces -/

def Piece.inlineCount : Piece → Nat
  | inlineCall _ _ => 1
  | _ => 0

def inlineCount : List Piece → Nat
  | [] => 0
  | piece :: pieces => piece.inlineCount + inlineCount pieces

/-- A piece that is no standalone call. -/
def Piece.IsRunning : Piece → Prop
  | standalone _ _ _ _ => False
  | _ => True

/-- The Markdown of pieces between standalone calls: the text that is copied, and for each inline call the placeholder
of its number. The first of them has the number `number`. -/
def markupOf (number : Nat) : List Piece → List Char
  | [] => []
  | .copied text :: rest => text ++ markupOf number rest
  | .inlineCall _ _ :: rest => placeholder number ++ markupOf (number + 1) rest
  | _ :: rest => markupOf number rest

/-- The bytes of `text`, with `before` in front of it. -/
def spanAt (before text : List Char) : Span :=
  ⟨Text.byteLength before, Text.byteLength before + Text.byteLength text⟩

/-- The segments of pieces that stand after `before`: for each standalone call the Markdown of the run of other pieces
in front of it, if there is any, and the call; then the Markdown of the last run. Inline calls are numbered from the
start of the source, and the span of a call is that of its text. -/
inductive SegmentsOf (dialect : Dialect) : List Piece → List Piece → List Segment → Prop
  | last {before run : List Piece} (hrun : ∀ piece ∈ run, piece.IsRunning) :
    SegmentsOf dialect before run (markupSegment (markupOf (inlineCount before) run))
  | call {before run rest : List Piece} {blanks text tail : List Char} {call : Call} {segments : List Segment}
    (hrun : ∀ piece ∈ run, piece.IsRunning)
    (h : SegmentsOf dialect (before ++ run ++ [.standalone blanks call text tail]) rest segments) :
    SegmentsOf dialect before (run ++ .standalone blanks call text tail :: rest)
      (markupSegment (markupOf (inlineCount before) run)
        ++ .call ⟨call, dialect, some (spanAt (sourceOf (before ++ run) ++ blanks) text)⟩ :: segments)

@[simp] theorem inlineCount_nil : inlineCount [] = 0 := rfl

@[simp] theorem inlineCount_cons (piece : Piece) (pieces : List Piece) :
    inlineCount (piece :: pieces) = piece.inlineCount + inlineCount pieces := rfl

@[simp] theorem inlineCount_append (a b : List Piece) : inlineCount (a ++ b) = inlineCount a + inlineCount b := by
  induction a with
  | nil => simp
  | cons piece a ih => simp [ih, Nat.add_assoc]

theorem markupOf_append (number : Nat) (a b : List Piece) :
    markupOf number (a ++ b) = markupOf number a ++ markupOf (number + inlineCount a) b := by
  induction a generalizing number with
  | nil => rfl
  | cons piece a ih => cases piece <;> simp [markupOf, ih, Piece.inlineCount, Nat.add_assoc]

theorem invocationAt_eq (dialect : Dialect) (before : List Char) (call : Call) (text : List Char) :
    invocationAt dialect (Text.byteLength before) call text = ⟨call, dialect, some (spanAt before text)⟩ :=
  rfl

theorem byteLength_sourceOf_concat (pieces : List Piece) (piece : Piece) :
    Text.byteLength (sourceOf (pieces ++ [piece]))
      = Text.byteLength (sourceOf pieces) + Text.byteLength piece.source := by
  simp [Text.byteLength_append]

theorem segmentsOf_segmentsFrom (dialect : Dialect) (before run pieces : List Piece)
    (hrun : ∀ piece ∈ run, piece.IsRunning) :
    SegmentsOf dialect before (run ++ pieces)
      (segmentsFrom dialect (Text.byteLength (sourceOf (before ++ run))) (inlineCount (before ++ run))
        (markupOf (inlineCount before) run) pieces) := by
  induction pieces generalizing before run with
  | nil =>
    rw [List.append_nil]
    exact .last hrun
  | cons piece pieces ih =>
    -- A piece that is no standalone call goes on the run.
    have hnext (h : piece.IsRunning) := ih before (run ++ [piece]) fun other hother => by
      rcases List.mem_append.1 hother with hother | hother
      · exact hrun other hother
      · exact List.mem_singleton.1 hother ▸ h
    rw [List.append_assoc, ← List.append_assoc before, byteLength_sourceOf_concat, markupOf_append,
      ← inlineCount_append] at hnext
    cases piece with
    | copied text => simpa [segmentsFrom, markupOf, Piece.inlineCount] using hnext trivial
    | inlineCall call text => simpa [segmentsFrom, markupOf, Piece.inlineCount, Nat.add_assoc] using hnext trivial
    | faulty blanks error text => simpa [segmentsFrom, markupOf, Piece.inlineCount] using hnext trivial
    | standalone blanks call text tail =>
      have hrest := ih (before ++ run ++ [.standalone blanks call text tail]) [] nofun
      rw [List.append_nil, byteLength_sourceOf_concat, inlineCount_append _ [_]] at hrest
      rw [segmentsFrom, ← Text.byteLength_append, invocationAt_eq]
      exact .call hrun hrest

theorem segmentsOf_segments (dialect : Dialect) (pieces : List Piece) :
    SegmentsOf dialect [] pieces (segments dialect pieces) :=
  segmentsOf_segmentsFrom dialect [] [] pieces nofun

/-! ## Inline calls -/

theorem length_cutCallsFrom (dialect : Dialect) (place : Nat) (pieces : List Piece) :
    (cutCallsFrom dialect place pieces).length = inlineCount pieces := by
  induction pieces generalizing place with
  | nil => rfl
  | cons piece pieces ih => cases piece <;> simp [cutCallsFrom, ih, Piece.inlineCount, Nat.add_comm]

/-- What is collected from each piece at its place is collected from the parts of a list. -/
theorem collect_append {α : Type} (collect : Nat → List Piece → List α) (hnil : ∀ place, collect place [] = [])
    (hcons : ∀ place piece pieces, collect place (piece :: pieces)
      = collect place [piece] ++ collect (place + Text.byteLength piece.source) pieces)
    (place : Nat) (a b : List Piece) :
    collect place (a ++ b) = collect place a ++ collect (place + Text.byteLength (sourceOf a)) b := by
  induction a generalizing place with
  | nil => simp [hnil, Text.byteLength]
  | cons piece a ih =>
    rw [List.cons_append, hcons, ih, hcons place piece a, sourceOf_cons, Text.byteLength_append, Nat.add_assoc,
      List.append_assoc]

theorem cutCallsFrom_append (dialect : Dialect) (place : Nat) (a b : List Piece) :
    cutCallsFrom dialect place (a ++ b)
      = cutCallsFrom dialect place a ++ cutCallsFrom dialect (place + Text.byteLength (sourceOf a)) b :=
  collect_append (cutCallsFrom dialect) (fun _ => rfl) (fun _ piece _ => by cases piece <;> rfl) place a b

/-- An inline call stands at its number in the list of inline calls. -/
theorem getElem?_cutCalls {dialect : Dialect} {pieces before later : List Piece} {call : Call} {text : List Char}
    (h : pieces = before ++ .inlineCall call text :: later) :
    (cutCalls dialect pieces)[inlineCount before]?
      = some ⟨some ⟨call, dialect, some (spanAt (sourceOf before) text)⟩, text⟩ := by
  rw [h, cutCalls, cutCallsFrom_append, List.getElem?_append_right (Nat.le_of_eq (length_cutCallsFrom ..)),
    length_cutCallsFrom, Nat.sub_self, Nat.zero_add]
  rfl

/-! ## Sources without errors -/

theorem sourceErrorsFrom_eq_nil {fileId place : Nat} {pieces : List Piece}
    (h : sourceErrorsFrom fileId place pieces = []) (blanks : List Char) (error : CallError) (text : List Char) :
    .faulty blanks error text ∉ pieces := by
  induction pieces generalizing place with
  | nil => exact List.not_mem_nil
  | cons piece pieces ih =>
    cases piece with
    | faulty => cases h
    | copied | inlineCall | standalone =>
      have := ih h
      simpa using this

/-- What is known of the pieces of a source: they make it up, none is faulty, and each fits its place; the standalone
calls and the Markdown between them are the segments; and every inline call is in the list of inline calls, at its
number, with its own bytes. -/
structure AccountedFor (dialect : Dialect) (source : List Char) : Prop where
  covers : sourceOf (cut source) = source
  complete : ∀ blanks error text, .faulty blanks error text ∉ cut source
  fits : ∀ before piece later, cut source = before ++ piece :: later →
    piece.Fits (sourceOf before) (sourceOf later)
  segments : SegmentsOf dialect [] (cut source) (segments dialect (cut source))
  numbers : (cutCalls dialect (cut source)).length = inlineCount (cut source)
  inlineCall : ∀ before call text later, cut source = before ++ .inlineCall call text :: later →
    (cutCalls dialect (cut source))[inlineCount before]?
      = some ⟨some ⟨call, dialect, some (spanAt (sourceOf before) text)⟩, text⟩

/-- Cutting a source without errors loses and invents nothing. -/
theorem cut_accounts (dialect : Dialect) (fileId : Nat) (source : List Char)
    (h : sourceErrors fileId (cut source) = []) : AccountedFor dialect source where
  covers := sourceOf_cut source
  complete := sourceErrorsFrom_eq_nil h
  fits _ _ _ := fits_of_mem_cut
  segments := segmentsOf_segments dialect (cut source)
  numbers := length_cutCallsFrom dialect 0 (cut source)
  inlineCall _ _ _ _ := getElem?_cutCalls

/-- Code that is not looked at, two calls on one line, and a call over two lines that has them to itself. -/
theorem cut_accounts_lines :
    let source := "`\x7b\x7bx` \x7b\x7ba/\x7d\x7d\x7b\x7bb/\x7d\x7d\n \x7b\x7bc\x7d\x7d\ny\x7b\x7b/c\x7d\x7d \n".toList
    let a : Call := ⟨"a", .empty, none⟩
    let b : Call := ⟨"b", .empty, none⟩
    let c : Call := ⟨"c", .empty, some "y"⟩
    sourceErrors 0 (cut source) = [] ∧ AccountedFor .default source
      ∧ cut source = [.copied "`\x7b\x7bx`".toList, .copied " ".toList, .inlineCall a "\x7b\x7ba/\x7d\x7d".toList,
        .inlineCall b "\x7b\x7bb/\x7d\x7d".toList, .copied "\n".toList,
        .standalone " ".toList c "\x7b\x7bc\x7d\x7d\ny\x7b\x7b/c\x7d\x7d".toList " \n".toList] := by
  intro source a b c
  have herrors : sourceErrors 0 (cut source) = [] := List.eq_nil_of_length_eq_zero (by decide +kernel)
  exact ⟨herrors, cut_accounts .default 0 source herrors, by decide +kernel⟩

end MacroDoc
