import Mathlib.Data.List.Pairwise
import MacroDoc.Proofs.Forest.Visit
import MacroDoc.Proofs.Source.Held
import MacroDoc.Proofs.Source.Segments

/-!
# Invocations of a document

Every invocation in a document that was read from a source is a call of that source, and no two of them share a
byte. The reader of Markdown is free in this: it may repeat a placeholder, drop it, or put it into code or into the
destination of a link.

* `callsFrom` : the calls of pieces in the order of the source;
* `Invocation.IsReadIn` : an invocation that is read at its span of a source;
* `Invocation.Precedes`, `Invocation.Apart` : spans that do not overlap;
* `parseDocumentBy_invocations` : the invocations of a document, for any reader of Markdown.
-/

namespace MacroDoc

/-! ## Calls in the order of the source -/

/-- The invocation of the call that a piece is, if it is one; the piece stands at byte `place`. -/
def Piece.invocation? (dialect : Dialect) (place : Nat) : Piece → Option Invocation
  | inlineCall call text => some (invocationAt dialect place call text)
  | standalone blanks call text _ => some (invocationAt dialect (place + Text.byteLength blanks) call text)
  | _ => none

/-- The invocations of pieces in the order of the source; the first piece stands at byte `place`. -/
def callsFrom (dialect : Dialect) (place : Nat) : List Piece → List Invocation
  | [] => []
  | piece :: rest =>
    (piece.invocation? dialect place).toList ++ callsFrom dialect (place + Text.byteLength piece.source) rest

theorem filterMap_markupSegment (text : List Char) : (markupSegment text).filterMap Segment.invocation? = [] := by
  unfold markupSegment
  split <;> rfl

/-- Standalone calls are segments and inline calls wait; together they are the calls of the source. -/
theorem perm_callsFrom (dialect : Dialect) (place number : Nat) (text : List Char) (pieces : List Piece) :
    ((segmentsFrom dialect place number text pieces).filterMap Segment.invocation?
      ++ waiting (cutCallsFrom dialect place pieces)).Perm (callsFrom dialect place pieces) := by
  induction pieces generalizing place number text with
  | nil =>
    unfold segmentsFrom
    rw [filterMap_markupSegment]
    exact .refl _
  | cons piece pieces ih =>
    unfold segmentsFrom cutCallsFrom callsFrom
    cases piece with
    | copied copied => exact ih _ _ _
    | faulty blanks error text => exact ih _ _ _
    | inlineCall call text =>
      dsimp only
      rw [waiting_cons]
      exact List.perm_middle.trans ((ih _ _ _).cons _)
    | standalone blanks call text tail =>
      dsimp only
      rw [List.filterMap_append, filterMap_markupSegment]
      exact (ih _ _ _).cons _

/-! ## Calls and their spans -/

/-- The invocation is a call of the source: its span is that of a text in the source, and the call is what is read
where this text starts, with the length of the text. -/
def Invocation.IsReadIn (i : Invocation) (dialect : Dialect) (source : List Char) : Prop :=
  i.dialect = dialect ∧ ∃ before text after, source = before ++ (text ++ after) ∧ i.span = some (spanAt before text)
    ∧ readCall (text ++ after) = .ok (some ⟨i.call, text.length⟩)

/-- The span of one invocation ends before that of another starts. -/
def Invocation.Precedes (i j : Invocation) : Prop :=
  ∃ r s, i.span = some r ∧ j.span = some s ∧ r.stop ≤ s.start

def Invocation.Apart (i j : Invocation) : Prop :=
  i.Precedes j ∨ j.Precedes i

theorem Invocation.Apart.symm {i j : Invocation} (h : i.Apart j) : j.Apart i :=
  Or.symm h

section Spans

variable {dialect : Dialect} {place : Nat} {piece : Piece} {pieces : List Piece} {i : Invocation}
  {before after : List Char}

theorem Piece.Fits.isReadIn (hfit : piece.Fits before after)
    (hi : piece.invocation? dialect (Text.byteLength before) = some i) :
    i.IsReadIn dialect (before ++ (piece.source ++ after)) := by
  cases piece with
  | copied text => cases hi
  | faulty blanks error text => cases hi
  | inlineCall call text =>
    cases hi
    exact ⟨rfl, before, text, after, rfl, rfl, hfit.1⟩
  | standalone blanks call text tail =>
    cases hi
    refine ⟨rfl, before ++ blanks, text, tail ++ after, ?_, ?_, hfit.1⟩
    · simp [Piece.source]
    · rw [← Text.byteLength_append]
      rfl

theorem isReadIn_of_mem_callsFrom (hfit : PiecesFit before pieces after)
    (hi : i ∈ callsFrom dialect (Text.byteLength before) pieces) :
    i.IsReadIn dialect (before ++ (sourceOf pieces ++ after)) := by
  induction pieces generalizing before with
  | nil => cases hi
  | cons piece pieces ih =>
    unfold callsFrom at hi
    rw [sourceOf_cons, List.append_assoc]
    rcases List.mem_append.1 hi with hi | hi
    · exact hfit.1.isReadIn (Option.mem_toList.1 hi)
    · rw [← Text.byteLength_append] at hi
      have hrest := ih hfit.2 hi
      rwa [List.append_assoc] at hrest

theorem exists_span_of_invocation? (hi : piece.invocation? dialect place = some i) :
    ∃ r, i.span = some r ∧ place ≤ r.start ∧ r.stop ≤ place + Text.byteLength piece.source := by
  cases piece with
  | copied text => cases hi
  | faulty blanks error text => cases hi
  | inlineCall call text =>
    cases hi
    exact ⟨_, rfl, Nat.le_refl _, Nat.le_refl _⟩
  | standalone blanks call text tail =>
    cases hi
    refine ⟨_, rfl, Nat.le_add_right _ _, ?_⟩
    dsimp only [Piece.source]
    rw [Text.byteLength_append, Text.byteLength_append]
    omega

theorem exists_span_of_mem_callsFrom (hi : i ∈ callsFrom dialect place pieces) :
    ∃ r, i.span = some r ∧ place ≤ r.start := by
  induction pieces generalizing place with
  | nil => cases hi
  | cons piece pieces ih =>
    unfold callsFrom at hi
    rcases List.mem_append.1 hi with hi | hi
    · obtain ⟨r, hr, hstart, -⟩ := exists_span_of_invocation? (Option.mem_toList.1 hi)
      exact ⟨r, hr, hstart⟩
    · obtain ⟨r, hr, hstart⟩ := ih hi
      exact ⟨r, hr, by omega⟩

theorem pairwise_callsFrom (dialect : Dialect) (place : Nat) (pieces : List Piece) :
    (callsFrom dialect place pieces).Pairwise Invocation.Precedes := by
  induction pieces generalizing place with
  | nil => exact .nil
  | cons piece pieces ih =>
    unfold callsFrom
    refine List.pairwise_append.2 ⟨?_, ih _, ?_⟩
    · cases piece.invocation? dialect place with
      | none => exact .nil
      | some i => exact List.pairwise_singleton _ _
    · intro i hi j hj
      obtain ⟨r, hr, -, hstop⟩ := exists_span_of_invocation? (Option.mem_toList.1 hi)
      obtain ⟨s, hs, hstart⟩ := exists_span_of_mem_callsFrom hj
      exact ⟨r, s, hr, hs, Nat.le_trans hstop hstart⟩

end Spans

/-! ## Documents -/

section Document

variable {events : List Char → List Markdown.Event} {dialect : Dialect} {fileId : Nat} {source : String} {d : Document}

/-- The invocations of a document are calls of its source, each at most once. -/
theorem subperm_of_parseDocumentBy (h : parseDocumentBy events dialect fileId source = .ok d) :
    (d.invocations.map (·.invocation)).Subperm (callsFrom dialect 0 (cut source.toList)) := by
  have hblocks : d.blocks = buildBlocks events dialect (cut source.toList) := by
    unfold parseDocumentBy parseBlocksBy at h
    dsimp only at h
    split at h
    · cases h
      rfl
    · cases h
  unfold Document.invocations
  rw [map_invocation_invocationsIn, hblocks]
  exact (callsIn_buildBlocks events dialect _).trans (perm_callsFrom dialect 0 0 [] _).subperm

/-- Every invocation of a document is a call of the source, in the dialect of the reader, and the invocations at two
different places have spans that do not overlap. -/
theorem parseDocumentBy_invocations (h : parseDocumentBy events dialect fileId source = .ok d) :
    (∀ path i, d.get? path = some (.leaf (.invocation i)) → i.IsReadIn dialect source.toList)
      ∧ ∀ p q i j, d.get? p = some (.leaf (.invocation i)) → d.get? q = some (.leaf (.invocation j)) → p ≠ q →
        i.Apart j := by
  have hsub := subperm_of_parseDocumentBy h
  constructor
  · intro path i hi
    have hmem : i ∈ d.invocations.map (·.invocation) :=
      List.mem_map.2 ⟨_, Document.mem_invocations_of_get? hi, rfl⟩
    have hfit := piecesFit_cut source.toList
    have hread := isReadIn_of_mem_callsFrom hfit (hsub.subset hmem)
    rwa [sourceOf_cut, List.append_nil] at hread
  · intro p q i j hi hj hpq
    -- What is taken from the calls of a source in any order is apart, as those are in order.
    obtain ⟨calls, hperm, hcalls⟩ := hsub
    have hapart : calls.Pairwise Invocation.Apart :=
      ((pairwise_callsFrom dialect 0 _).imp fun hlt => Or.inl hlt).sublist hcalls
    have hplaced := List.pairwise_map.1 ((hperm.pairwise_iff Invocation.Apart.symm).1 hapart)
    have : Std.Symm fun a b : PlacedInvocation => a.invocation.Apart b.invocation := ⟨fun _ _ => Invocation.Apart.symm⟩
    apply hplaced.forall (Document.mem_invocations_of_get? hi) (Document.mem_invocations_of_get? hj)
    intro heq
    exact hpq (congrArg PlacedInvocation.path heq)

end Document

/-- Two calls whose placeholders come three times, the last time in code. -/
theorem parseDocumentBy_invocations_repeated :
    let events := fun text : List Char => [.text text, .lineBreak, .text text, .code text]
    let source := "\x7b\x7ba/\x7d\x7d-\x7b\x7bb/\x7d\x7d"
    let a : Invocation := ⟨⟨"a", .empty, none⟩, .default, some ⟨0, 6⟩⟩
    let b : Invocation := ⟨⟨"b", .empty, none⟩, .default, some ⟨7, 13⟩⟩
    let d : Document := ⟨[.leaf (.invocation a), .leaf (.symbol '-'), .leaf (.invocation b), .leaf .newLine,
      .leaf (.symbol '-'), .leaf (.verbatim source true)], 0⟩
    parseDocumentBy events .default 0 source = .ok d
      ∧ d.get? ⟨[0]⟩ = some (.leaf (.invocation a)) ∧ a.IsReadIn .default source.toList
      ∧ d.get? ⟨[2]⟩ = some (.leaf (.invocation b)) ∧ b.IsReadIn .default source.toList ∧ a.Apart b := by
  intro events source a b d
  have h : parseDocumentBy events .default 0 source = .ok d := by decide +kernel
  obtain ⟨hread, hapart⟩ := parseDocumentBy_invocations h
  exact ⟨h, rfl, hread ⟨[0]⟩ a rfl, rfl, hread ⟨[2]⟩ b rfl, hapart ⟨[0]⟩ ⟨[2]⟩ a b rfl rfl (by decide)⟩

end MacroDoc
