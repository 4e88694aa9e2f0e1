import Mathlib.Data.List.Perm.Subperm
import MacroDoc.Proofs.Source.Building
import MacroDoc.Source.Parse

/-!
# Invocations while a tree is built

The invocation of a call waits in the list of calls until a placeholder takes it. Then it is put into the tree, or it
is gone. So no sequence of events makes an invocation that was not waiting, or puts one into the tree twice, however
often its placeholder comes and wherever it stands.

* `waiting`, `Builder.placed`, `Builder.held` : the invocations that wait, that are in the tree, and both;
* `Builder.held_pushPart` : a part of a text moves an invocation into the tree;
* `Builder.held_event`, `Builder.held_read` : events lose invocations, and add none;
* `callsIn_buildBlocks` : what the tree of a source holds of its calls.
-/

namespace MacroDoc

open Markdown (Tag)

/-- The invocations of calls that have not been taken. -/
def waiting (calls : List CutCall) : List Invocation :=
  calls.filterMap (·.invocation)

theorem waiting_cons (call : CutCall) (calls : List CutCall) :
    waiting (call :: calls) = call.invocation.toList ++ waiting calls := by
  unfold waiting
  cases h : call.invocation <;> simp [h]

section Calls

variable {calls : List CutCall} {n : Nat}

theorem waiting_useCall {i : Invocation} (h : (calls[n]?).bind (·.invocation) = some i) :
    (i :: waiting (useCall calls n)).Perm (waiting calls) := by
  unfold useCall
  induction calls generalizing n with
  | nil => simp at h
  | cons call calls ih =>
    cases n with
    | zero =>
      have hcall : call.invocation = some i := by simpa using h
      rw [List.modify_zero_cons, waiting_cons, waiting_cons, hcall]
      simp
    | succ n =>
      rw [List.modify_succ_cons, waiting_cons, waiting_cons]
      refine List.perm_middle.symm.trans ?_
      exact (ih (by simpa using h)).append_left _

theorem waiting_useCall_sublist (calls : List CutCall) (n : Nat) :
    (waiting (useCall calls n)).Sublist (waiting calls) := by
  unfold useCall
  induction calls generalizing n with
  | nil => simp
  | cons call calls ih =>
    cases n with
    | zero =>
      rw [List.modify_zero_cons, waiting_cons, waiting_cons]
      exact List.sublist_append_right _ _
    | succ n =>
      rw [List.modify_succ_cons, waiting_cons, waiting_cons]
      exact (ih n).append_left _

theorem waiting_restorePart_sublist (calls : List CutCall) (part : TextPart) :
    (waiting (Builder.restorePart calls part).2).Sublist (waiting calls) := by
  cases part with
  | plain text => exact .refl _
  | stray => exact .refl _
  | call n => exact waiting_useCall_sublist calls n

theorem waiting_restoreParts_sublist (calls : List CutCall) (parts : List TextPart) :
    (waiting (Builder.restoreParts calls parts).2).Sublist (waiting calls) := by
  induction parts generalizing calls with
  | nil => exact .refl _
  | cons part parts ih => exact (ih _).trans (waiting_restorePart_sublist calls part)

end Calls

namespace Builder

/-- The invocations in the tree that is built: in finished blocks, and in open containers. -/
def placed (b : Builder) : List Invocation :=
  callsIn b.blocks ++ b.spine.flatMap fun frame => callsIn frame.2

/-- The invocations in the tree that is built, and those that wait. -/
def held (b : Builder) : List Invocation :=
  b.placed ++ waiting b.calls

/-! ## Parts of an event -/

section Parts

variable (b : Builder)

theorem placed_push (block : Block) : (b.push block).placed.Perm (callsIn [block] ++ b.placed) := by
  unfold push placed
  split
  · next hspine =>
    dsimp only
    rw [hspine, callsIn_cons, List.append_assoc]
  · next c children rest hspine =>
    dsimp only
    rw [hspine, List.flatMap_cons, List.flatMap_cons, callsIn_cons, List.append_assoc]
    exact List.perm_append_comm_assoc _ _ _

theorem held_push (block : Block) : (b.push block).held.Perm (callsIn [block] ++ b.held) := by
  unfold held
  rw [calls_push, ← List.append_assoc]
  exact (b.placed_push block).append_right _

theorem held_push_of_none {block : Block} (h : callsIn [block] = []) : (b.push block).held.Perm b.held := by
  have hpush := b.held_push block
  rwa [h, List.nil_append] at hpush

theorem held_pushAll {blocks : List Block} (h : callsIn blocks = []) : (b.pushAll blocks).held.Perm b.held := by
  unfold pushAll
  induction blocks generalizing b with
  | nil => exact .refl _
  | cons block blocks ih =>
    rw [callsIn_cons, List.append_eq_nil_iff] at h
    rw [List.foldl_cons]
    exact (ih _ h.2).trans (b.held_push_of_none h.1)

theorem held_close : b.close.held.Perm b.held := by
  unfold close
  split
  · exact .refl _
  · next c children rest hspine =>
    -- The children go into one block of the container outside, in the order of the source.
    refine (held_push _ _).trans ?_
    rw [callsIn_node]
    unfold held placed
    rw [hspine, List.flatMap_cons, ← List.append_assoc]
    refine List.Perm.append_right _ ?_
    exact ((callsIn_reverse children).append_right _).trans (List.perm_append_comm_assoc _ _ _)

theorem held_repeat_close (n : Nat) : (Nat.repeat close n b).held.Perm b.held := by
  induction n with
  | zero => exact .refl _
  | succ n ih =>
    rw [Nat.repeat]
    exact (held_close _).trans ih

theorem held_openContainer (c : Container) : (b.openContainer c).held = b.held := by
  unfold held placed openContainer
  rw [List.flatMap_cons, callsIn_nil, List.nil_append]

theorem held_pushPart (part : TextPart) : (b.pushPart part).held.Perm b.held := by
  unfold pushPart
  split
  · next text => exact b.held_pushAll (callsIn_words text)
  · exact b.held_push_of_none (callsIn_leaf _)
  · next n =>
    -- A number without a call, or whose call was taken before, changes nothing.
    split
    · next i hi =>
      refine (held_push _ _).trans ?_
      rw [callsIn_leaf]
      show (i :: (b.placed ++ waiting (useCall b.calls n))).Perm (b.placed ++ waiting b.calls)
      exact List.perm_middle.symm.trans ((waiting_useCall hi).append_left _)
    · exact .refl _

theorem held_foldl_pushPart (parts : List TextPart) : (parts.foldl pushPart b).held.Perm b.held := by
  induction parts generalizing b with
  | nil => exact .refl _
  | cons part parts ih =>
    rw [List.foldl_cons]
    exact (ih _).trans (b.held_pushPart part)

theorem held_flush : b.flush.held.Perm b.held := by
  unfold flush
  split
  · exact held_foldl_pushPart _ _
  · exact .refl _

/-- Text that is put back loses the invocations in it. -/
theorem held_restore (text : List Char) : (b.restore text).2.held.Sublist b.held :=
  (waiting_restoreParts_sublist b.calls _).append_left _

end Parts

/-! ## Events -/

section Events

variable (b : Builder)

theorem held_enter (tag : Tag) : (b.enter tag).held.Subperm b.held := by
  cases tag with
  | link destination =>
    unfold enter
    rw [held_openContainer]
    exact (b.held_restore destination).subperm
  | codeBlock => exact .refl _
  | _ =>
    unfold enter
    rw [held_openContainer]

theorem held_codeEvent (code : List Char) (e : Markdown.Event) : (b.codeEvent code e).held.Subperm b.held := by
  unfold codeEvent
  split
  · next text => exact (b.held_restore text).subperm
  · exact (held_push_of_none _ (callsIn_leaf _)).subperm
  · exact .refl _

theorem held_plainEvent (e : Markdown.Event) : (b.plainEvent e).held.Subperm b.held := by
  unfold plainEvent
  split
  · next tag => exact b.held_enter tag
  · exact .refl _
  · exact b.held_close.subperm
  · next text => exact (held_push_of_none _ (callsIn_leaf _)).subperm.trans (b.held_restore text).subperm
  · exact (b.held_foldl_pushPart _).subperm
  · exact (b.held_push_of_none (callsIn_leaf _)).subperm
  · exact (b.held_push_of_none (callsIn_leaf _)).subperm
  · exact .refl _
  · exact .refl _

/-- An event loses invocations, and adds none. -/
theorem held_event (e : Markdown.Event) : (b.event e).held.Subperm b.held := by
  unfold event
  split
  · next code hcode => exact b.held_codeEvent code e
  -- Text is put off: its placeholders are looked at when the next event flushes it.
  split
  · exact .refl _
  · exact (held_plainEvent _ _).trans b.held_flush.subperm

/-- No sequence of events adds an invocation. -/
theorem held_read (events : List Markdown.Event) : (b.read events).held.Subperm b.held := by
  have hevents : (events.foldl event b).held.Subperm b.held := by
    induction events generalizing b with
    | nil => exact .refl _
    | cons e events ih => exact (ih _).trans (b.held_event e)
  unfold read closeAll
  exact (held_repeat_close _ _).subperm.trans ((held_flush _).subperm.trans hevents)

end Events

end Builder

/-! ## Segments -/

def Segment.invocation? : Segment → Option Invocation
  | markup _ => none
  | call i => some i

/-- A segment adds the invocation that it is. -/
theorem Builder.held_segment (events : List Char → List Markdown.Event) (b : Builder) (segment : Segment) :
    (b.segment events segment).held.Subperm (segment.invocation?.toList ++ b.held) := by
  cases segment with
  | markup text => exact b.held_read (events text)
  | call i =>
    unfold Builder.segment held placed
    dsimp only
    rw [callsIn_cons, callsIn_leaf, List.append_assoc, List.append_assoc, List.append_assoc]
    exact .refl _

theorem Builder.held_foldl_segment (events : List Char → List Markdown.Event) (b : Builder) (segments : List Segment) :
    (segments.foldl (Builder.segment events) b).held.Subperm (segments.filterMap Segment.invocation? ++ b.held) := by
  induction segments generalizing b with
  | nil => exact .refl _
  | cons segment segments ih =>
    have hhead : (segment :: segments).filterMap Segment.invocation?
        = segment.invocation?.toList ++ segments.filterMap Segment.invocation? := by
      cases h : segment.invocation? <;> simp [h]
    rw [List.foldl_cons, hhead, List.append_assoc]
    refine (ih _).trans ?_
    refine ((List.subperm_append_left _).2 (b.held_segment events segment)).trans ?_
    exact (List.perm_append_comm_assoc _ _ _).subperm

/-- The invocations in the blocks of a source are standalone calls and inline calls, each of them at most once,
whatever the events of its Markdown are. -/
theorem callsIn_buildBlocks (events : List Char → List Markdown.Event) (dialect : Dialect) (pieces : List Piece) :
    (callsIn (buildBlocks events dialect pieces)).Subperm
      ((segments dialect pieces).filterMap Segment.invocation? ++ waiting (cutCalls dialect pieces)) := by
  unfold buildBlocks
  refine (callsIn_reverse _).subperm.trans ?_
  refine .trans ?_ (Builder.held_foldl_segment events ⟨[], [], cutCalls dialect pieces, none, none⟩ _)
  unfold Builder.held Builder.placed
  rw [List.append_assoc]
  exact (List.sublist_append_left _ _).subperm

end MacroDoc
