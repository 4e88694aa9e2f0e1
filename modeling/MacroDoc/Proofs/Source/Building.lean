import MacroDoc.Proofs.Forest.Outline
import MacroDoc.Source.Builder

/-!
# Outlines while a tree is built

Whatever the events are, a builder goes forward only: each operation adds marks at the end of the outline of the tree
that is built, and takes none back. Which leaves a text adds depends on the text and on the calls that still wait.

* `Builder.outline` : the marks of the finished blocks and of the open containers;
* `partLeaves`, `textLeaves` : the leaves of a text, and the calls afterwards;
* `Builder.pushText_eq` : a text adds its leaves;
* `Builder.Writes` : an operation writes marks;
* `Builder.Ends` : it has written marks, and everything is closed.
-/

namespace MacroDoc

open Markdown (Tag)

/-! ## Leaves of a text -/

/-- The leaves of a part of a text, and the calls afterwards. A call that still waits is an invocation, any other number
is nothing. -/
def partLeaves (calls : List CutCall) : TextPart → List Leaf × List CutCall
  | .plain text => (wordLeaves text, calls)
  | .stray => ([.word (String.singleton placeholderStart)], calls)
  | .call n =>
    match (calls[n]?).bind (·.invocation) with
    | some i => ([.invocation i], useCall calls n)
    | none => ([], calls)

def partsLeaves (calls : List CutCall) : List TextPart → List Leaf × List CutCall
  | [] => ([], calls)
  | part :: rest =>
    let (leaves, calls) := partLeaves calls part
    let (later, calls) := partsLeaves calls rest
    (leaves ++ later, calls)

def textLeaves (calls : List CutCall) (text : List Char) : List Leaf × List CutCall :=
  partsLeaves calls (textParts text)

/-! ## Text that is put back -/

def writtenPart (calls : List CutCall) : TextPart → List Char
  | .plain text => text
  | .stray => [placeholderStart]
  | .call n => ((calls[n]?).map (·.text)).getD []

def writtenText (calls : List CutCall) (text : List Char) : List Char :=
  (textParts text).flatMap (writtenPart calls)

def takePart (calls : List CutCall) : TextPart → List CutCall
  | .call n => useCall calls n
  | _ => calls

def takeText (calls : List CutCall) (text : List Char) : List CutCall :=
  (textParts text).foldl takePart calls

section Written

variable {calls calls' : List CutCall}

theorem map_text_useCall (calls : List CutCall) (n : Nat) :
    (useCall calls n).map (·.text) = calls.map (·.text) := by
  unfold useCall
  induction calls generalizing n with
  | nil => simp
  | cons call calls ih => cases n <;> simp [ih]

theorem map_text_takePart (calls : List CutCall) (part : TextPart) :
    (takePart calls part).map (·.text) = calls.map (·.text) := by
  cases part with
  | call n => exact map_text_useCall calls n
  | plain | stray => rfl

theorem map_text_takeText (calls : List CutCall) (text : List Char) :
    (takeText calls text).map (·.text) = calls.map (·.text) := by
  unfold takeText
  induction textParts text generalizing calls with
  | nil => rfl
  | cons part parts ih => rw [List.foldl_cons, ih, map_text_takePart]

theorem map_text_foldl_takeText (calls : List CutCall) (texts : List (List Char)) :
    (texts.foldl takeText calls).map (·.text) = calls.map (·.text) := by
  induction texts generalizing calls with
  | nil => rfl
  | cons text texts ih => rw [List.foldl_cons, ih, map_text_takeText]

theorem map_text_partsLeaves (calls : List CutCall) (parts : List TextPart) :
    (partsLeaves calls parts).2.map (·.text) = calls.map (·.text) := by
  induction parts generalizing calls with
  | nil => rfl
  | cons part parts ih =>
    have hpart : (partLeaves calls part).2.map (·.text) = calls.map (·.text) := by
      unfold partLeaves
      split
      · rfl
      · rfl
      · split
        · exact map_text_useCall calls _
        · rfl
    exact (ih _).trans hpart

/-- What is put back for a text does not depend on which calls still wait. -/
theorem writtenPart_congr (h : calls.map (·.text) = calls'.map (·.text)) (part : TextPart) :
    writtenPart calls part = writtenPart calls' part := by
  cases part with
  | plain | stray => rfl
  | call n => rw [writtenPart, writtenPart, ← List.getElem?_map, ← List.getElem?_map, h]

theorem writtenText_congr (h : calls.map (·.text) = calls'.map (·.text)) (text : List Char) :
    writtenText calls text = writtenText calls' text := by
  rw [writtenText, writtenText, funext (writtenPart_congr h)]

theorem writtenText_takeText (calls : List CutCall) (text : List Char) :
    writtenText (takeText calls text) = writtenText calls :=
  funext (writtenText_congr (map_text_takeText calls text))

theorem restoreParts_eq (calls : List CutCall) (parts : List TextPart) :
    Builder.restoreParts calls parts = (parts.flatMap (writtenPart calls), parts.foldl takePart calls) := by
  induction parts generalizing calls with
  | nil => rfl
  | cons part parts ih =>
    have hpart : Builder.restorePart calls part = (writtenPart calls part, takePart calls part) := by cases part <;> rfl
    rw [Builder.restoreParts, hpart]
    dsimp only
    rw [ih, List.flatMap_cons, List.foldl_cons, funext (writtenPart_congr (map_text_takePart calls part))]

end Written

theorem Builder.restore_eq (b : Builder) (text : List Char) :
    b.restore text = (writtenText b.calls text, { b with calls := takeText b.calls text }) := by
  rw [restore, restoreParts_eq]
  rfl

namespace Builder

def addLeaves (b : Builder) (added : List Leaf × List CutCall) : Builder :=
  { b.pushAll (added.1.map .leaf) with calls := added.2 }

section Leaves

variable (b : Builder)

@[simp] theorem calls_push (block : Block) : (b.push block).calls = b.calls := by
  unfold push
  split <;> rfl

@[simp] theorem pending_push (block : Block) : (b.push block).pending = b.pending := by
  unfold push
  split <;> rfl

@[simp] theorem code_push (block : Block) : (b.push block).code = b.code := by
  unfold push
  split <;> rfl

theorem pushAll_cons (block : Block) (blocks : List Block) :
    b.pushAll (block :: blocks) = (b.push block).pushAll blocks :=
  rfl

theorem pushAll_append (xs ys : List Block) : b.pushAll (xs ++ ys) = (b.pushAll xs).pushAll ys :=
  List.foldl_append

@[simp] theorem calls_pushAll (blocks : List Block) : (b.pushAll blocks).calls = b.calls := by
  induction blocks generalizing b with
  | nil => rfl
  | cons block blocks ih => rw [pushAll_cons, ih, calls_push]

theorem push_with_calls (block : Block) (calls : List CutCall) :
    push { b with calls } block = { b.push block with calls } := by
  unfold push
  cases b.spine <;> rfl

theorem pushAll_with_calls (blocks : List Block) (calls : List CutCall) :
    pushAll { b with calls } blocks = { b.pushAll blocks with calls } := by
  induction blocks generalizing b with
  | nil => rfl
  | cons block blocks ih => rw [pushAll_cons, push_with_calls, ih, ← pushAll_cons]

theorem addLeaves_addLeaves (calls calls' : List CutCall) (xs ys : List Leaf) :
    (b.addLeaves (xs, calls)).addLeaves (ys, calls') = b.addLeaves (xs ++ ys, calls') := by
  unfold addLeaves
  rw [pushAll_with_calls, List.map_append, pushAll_append]

theorem addLeaves_self (leaves : List Leaf) : b.addLeaves (leaves, b.calls) = b.pushAll (leaves.map .leaf) := by
  unfold addLeaves
  dsimp only
  rw [← b.calls_pushAll (leaves.map .leaf)]

theorem pushPart_eq (part : TextPart) : b.pushPart part = b.addLeaves (partLeaves b.calls part) := by
  cases part with
  | plain text => exact (b.addLeaves_self _).symm
  | stray => exact (b.addLeaves_self [.word (String.singleton placeholderStart)]).symm
  | call n =>
    unfold pushPart partLeaves
    dsimp only
    cases (b.calls[n]?).bind (·.invocation) with
    | some i => exact b.push_with_calls _ _
    | none => exact (b.addLeaves_self []).symm

theorem pushText_eq (text : List Char) : b.pushText text = b.addLeaves (textLeaves b.calls text) := by
  unfold pushText textLeaves
  induction textParts text generalizing b with
  | nil => exact (b.addLeaves_self []).symm
  | cons part parts ih =>
    rw [List.foldl_cons, ih, pushPart_eq]
    exact b.addLeaves_addLeaves _ _ _ _

end Leaves

/-! ## Outlines -/

/-- The marks of the open containers, outermost first. -/
def openOutline : List (Container × List Block) → List Mark
  | [] => []
  | (c, children) :: outer => openOutline outer ++ .start c :: outlineOf children.reverse

/-- The marks of the tree as far as it is built. -/
def outline (b : Builder) : List Mark :=
  outlineOf b.blocks.reverse ++ openOutline b.spine

section Outline

variable (b : Builder)

theorem outline_push (block : Block) : (b.push block).outline = b.outline ++ block.outline := by
  unfold push outline
  split
  · next hspine => simp [hspine, openOutline]
  · next c children rest hspine => simp [hspine, openOutline]

theorem blocks_push (block : Block) : b.blocks <:+ (b.push block).blocks := by
  unfold push
  split
  · exact List.suffix_cons _ _
  · exact List.suffix_refl _

theorem length_spine_push (block : Block) : (b.push block).spine.length = b.spine.length := by
  unfold push
  split
  · rfl
  · next hspine => simp [hspine]

theorem outline_pushAll_leaves (leaves : List Leaf) :
    (b.pushAll (leaves.map .leaf)).outline = b.outline ++ leaves.map .leaf := by
  induction leaves generalizing b with
  | nil => simp [pushAll]
  | cons l leaves ih => rw [List.map_cons, pushAll_cons, ih, outline_push, Block.outline_leaf, List.append_assoc]; rfl

theorem outline_openContainer (c : Container) : (b.openContainer c).outline = b.outline ++ [.start c] := by
  simp [openContainer, outline, openOutline]

theorem close_of_nil (h : b.spine = []) : b.close = b := by
  unfold close
  rw [h]

theorem outline_close (h : b.spine ≠ []) : b.close.outline = b.outline ++ [.stop] := by
  unfold close
  split
  · next hspine => exact absurd hspine h
  · next c children rest hspine =>
    rw [outline_push]
    simp [outline, hspine, openOutline]

theorem length_spine_close : b.close.spine.length = b.spine.length - 1 := by
  unfold close
  split
  · next hspine => simp [hspine]
  · next c children rest hspine => simp [length_spine_push, hspine]

theorem blocks_close : b.blocks <:+ b.close.blocks := by
  unfold close
  split
  · exact List.suffix_refl _
  · next c children rest hspine => exact blocks_push { b with spine := rest } _

@[simp] theorem calls_close : b.close.calls = b.calls := by
  unfold close
  split <;> simp

@[simp] theorem pending_close : b.close.pending = b.pending := by
  unfold close
  split <;> simp

@[simp] theorem code_close : b.close.code = b.code := by
  unfold close
  split <;> simp

end Outline

/-! ## What an operation writes -/

/-- An operation leads from one builder to another and writes the marks; whatever marks come later, the outline ends up
with both. Finished blocks stay. -/
structure Writes (b : Builder) (marks : List Mark) (b' : Builder) : Prop where
  blocks : b.blocks <:+ b'.blocks
  outline : ∀ later, b'.outline ++ balance b'.spine.length later
    = b.outline ++ balance b.spine.length (marks ++ later)
  pending : b'.pending = b.pending
  code : b'.code = b.code

section Writes

variable {b b' b'' : Builder} {marks marks' : List Mark}

theorem Writes.refl (b : Builder) : b.Writes [] b :=
  ⟨List.suffix_refl _, fun _ => rfl, rfl, rfl⟩

theorem Writes.trans (h : b.Writes marks b') (h' : b'.Writes marks' b'') : b.Writes (marks ++ marks') b'' where
  blocks := h.blocks.trans h'.blocks
  outline later := by rw [h'.outline, h.outline, List.append_assoc]
  pending := h'.pending.trans h.pending
  code := h'.code.trans h.code

theorem Writes.with_calls (h : b.Writes marks b') (calls : List CutCall) : b.Writes marks { b' with calls } :=
  ⟨h.blocks, h.outline, h.pending, h.code⟩

theorem writes_push_leaf (b : Builder) (l : Leaf) : b.Writes [.leaf l] (b.push (.leaf l)) where
  blocks := b.blocks_push _
  outline later := by
    rw [outline_push, length_spine_push, Block.outline_leaf, List.append_assoc]
    rfl
  pending := b.pending_push _
  code := b.code_push _

theorem writes_pushAll_leaves (b : Builder) (leaves : List Leaf) :
    b.Writes (leaves.map .leaf) (b.pushAll (leaves.map .leaf)) := by
  induction leaves generalizing b with
  | nil => exact .refl b
  | cons l leaves ih => exact (b.writes_push_leaf l).trans (ih _)

theorem writes_pushText (b : Builder) (text : List Char) :
    b.Writes ((textLeaves b.calls text).1.map .leaf) (b.pushText text) := by
  rw [pushText_eq]
  exact (b.writes_pushAll_leaves _).with_calls _

theorem writes_openContainer (b : Builder) (c : Container) : b.Writes [.start c] (b.openContainer c) where
  blocks := List.suffix_refl _
  outline later := by
    rw [outline_openContainer, List.append_assoc]
    rfl
  pending := rfl
  code := rfl

theorem writes_close (b : Builder) : b.Writes [.stop] b.close where
  blocks := b.blocks_close
  outline later := by
    by_cases hspine : b.spine = []
    · rw [close_of_nil b hspine, hspine]
      rfl
    · obtain ⟨depth, hdepth⟩ := Nat.exists_eq_add_one.2 (List.length_pos_iff.2 hspine)
      rw [outline_close b hspine, length_spine_close, hdepth, List.append_assoc]
      rfl
  pending := b.pending_close
  code := b.code_close

end Writes

/-! ## The end -/

theorem repeat_close (b : Builder) (n : Nat) (hn : n ≤ b.spine.length) :
    (Nat.repeat close n b).spine.length = b.spine.length - n
      ∧ (Nat.repeat close n b).outline = b.outline ++ List.replicate n .stop
      ∧ b.blocks <:+ (Nat.repeat close n b).blocks
      ∧ (Nat.repeat close n b).pending = b.pending ∧ (Nat.repeat close n b).code = b.code := by
  induction n with
  | zero => exact ⟨rfl, (List.append_nil _).symm, List.suffix_refl _, rfl, rfl⟩
  | succ n ih =>
    obtain ⟨hlength, houtline, hblocks, hpending, hcode⟩ := ih (by omega)
    have hne : (Nat.repeat close n b).spine ≠ [] := List.length_pos_iff.1 (by omega)
    rw [Nat.repeat]
    refine ⟨?_, ?_, hblocks.trans (blocks_close _), by rw [pending_close, hpending], by rw [code_close, hcode]⟩
    · rw [length_spine_close, hlength, Nat.sub_sub]
    · rw [outline_close _ hne, houtline, List.append_assoc, List.replicate_succ']

/-- Everything has come to an end: nothing is open and no text waits. Behind the outline of the first builder stand the
marks, balanced. -/
structure Ends (b : Builder) (marks : List Mark) (b' : Builder) : Prop where
  spine : b'.spine = []
  pending : b'.pending = none
  code : b'.code = none
  blocks : b.blocks <:+ b'.blocks
  outline : b'.outline = b.outline ++ balance b.spine.length marks

section Ends

variable {b b' b'' : Builder} {marks marks' : List Mark}

theorem Writes.ends (h : b.Writes marks b') (h' : b'.Ends marks' b'') : b.Ends (marks ++ marks') b'' where
  spine := h'.spine
  pending := h'.pending
  code := h'.code
  blocks := h.blocks.trans h'.blocks
  outline := by rw [h'.outline, h.outline]

/-- Closing all containers balances the outline. -/
theorem ends_closeAll (b : Builder) (hpending : b.pending = none) (hcode : b.code = none) : b.Ends [] b.closeAll := by
  obtain ⟨hlength, houtline, hblocks, hpending', hcode'⟩ := b.repeat_close b.spine.length (Nat.le_refl _)
  rw [Nat.sub_self] at hlength
  exact ⟨List.eq_nil_of_length_eq_zero hlength, hpending'.trans hpending, hcode'.trans hcode, hblocks, houtline⟩

/-- The blocks that have been added at the end, and their outline. -/
theorem Ends.exists_appended (h : b.Ends marks b') (hspine : b.spine = []) :
    ∃ appended, b'.blocks = appended.reverse ++ b.blocks ∧ outlineOf appended = balance 0 marks := by
  obtain ⟨added, hadded⟩ := h.blocks
  refine ⟨added.reverse, by rw [List.reverse_reverse, hadded], ?_⟩
  have houtline := h.outline
  rw [Builder.outline, Builder.outline, h.spine, hspine, ← hadded, List.reverse_append, outlineOf_append] at houtline
  simpa [openOutline] using houtline

end Ends

end Builder

end MacroDoc
