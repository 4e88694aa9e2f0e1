import MacroDoc.Proofs.Source.Building
import MacroDoc.Source.Parse

/-!
# Containers of a source

The containers of a source are those that Markdown has. Elements and markers are the work of macros: however the
Markdown is read, no source holds one.

* `Container.isMarkup` : containers that Markdown has;
* `Builder.IsMarkup` : nothing but such containers has been built, which every event keeps;
* `isMarkup_parseBlocksBy` : so the blocks of a source hold no other.
-/

namespace MacroDoc

open Markdown (Tag)

def Container.isMarkup : Container → Bool
  | .element _ _ | .marker _ => false
  | _ => true

def Mark.isMarkup : Mark → Bool
  | .start c => c.isMarkup
  | _ => true

theorem all_isMarkup_leaves (leaves : List Leaf) : (leaves.map Mark.leaf).all Mark.isMarkup = true := by
  simp [Mark.isMarkup]

namespace Builder

/-- All containers of the tree as far as it is built are containers that Markdown has. -/
def IsMarkup (b : Builder) : Prop :=
  b.outline.all Mark.isMarkup = true

variable {b : Builder}

/-! ## Operations -/

theorem IsMarkup.of_outline {b' : Builder} {marks : List Mark} (h : b.IsMarkup) (hb' : b'.outline = b.outline ++ marks)
    (hmarks : marks.all Mark.isMarkup = true) : b'.IsMarkup := by
  rw [IsMarkup, hb', List.all_append, hmarks, Bool.and_true]
  exact h

theorem IsMarkup.push_leaf (h : b.IsMarkup) (l : Leaf) : (b.push (.leaf l)).IsMarkup :=
  h.of_outline ((outline_push b _).trans (by rw [Block.outline_leaf])) rfl

theorem IsMarkup.openContainer (h : b.IsMarkup) {c : Container} (hc : c.isMarkup = true) :
    (b.openContainer c).IsMarkup :=
  h.of_outline (outline_openContainer b c) (by simpa [Mark.isMarkup] using hc)

theorem IsMarkup.close (h : b.IsMarkup) : b.close.IsMarkup := by
  by_cases hspine : b.spine = []
  · rwa [close_of_nil b hspine]
  · exact h.of_outline (outline_close b hspine) rfl

theorem IsMarkup.closeAll (h : b.IsMarkup) : b.closeAll.IsMarkup := by
  unfold Builder.closeAll
  induction b.spine.length with
  | zero => exact h
  | succ n ih => exact ih.close

theorem IsMarkup.pushText (h : b.IsMarkup) (text : List Char) : (b.pushText text).IsMarkup := by
  rw [pushText_eq]
  exact h.of_outline (outline_pushAll_leaves b _) (all_isMarkup_leaves _)

theorem IsMarkup.flush (h : b.IsMarkup) : b.flush.IsMarkup := by
  unfold Builder.flush
  split
  · exact IsMarkup.pushText (b := { b with pending := none }) h _
  · exact h

/-! ## Events -/

theorem IsMarkup.enter (h : b.IsMarkup) (tag : Tag) : (b.enter tag).IsMarkup := by
  cases tag with
  | codeBlock => exact h
  | link destination =>
    rw [Builder.enter, restore_eq]
    exact IsMarkup.openContainer (b := { b with calls := _ }) h rfl
  | _ => exact h.openContainer rfl

theorem IsMarkup.codeEvent (h : b.IsMarkup) (code : List Char) (e : Markdown.Event) :
    (b.codeEvent code e).IsMarkup := by
  unfold Builder.codeEvent
  split
  · exact h
  · exact IsMarkup.push_leaf (b := { b with code := none }) h _
  · exact h

theorem IsMarkup.plainEvent (h : b.IsMarkup) (e : Markdown.Event) : (b.plainEvent e).IsMarkup := by
  unfold Builder.plainEvent
  split
  · exact h.enter _
  · exact h
  · exact h.close
  · exact IsMarkup.push_leaf (b := (b.restore _).2) h _
  · exact h.pushText _
  · exact h.push_leaf _
  · exact h.push_leaf _
  · exact h
  · exact h

theorem IsMarkup.event (h : b.IsMarkup) (e : Markdown.Event) : (b.event e).IsMarkup := by
  unfold Builder.event
  split
  · exact h.codeEvent _ e
  · split
    · exact h
    · exact h.flush.plainEvent e

theorem IsMarkup.read (h : b.IsMarkup) (events : List Markdown.Event) : (b.read events).IsMarkup := by
  have hevents : (events.foldl Builder.event b).IsMarkup := by
    induction events generalizing b with
    | nil => exact h
    | cons e events ih => exact ih (h.event e)
  exact hevents.flush.closeAll

/-! ## Segments -/

theorem IsMarkup.segment (h : b.IsMarkup) (events : List Char → List Markdown.Event) (segment : Segment) :
    (b.segment events segment).IsMarkup := by
  cases segment with
  | markup text => exact h.read (events text)
  | call i =>
    unfold IsMarkup outline at h ⊢
    simpa [Builder.segment, Mark.isMarkup] using h

theorem IsMarkup.foldl_segment (h : b.IsMarkup) (events : List Char → List Markdown.Event) (segments : List Segment) :
    (segments.foldl (Builder.segment events) b).IsMarkup := by
  induction segments generalizing b with
  | nil => exact h
  | cons segment segments ih => exact ih (h.segment events segment)

end Builder

theorem isMarkup_parseBlocksBy {events : List Char → List Markdown.Event} {dialect : Dialect} {fileId : Nat}
    {source : String} {blocks : List Block} (h : parseBlocksBy events dialect fileId source = .ok blocks) :
    (outlineOf blocks).all Mark.isMarkup = true := by
  unfold parseBlocksBy at h
  dsimp only at h
  split at h
  · obtain rfl := Except.ok.inj h
    unfold buildBlocks
    dsimp only
    have hstart : (⟨[], [], cutCalls dialect (cut source.toList), none, none⟩ : Builder).IsMarkup := by
      simp [Builder.IsMarkup, Builder.outline, Builder.openOutline]
    have hsegments := hstart.foldl_segment events (segments dialect (cut source.toList))
    rw [Builder.IsMarkup, Builder.outline, List.all_append, Bool.and_eq_true] at hsegments
    exact hsegments.1
  · cases h

end MacroDoc
