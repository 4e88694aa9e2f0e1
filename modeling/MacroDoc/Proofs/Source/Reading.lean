import MacroDoc.Proofs.Source.Marks

/-!
# Trees of event sequences

A tree is built from any sequence of Markdown events in which blocks of code are closed, well nested or not. It has the
marks of the events, in their order: only ends that nothing started are gone, and ends that are missing are added.

* `Builder.read_text`, `Builder.read_codeBlock`, `Builder.read_plainEvent` : what stands for one or more marks is taken
  in at once;
* `Builder.ends_read` : the tree has the marks of the events, balanced;
* `Builder.read_keeps_content` : its leaves are those of the events, and well nested containers stay nested as they are.
-/

namespace MacroDoc

open Markdown (Tag)

/-! ## Reading events -/

namespace Builder

section Texts

variable (b : Builder)

theorem foldl_texts {text : List Char} (texts : List (List Char)) (hpending : b.pending = some text)
    (hcode : b.code = none) :
    (texts.map .text).foldl event b = { b with pending := some (text ++ texts.flatten) } := by
  induction texts generalizing b text with
  | nil => rw [List.map_nil, List.foldl_nil, List.flatten_nil, List.append_nil, ← hpending]
  | cons t texts ih =>
    have hevent : b.event (.text t) = { b with pending := some (text ++ t) } := by
      rw [event, hcode, hpending]
      rfl
    rw [List.map_cons, List.foldl_cons, hevent, ih { b with pending := some (text ++ t) } rfl hcode,
      List.flatten_cons, List.append_assoc]

/-- In a block of code the pieces of text are put back one by one. -/
theorem foldl_code {code : List Char} (texts : List (List Char)) (hcode : b.code = some code) :
    (texts.map .text).foldl event b
      = { b with
          code := some (code ++ texts.flatMap (writtenText b.calls)), calls := texts.foldl takeText b.calls } := by
  induction texts generalizing b code with
  | nil => rw [List.map_nil, List.foldl_nil, List.flatMap_nil, List.append_nil, ← hcode]; rfl
  | cons t texts ih =>
    have hevent : b.event (.text t)
        = { b with code := some (code ++ writtenText b.calls t), calls := takeText b.calls t } := by
      rw [event, hcode]
      dsimp only
      rw [codeEvent, restore_eq]
    rw [List.map_cons, List.foldl_cons, hevent, ih _ rfl, List.flatMap_cons, List.append_assoc]
    dsimp only
    rw [writtenText_takeText, List.foldl_cons]

theorem event_leaveCode {code : List Char} (hcode : b.code = some code) :
    b.event (.leave .codeBlock)
      = push { b with code := none } (.leaf (.verbatim (String.ofList (Text.dropTrailing '\n' code)) false)) := by
  unfold event
  rw [hcode]
  rfl

end Texts

section Events

variable (b : Builder)

theorem writes_enter {tag : Tag} {c : Container} (hc : tag.container? b.calls = some c) :
    b.Writes [.start c] (b.enter tag) ∧ (b.enter tag).calls = (Markdown.Event.enter tag).callsAfter b.calls := by
  cases tag with
  | codeBlock => cases hc
  | link destination =>
    obtain rfl := Option.some.inj hc
    rw [enter, restore_eq]
    exact ⟨(b.writes_openContainer _).with_calls _, rfl⟩
  | _ =>
    obtain rfl := Option.some.inj hc
    exact ⟨b.writes_openContainer _, rfl⟩

/-- Outside of blocks of code, an event that is no text writes the marks that it stands for. -/
theorem writes_plainEvent {e : Markdown.Event} (htext : ∀ text, e ≠ .text text) (hcode : e ≠ .enter .codeBlock) :
    b.Writes ((e.bracket? b.calls).toList ++ (e.leaves b.calls).map .leaf) (b.plainEvent e)
      ∧ (b.plainEvent e).calls = e.callsAfter b.calls := by
  cases e with
  | text text => exact absurd rfl (htext text)
  | enter tag =>
    cases hc : tag.container? b.calls with
    | none => cases tag <;> first | exact absurd rfl hcode | cases hc
    | some c =>
      obtain ⟨hwrites, hcalls⟩ := b.writes_enter hc
      rw [Markdown.Event.bracket?, hc]
      exact ⟨hwrites, hcalls⟩
  | leave tag =>
    cases tag with
    | codeBlock => exact ⟨.refl b, rfl⟩
    | _ => exact ⟨b.writes_close, b.calls_close⟩
  | code content =>
    have hevent : b.plainEvent (.code content)
        = { b.push (.leaf (.verbatim (String.ofList (writtenText b.calls content)) true)) with
            calls := takeText b.calls content } := by
      rw [plainEvent, restore_eq]
      exact b.push_with_calls _ _
    rw [hevent]
    exact ⟨(b.writes_push_leaf _).with_calls _, rfl⟩
  | html content => exact ⟨b.writes_pushText content, by rw [plainEvent, pushText_eq]; rfl⟩
  | lineBreak => exact ⟨b.writes_push_leaf .newLine, b.calls_push _⟩
  | rule => exact ⟨b.writes_push_leaf .horizontalLine, b.calls_push _⟩
  | other => exact ⟨.refl b, rfl⟩

end Events

section Read

variable (b : Builder) {e : Markdown.Event} {rest : List Markdown.Event}

theorem event_of_ne (hcode : b.code = none) (htext : ∀ text, e ≠ .text text) : b.event e = b.flush.plainEvent e := by
  cases e with
  | text text => exact absurd rfl (htext text)
  | _ => unfold event; rw [hcode]

theorem flush_of_none (hpending : b.pending = none) : b.flush = b := by
  rw [flush, hpending]

theorem pending_flush : b.flush.pending = none := by
  unfold flush
  split
  · exact (writes_pushText { b with pending := none } _).pending
  · assumption

theorem code_flush : b.flush.code = b.code := by
  unfold flush
  split
  · exact (writes_pushText { b with pending := none } _).code
  · rfl

/-- Before any event but text, and at the end, it makes no difference whether the text that waits has been split. -/
theorem read_flush {events : List Markdown.Event} (hcode : b.code = none)
    (htext : ∀ text rest, events ≠ .text text :: rest) : b.flush.read events = b.read events := by
  have hflush := b.flush.flush_of_none b.pending_flush
  cases events with
  | nil => rw [read, read, List.foldl_nil, List.foldl_nil, hflush]
  | cons e rest =>
    have he : ∀ text, e ≠ .text text := fun text he => htext text rest (he ▸ rfl)
    rw [read, read, List.foldl_cons, List.foldl_cons, b.event_of_ne hcode he,
      b.flush.event_of_ne (b.code_flush.trans hcode) he, hflush]

theorem read_text (hpending : b.pending = none) (hcode : b.code = none) (text : List Char) :
    b.read (.text text :: rest) = (b.pushText (text ++ (leadingTexts rest).flatten)).read (afterTexts rest) := by
  have hevent : b.event (.text text) = { b with pending := some text } := by
    rw [event, hcode, hpending]
    rfl
  have hread : b.read (.text text :: rest)
      = read { b with pending := some (text ++ (leadingTexts rest).flatten) } (afterTexts rest) := by
    conv_lhs => rw [← texts_append_afterTexts rest]
    rw [read, List.foldl_cons, hevent, List.foldl_append, foldl_texts { b with pending := some text } _ rfl hcode, read]
  have hnone : { b with pending := none } = b := by rw [← hpending]
  rw [hread, ← read_flush { b with pending := some _ } hcode (ne_text_afterTexts rest), flush]
  dsimp only
  rw [hnone]

theorem read_codeBlock (hpending : b.pending = none) (hcode : b.code = none)
    (hclosed : (afterTexts rest).head? = some (.leave .codeBlock)) :
    b.read (.enter .codeBlock :: rest) =
      read { b.push (.leaf (.verbatim (String.ofList
        (Text.dropTrailing '\n' ((leadingTexts rest).flatMap (writtenText b.calls)))) false)) with
        calls := (leadingTexts rest).foldl takeText b.calls } (afterTexts rest).tail := by
  have henter : b.event (.enter .codeBlock) = { b with code := some [] } := by
    rw [b.event_of_ne hcode (by simp), b.flush_of_none hpending]
    rfl
  have hrest : rest = (leadingTexts rest).map .text ++ .leave .codeBlock :: (afterTexts rest).tail := by
    rw [List.cons_head?_tail hclosed, texts_append_afterTexts]
  have hnone : { b with code := none } = b := by rw [← hcode]
  conv_lhs => rw [hrest]
  rw [read, List.foldl_cons, henter, List.foldl_append, foldl_code { b with code := some [] } _ rfl, List.foldl_cons,
    event_leaveCode _ rfl]
  dsimp only
  rw [push_with_calls { b with code := none }, hnone]
  rfl

theorem read_plainEvent (hpending : b.pending = none) (hcode : b.code = none) (htext : ∀ text, e ≠ .text text) :
    b.read (e :: rest) = (b.plainEvent e).read rest := by
  rw [read, List.foldl_cons, b.event_of_ne hcode htext, b.flush_of_none hpending, read]

/-- Whatever the events are, if blocks of code are closed, the tree has the marks of the events, balanced. -/
theorem ends_read {events : List Markdown.Event} (hpending : b.pending = none) (hcode : b.code = none)
    (hcloses : ClosesCode events) : b.Ends (marksOf b.calls events) (b.read events) := by
  generalize hcalls : b.calls = calls
  -- What `marksOf` takes in one step is read in one step by the lemmas above, and written; the rest is read behind it.
  induction calls, events using marksOf.induct generalizing b with
  | case1 calls =>
    rw [read, List.foldl_nil, b.flush_of_none hpending, marksOf]
    exact b.ends_closeAll hpending hcode
  | case2 calls text rest added ih =>
    subst hcalls
    rw [b.read_text hpending hcode, marksOf]
    have hwrites := b.writes_pushText (text ++ (leadingTexts rest).flatten)
    refine hwrites.ends (ih _ (hwrites.pending.trans hpending) (hwrites.code.trans hcode) hcloses.2.afterTexts ?_)
    rw [pushText_eq]
    rfl
  | case3 calls rest texts ih =>
    subst hcalls
    obtain ⟨hclosed, hcloses⟩ := hcloses
    rw [b.read_codeBlock hpending hcode (hclosed rfl), marksOf]
    have hwrites := (b.writes_push_leaf (.verbatim (String.ofList
      (Text.dropTrailing '\n' (texts.flatMap (writtenText b.calls)))) false)).with_calls (texts.foldl takeText b.calls)
    exact hwrites.ends
      (ih _ (hwrites.pending.trans hpending) (hwrites.code.trans hcode) hcloses.afterTexts.tail rfl)
  | case4 calls e rest htext hcodeBlock ih =>
    subst hcalls
    obtain ⟨hwrites, hafter⟩ := b.writes_plainEvent htext hcodeBlock
    rw [b.read_plainEvent hpending hcode htext, marksOf_cons _ _ htext hcodeBlock]
    exact hwrites.ends (ih _ (hwrites.pending.trans hpending) (hwrites.code.trans hcode) hcloses.2 hafter)

end Read

/-- Reading events neither loses content nor changes its order. Whatever the events are, as long as blocks of code are
closed with only text inside, nothing is left open and no text is left over; the leaves of the blocks that are added
are those of the events, each once and in order. If the events are well nested, the blocks that are added are the tree
of the events: containers start and end where the tags do. -/
theorem read_keeps_content {b : Builder} {events : List Markdown.Event} (hspine : b.spine = [])
    (hpending : b.pending = none) (hcode : b.code = none) (hcloses : ClosesCode events) :
    (b.read events).spine = [] ∧ (b.read events).pending = none ∧ (b.read events).code = none
      ∧ ∃ appended, (b.read events).blocks = appended.reverse ++ b.blocks
        ∧ leavesIn appended = (marksOf b.calls events).filterMap Mark.leaf?
        ∧ (Nested [] events → outlineOf appended = marksOf b.calls events
          ∧ (outlineOf appended).filter Mark.isBracket = events.filterMap (Markdown.Event.bracket? b.calls)) := by
  have hends := b.ends_read hpending hcode hcloses
  obtain ⟨appended, hblocks, houtline⟩ := hends.exists_appended hspine
  refine ⟨hends.spine, hends.pending, hends.code, appended, hblocks, ?_, fun hnested => ?_⟩
  · rw [← filterMap_outlineOf, houtline, filterMap_balance]
  · have hmarks : outlineOf appended = marksOf b.calls events :=
      houtline.trans (balance_marksOf [] hcloses hnested List.not_mem_nil)
    exact ⟨hmarks, by rw [hmarks, filter_marksOf hcloses]⟩

/-- A paragraph with a text that comes in two pieces and a call in it, and the same call again in a block of code. -/
theorem read_keeps_content_twoPieces :
    let call : Invocation := ⟨⟨"a", .empty, none⟩, .default, some ⟨2, 8⟩⟩
    let b : Builder := ⟨[], [.leaf .horizontalLine], [⟨some call, "a".toList⟩], none, none⟩
    let events : List Markdown.Event := [.enter .paragraph, .text "x".toList, .text ("y ".toList ++ placeholder 0),
      .leave .paragraph, .enter .codeBlock, .text ("z".toList ++ placeholder 0), .text "\n".toList, .leave .codeBlock]
    let marks : List Mark := [.start .paragraph, .leaf (.word "xy"), .leaf .space, .leaf (.invocation call), .stop,
      .leaf (.verbatim "za" false)]
    b.spine = [] ∧ b.pending = none ∧ b.code = none ∧ ClosesCode events ∧ Nested [] events
      ∧ ∃ appended, (b.read events).blocks = appended.reverse ++ b.blocks ∧ outlineOf appended = marks := by
  intro call b events marks
  have hcloses : ClosesCode events := by decide
  have hnested : Nested [] events := by decide
  have hmarks : marksOf b.calls events = marks := by decide +kernel
  obtain ⟨-, -, -, appended, hblocks, -, htree⟩ := read_keeps_content (b := b) rfl rfl rfl hcloses
  exact ⟨rfl, rfl, rfl, hcloses, hnested, appended, hblocks, (htree hnested).1.trans hmarks⟩

/-- The end that nothing started is gone, and the one that is missing is added. -/
example : ((⟨[], [], [], none, none⟩ : Builder).read [.leave .item, .enter .emphasis, .text ['a']]).blocks
    = [.node (.format .italic) [.leaf (.word "a")]] := by decide +kernel

end Builder

end MacroDoc
