import MacroDoc.Block.Event

/-!
# Listings that do not fit

A writer of a listing does not stop the traversal when its output refuses a piece. It remembers the failure, and so no
later line is begun, however short it is. What an output has been asked for is known from an output that keeps a record;
keeping it changes nothing else.

* `EventWriter.feed_start` : a forest is written as the pieces of all its lines in one row;
* `Recorded`, `Offer` : an output with a record of the pieces that it was offered;
* `Offers` : pieces are offered in order until one is refused;
* `Offers.prefix_of_sink` : a sink holds a beginning of the text after each of them;
* `writeAll_sink_of_fits`, `writeAll_sink_of_not_fits` : all pieces are accepted if they fit together, and only then;
* `EventWriter.feed_sink` : a writer over a sink, for any forest and any room.
-/

namespace MacroDoc

/-! ## Pieces -/

section Output

variable {W : Type} [Output W] {out out' : W} {piece : String}

theorem writeAll_cons_of_accepted (h : Output.write out piece = (out', true)) (rest : List String) :
    writeAll out (piece :: rest) = writeAll out' rest := by
  rw [writeAll, h]

theorem writeAll_cons_of_refused (h : Output.write out piece = (out', false)) (rest : List String) :
    writeAll out (piece :: rest) = (out', false) := by
  rw [writeAll, h]

/-- Later pieces are written only if all pieces before them were accepted. -/
theorem writeAll_append (out : W) (first later : List String) :
    writeAll out (first ++ later) =
      if (writeAll out first).2 then writeAll (writeAll out first).1 later else writeAll out first := by
  induction first generalizing out with
  | nil => rfl
  | cons piece first ih =>
    rw [List.cons_append]
    rcases h : Output.write out piece with ⟨out', _ | _⟩
    · rw [writeAll_cons_of_refused h, writeAll_cons_of_refused h]
      rfl
    · rw [writeAll_cons_of_accepted h, writeAll_cons_of_accepted h, ih]

/-! ## Writers -/

namespace EventWriter

/-- Once a line has failed, events change nothing. -/
theorem foldl_event_of_failed {w : EventWriter W} (h : w.ok = false) (events : List Event) :
    events.foldl event w = w := by
  induction events with
  | nil => rfl
  | cons e events ih => rw [List.foldl_cons, event, h, if_neg Bool.false_ne_true, ih]

/-- Events are written as the pieces of their lines in one row. -/
theorem foldl_event_start (out : W) (events : List Event) :
    events.foldl event (start out) =
      ⟨(writeAll out (events.flatMap Event.pieces)).1, (writeAll out (events.flatMap Event.pieces)).2⟩ := by
  induction events generalizing out with
  | nil => rfl
  | cons e events ih =>
    have hevent : (start out).event e = ⟨(writeAll out e.pieces).1, (writeAll out e.pieces).2⟩ := rfl
    rw [List.foldl_cons, hevent, List.flatMap_cons, writeAll_append]
    cases hline : (writeAll out e.pieces).2 with
    | true => exact ih _
    | false => rw [foldl_event_of_failed rfl, if_neg Bool.false_ne_true, hline]

end EventWriter

def listingPieces (blocks : List Block) : List String :=
  (traverse blocks).flatMap Event.pieces

theorem EventWriter.feed_start (out : W) (blocks : List Block) :
    (start out).feed blocks = ⟨(writeAll out (listingPieces blocks)).1, (writeAll out (listingPieces blocks)).2⟩ :=
  foldl_event_start out _

end Output

theorem writeAll_string (text : String) (pieces : List String) :
    writeAll text pieces = (text ++ String.join pieces, true) := by
  induction pieces generalizing text with
  | nil => rw [writeAll, String.join_nil, String.append_empty]
  | cons piece pieces ih =>
    rw [writeAll_cons_of_accepted rfl, ih, String.join_cons, String.append_assoc]

theorem eventListing_eq (blocks : List Block) : eventListing blocks = String.join (listingPieces blocks) := by
  rw [eventListing, EventWriter.feed_start, writeAll_string, String.empty_append]
  rfl

/-! ## Records -/

/-- A piece that an output was offered, whether it was accepted, and the output afterwards. -/
structure Offer (W : Type) where
  piece : String
  accepted : Bool
  after : W
  deriving DecidableEq

/-- An output with a record of what it was offered. -/
structure Recorded (W : Type) where
  bare : W
  offers : List (Offer W)

instance {W : Type} [Output W] : Output (Recorded W) where
  write r piece :=
    let (out, accepted) := Output.write r.bare piece
    (⟨out, r.offers ++ [⟨piece, accepted, out⟩]⟩, accepted)

/-- Pieces are offered in order, each to the output that the piece before has left, until one is refused. -/
inductive Offers {W : Type} [Output W] : W → List String → List (Offer W) → Prop where
  | nil {out} : Offers out [] []
  | refused {out out' piece rest} (h : Output.write out piece = (out', false)) :
    Offers out (piece :: rest) [⟨piece, false, out'⟩]
  | accepted {out out' piece rest offers} (h : Output.write out piece = (out', true))
    (later : Offers out' rest offers) : Offers out (piece :: rest) (⟨piece, true, out'⟩ :: offers)

section Recorded

variable {W : Type} [Output W] {out : W} {pieces : List String} {offers before after : List (Offer W)}
  {b o : Offer W}

/-- A record is kept of each piece that is offered, and changes nothing else. -/
theorem writeAll_recorded (out : W) (earlier : List (Offer W)) (pieces : List String) :
    ∃ offers, Offers out pieces offers ∧
      writeAll (⟨out, earlier⟩ : Recorded W) pieces
        = (⟨(writeAll out pieces).1, earlier ++ offers⟩, (writeAll out pieces).2) := by
  induction pieces generalizing out earlier with
  | nil => exact ⟨[], .nil, by rw [List.append_nil]; rfl⟩
  | cons piece rest ih =>
    rcases h : Output.write out piece with ⟨out', accepted⟩
    have hrecorded : Output.write (⟨out, earlier⟩ : Recorded W) piece
        = (⟨out', earlier ++ [⟨piece, accepted, out'⟩]⟩, accepted) := by
      simp only [Output.write, h]
    cases accepted with
    | false =>
      exact ⟨_, .refused h, by rw [writeAll_cons_of_refused hrecorded, writeAll_cons_of_refused h]⟩
    | true =>
      obtain ⟨offers, hoffers, hrest⟩ := ih out' (earlier ++ [⟨piece, true, out'⟩])
      refine ⟨_, .accepted h hoffers, ?_⟩
      rw [writeAll_cons_of_accepted hrecorded, writeAll_cons_of_accepted h, hrest, List.append_assoc]
      rfl

namespace Offers

theorem first (h : Offers out pieces (o :: offers)) :
    ∃ rest, pieces = o.piece :: rest ∧ Output.write out o.piece = (o.after, o.accepted) ∧
      if o.accepted then Offers o.after rest offers else offers = [] := by
  cases h with
  | refused h => exact ⟨_, rfl, h, rfl⟩
  | accepted h later => exact ⟨_, rfl, h, later⟩

theorem earlier (h : Offers out pieces (b :: (before ++ o :: after))) :
    ∃ rest, pieces = b.piece :: rest ∧ Output.write out b.piece = (b.after, true) ∧
      Offers b.after rest (before ++ o :: after) := by
  obtain ⟨rest, hpieces, hwrite, hlater⟩ := h.first
  split at hlater
  · next haccepted => exact ⟨rest, hpieces, haccepted ▸ hwrite, hlater⟩
  · exact absurd hlater (by simp)

theorem after_refused (h : Offers out pieces (before ++ o :: after)) (ho : o.accepted = false) : after = [] := by
  induction before generalizing out pieces with
  | nil =>
    obtain ⟨rest, -, -, hafter⟩ := h.first
    rwa [ho, if_neg Bool.false_ne_true] at hafter
  | cons b before ih =>
    obtain ⟨rest, -, -, hlater⟩ := h.earlier
    exact ih hlater

end Offers

end Recorded

/-! ## Sinks -/

section Sink

variable {s s' : Sink} {piece : String} {pieces : List String} {offers before after : List (Offer Sink)}
  {o : Offer Sink}

theorem write_of_fits (h : piece.utf8ByteSize ≤ s.room) :
    Output.write s piece = (⟨s.held ++ piece, s.room - piece.utf8ByteSize⟩, true) :=
  if_pos h

theorem write_of_not_fits (h : s.room < piece.utf8ByteSize) : Output.write s piece = (s, false) :=
  if_neg (Nat.not_le.2 h)

/-- What a sink does with a piece is known from its answer. -/
theorem write_sink {accepted : Bool} (h : Output.write s piece = (s', accepted)) :
    (accepted = true ↔ piece.utf8ByteSize ≤ s.room) ∧
      s' = if accepted then ⟨s.held ++ piece, s.room - piece.utf8ByteSize⟩ else s := by
  by_cases hfits : piece.utf8ByteSize ≤ s.room
  · obtain ⟨rfl, rfl⟩ := Prod.mk.inj ((write_of_fits hfits).symm.trans h)
    exact ⟨iff_of_true rfl hfits, rfl⟩
  · obtain ⟨rfl, rfl⟩ := Prod.mk.inj ((write_of_not_fits (Nat.not_le.1 hfits)).symm.trans h)
    exact ⟨iff_of_false Bool.false_ne_true hfits, rfl⟩

/-- After each piece that it is offered, a sink holds a beginning of the text. -/
theorem Offers.prefix_of_sink (h : Offers s pieces offers) (ho : o ∈ offers) :
    ∃ rest, o.after.held ++ rest = s.held ++ String.join pieces := by
  induction h with
  | nil => cases ho
  | refused h =>
    obtain rfl := List.mem_singleton.1 ho
    exact ⟨_, by rw [(write_sink h).2]; rfl⟩
  | accepted h later ih =>
    rw [String.join_cons, ← String.append_assoc]
    have hafter := (write_sink h).2
    rcases List.mem_cons.1 ho with rfl | ho
    · exact ⟨_, by rw [hafter]; rfl⟩
    · obtain ⟨rest, hrest⟩ := ih ho
      exact ⟨rest, by rw [hrest, hafter]; rfl⟩

/-- A sink accepts a piece if and only if it fits with all pieces before it. -/
theorem Offers.accepted_iff_fits (h : Offers s pieces (before ++ o :: after)) :
    o.accepted = true ↔ (String.join (before.map (·.piece))).utf8ByteSize + o.piece.utf8ByteSize ≤ s.room := by
  induction before generalizing s pieces with
  | nil =>
    obtain ⟨rest, -, hwrite, -⟩ := h.first
    simpa using (write_sink hwrite).1
  | cons b before ih =>
    obtain ⟨rest, -, hwrite, hlater⟩ := h.earlier
    obtain ⟨hfits, hafter⟩ := write_sink hwrite
    have hfits := hfits.1 rfl
    rw [if_pos rfl] at hafter
    rw [ih hlater, hafter, List.map_cons, String.join_cons, String.utf8ByteSize_append]
    dsimp only
    omega

/-- After a refusal a sink is left with the pieces before it. -/
theorem Offers.held_of_refused (h : Offers s pieces (before ++ o :: after)) (ho : o.accepted = false) :
    (writeAll s pieces).1.held = s.held ++ String.join (before.map (·.piece)) := by
  induction before generalizing s pieces with
  | nil =>
    obtain ⟨rest, rfl, hwrite, -⟩ := h.first
    obtain ⟨-, hafter⟩ := write_sink hwrite
    rw [ho] at hwrite hafter
    rw [writeAll_cons_of_refused hwrite, hafter]
    exact String.append_empty.symm
  | cons b before ih =>
    obtain ⟨rest, rfl, hwrite, hlater⟩ := h.earlier
    obtain ⟨-, hafter⟩ := write_sink hwrite
    rw [writeAll_cons_of_accepted hwrite, ih hlater, hafter, List.map_cons, String.join_cons, ← String.append_assoc]
    rfl

theorem writeAll_sink_of_fits (h : (String.join pieces).utf8ByteSize ≤ s.room) :
    writeAll s pieces = (⟨s.held ++ String.join pieces, s.room - (String.join pieces).utf8ByteSize⟩, true) := by
  induction pieces generalizing s with
  | nil => simp [writeAll]
  | cons piece pieces ih =>
    rw [String.join_cons, String.utf8ByteSize_append] at h
    rw [writeAll_cons_of_accepted (write_of_fits (by omega)), ih (by dsimp only; omega), String.join_cons,
      String.utf8ByteSize_append, String.append_assoc, Nat.sub_sub]

theorem writeAll_sink_of_not_fits (h : s.room < (String.join pieces).utf8ByteSize) : (writeAll s pieces).2 = false := by
  induction pieces generalizing s with
  | nil => simp at h
  | cons piece pieces ih =>
    rw [String.join_cons, String.utf8ByteSize_append] at h
    by_cases hfits : piece.utf8ByteSize ≤ s.room
    · rw [writeAll_cons_of_accepted (write_of_fits hfits), ih (by dsimp only; omega)]
    · rw [writeAll_cons_of_refused (write_of_not_fits (Nat.not_le.1 hfits))]

end Sink

/-- A writer over a sink with room for `n` bytes, and the same writer with a record of what the sink is offered. The
record changes nothing. At first and after each piece that it is offered, the sink holds a beginning of the listing. It
accepts a piece if and only if it fits with those before it. After the first that it refuses it is offered no other,
and it is left with the pieces before that one. The writer finishes if and only if the listing has at most `n` bytes,
and the sink then holds the listing. -/
theorem EventWriter.feed_sink (blocks : List Block) (n : Nat) :
    let empty : Sink := ⟨"", n⟩
    let w := (start empty).feed blocks
    let recorded := (start (⟨empty, []⟩ : Recorded Sink)).feed blocks
    w = ⟨recorded.out.bare, recorded.ok⟩ ∧
    (∀ s ∈ empty :: recorded.out.offers.map (·.after), ∃ rest, s.held ++ rest = eventListing blocks) ∧
    (∀ before o after, recorded.out.offers = before ++ o :: after →
      (o.accepted = true ↔ (String.join (before.map (·.piece))).utf8ByteSize + o.piece.utf8ByteSize ≤ n) ∧
      (o.accepted = false → after = [] ∧ w.out.held = String.join (before.map (·.piece)))) ∧
    w.finish? = if (eventListing blocks).utf8ByteSize ≤ n
      then some ⟨eventListing blocks, n - (eventListing blocks).utf8ByteSize⟩ else none := by
  intro empty w recorded
  have hw : w = ⟨(writeAll empty (listingPieces blocks)).1, (writeAll empty (listingPieces blocks)).2⟩ :=
    feed_start empty blocks
  obtain ⟨offers, hoffers, hrun⟩ := writeAll_recorded empty [] (listingPieces blocks)
  have hrecorded : recorded = ⟨⟨(writeAll empty (listingPieces blocks)).1, offers⟩,
      (writeAll empty (listingPieces blocks)).2⟩ := by
    rw [show recorded = _ from feed_start _ blocks, hrun]
    rfl
  rw [hrecorded, hw, eventListing_eq]
  refine ⟨rfl, List.forall_mem_cons.2 ⟨⟨_, String.empty_append⟩, List.forall_mem_map.2 fun o ho => ?_⟩, ?_, ?_⟩
  · obtain ⟨rest, hrest⟩ := hoffers.prefix_of_sink ho
    exact ⟨rest, hrest.trans String.empty_append⟩
  · rintro before o after rfl
    refine ⟨hoffers.accepted_iff_fits, fun ho => ⟨hoffers.after_refused ho, ?_⟩⟩
    exact (hoffers.held_of_refused ho).trans String.empty_append
  · split
    · next hfits => rw [writeAll_sink_of_fits hfits, String.empty_append]; rfl
    · next hfits => rw [finish?, writeAll_sink_of_not_fits (Nat.not_le.1 hfits)]; rfl

/-- The line of a word in a sink with room for five bytes: its name does not fit, and the line feed after it would. -/
theorem EventWriter.feed_sink_word :
    let empty : Sink := ⟨"", 5⟩
    let blocks : List Block := [.leaf (.word "abc")]
    let recorded := (start (⟨empty, []⟩ : Recorded Sink)).feed blocks
    let on : Offer Sink := ⟨"on", true, ⟨"on", 3⟩⟩
    let name : Offer Sink := ⟨"Word: [abc]", false, ⟨"on", 3⟩⟩
    ⟨"on", 3⟩ ∈ empty :: recorded.out.offers.map (·.after) ∧
      (∃ rest, "on" ++ rest = eventListing blocks) ∧
      recorded.out.offers = [on] ++ name :: [] ∧
      name.accepted = false ∧
      ((start empty).feed blocks).out.held = "on" ∧
      "\n".utf8ByteSize ≤ 3 := by
  intro empty blocks recorded on name
  obtain ⟨-, hprefix, hoffer, -⟩ := feed_sink blocks 5
  have hoffers : recorded.out.offers = [on] ++ name :: [] := by decide +kernel
  have hmem : ⟨"on", 3⟩ ∈ empty :: recorded.out.offers.map (·.after) := by simp [hoffers, on]
  exact ⟨hmem, hprefix _ hmem, hoffers, rfl, ((hoffer [on] name [] hoffers).2 rfl).2, by decide⟩

end MacroDoc
