import MacroDoc.Macros.Standard
import MacroDoc.Proofs.Call.Content
import MacroDoc.Proofs.Forest.Stream
import MacroDoc.Proofs.Source.Containers

/-!
# The tree of XML events

A sequence of XML events describes a forest by itself: an element stands where its tags do, with what is described
between them as its children; text and character data stand where they are read. Reading builds that forest, or fails.

* `Xml.Balanced` : starts and ends match, with equal names;
* `Macros.Describes` : the forest that events describe;
* `Macros.Describes.events_eq` : reading such events adds the forest to the innermost open element;
* `Macros.Pending` : what is known after any part of the events, which each event keeps (`Macros.Pending.event`);
* `Macros.blocksOfReading_builds` : reading succeeds exactly if nothing is faulty and the tags match, and builds the
  forest that is described.
-/

namespace MacroDoc

namespace Xml

def Event.isBracket : Event → Bool
  | opening _ | closing _ => true
  | _ => false

/-- Starts and ends match: each end has the name of the start that it closes. -/
inductive Balanced : List Event → Prop where
  | nil : Balanced []
  | single {e : Event} (here : e.isBracket = false) : Balanced [e]
  | append {events later : List Event} (first : Balanced events) (second : Balanced later) :
      Balanced (events ++ later)
  | element {inner : List Event} (tag : Tag) (within : Balanced inner) :
      Balanced (.opening tag :: (inner ++ [.closing tag.name]))

def Event.element? : Event → Option (String × List (String × String))
  | opening tag | empty tag => tag.attributes.toOption.map (String.ofList tag.name, ·)
  | _ => none

end Xml

def Mark.element? : Mark → Option (String × List (String × String))
  | start (.element name attributes) => some (name, attributes)
  | _ => none

def Block.element? : Block → Option (String × List (String × String))
  | node (.element name attributes) _ => some (name, attributes)
  | _ => none

theorem Block.element?_eq (b : Block) : b.element? = b.head.element? := by
  rcases b with _ | ⟨c, children⟩
  · rfl
  · cases c <;> rfl

/-- A source holds no elements. -/
theorem filterMap_element?_of_parseFragment {dialect : Dialect} {source : String} {blocks : List Block}
    (h : parseFragment dialect source = .ok blocks) : (outlineOf blocks).filterMap Mark.element? = [] := by
  rw [List.filterMap_eq_nil_iff]
  intro m hm
  have hmarkup := List.all_eq_true.1 (isMarkup_parseBlocksBy h) m hm
  cases m with
  | start c => cases c <;> first | rfl | cases hmarkup
  | leaf l => rfl
  | stop => rfl

namespace Macros

/-- The event is not faulty: attributes can be read, and so can the text. -/
def Readable (dialect : Dialect) : Xml.Event → Prop
  | .opening tag | .empty tag => ∃ attributes, tag.attributes = .ok attributes
  | .text raw => ∃ text, Xml.unescape raw = .ok text ∧
      (Text.isBlankText text = true ∨ ∃ blocks, parseFragment dialect (String.ofList text) = .ok blocks)
  | _ => True

/-- The forest that events describe. -/
inductive Describes (dialect : Dialect) : List Xml.Event → List Block → Prop where
  | nil : Describes dialect [] []
  | append {events later : List Xml.Event} {blocks others : List Block} (first : Describes dialect events blocks)
      (second : Describes dialect later others) : Describes dialect (events ++ later) (blocks ++ others)
  | element {tag : Xml.Tag} {attributes : List (String × String)} {inner : List Xml.Event} {children : List Block}
      (read : tag.attributes = .ok attributes) (within : Describes dialect inner children) :
      Describes dialect (.opening tag :: (inner ++ [.closing tag.name]))
        [.node (.element (String.ofList tag.name) attributes) children]
  | empty {tag : Xml.Tag} {attributes : List (String × String)} (read : tag.attributes = .ok attributes) :
      Describes dialect [.empty tag] [.node (.element (String.ofList tag.name) attributes) []]
  | blank {raw text : List Char} (unescaped : Xml.unescape raw = .ok text) (blank : Text.isBlankText text = true) :
      Describes dialect [.text raw] []
  | text {raw text : List Char} {blocks : List Block} (unescaped : Xml.unescape raw = .ok text)
      (solid : Text.isBlankText text = false) (read : parseFragment dialect (String.ofList text) = .ok blocks) :
      Describes dialect [.text raw] blocks
  | data (content : List Char) :
      Describes dialect [.data content] [.leaf (.verbatim (String.ofList content) false)]
  | aside (content : List Char) : Describes dialect [.aside content] []

variable {dialect : Dialect} {events later : List Xml.Event} {blocks : List Block} {e e' : Elements}

/-! ## What can be described -/

theorem Describes.balanced (h : Describes dialect events blocks) : Xml.Balanced events := by
  induction h with
  | nil => exact .nil
  | append _ _ first second => exact first.append second
  | element _ _ within => exact .element _ within
  | empty | blank | text | data | aside => exact .single rfl

theorem Describes.readable (h : Describes dialect events blocks) : ∀ event ∈ events, Readable dialect event := by
  induction h with
  | nil => exact List.forall_mem_nil _
  | append _ _ first second => exact List.forall_mem_append.2 ⟨first, second⟩
  | @element tag attributes inner children read _ within =>
    exact List.forall_mem_cons.2 ⟨⟨attributes, read⟩,
      List.forall_mem_append.2 ⟨within, List.forall_mem_singleton.2 trivial⟩⟩
  | @empty tag attributes read => exact List.forall_mem_singleton.2 ⟨attributes, read⟩
  | @blank raw text unescaped blank => exact List.forall_mem_singleton.2 ⟨text, unescaped, .inl blank⟩
  | @text raw text blocks unescaped solid read =>
    exact List.forall_mem_singleton.2 ⟨text, unescaped, .inr ⟨blocks, read⟩⟩
  | data | aside => exact List.forall_mem_singleton.2 trivial

/-- An event that is no tag of an element with children describes blocks if it is not faulty. -/
theorem exists_describes_single {event : Xml.Event} (hevent : event.isBracket = false) (h : Readable dialect event) :
    ∃ blocks, Describes dialect [event] blocks := by
  cases event with
  | opening | closing => cases hevent
  | empty tag =>
    obtain ⟨attributes, read⟩ := h
    exact ⟨_, .empty read⟩
  | text raw =>
    obtain ⟨text, unescaped, hread⟩ := h
    cases hblank : Text.isBlankText text with
    | true => exact ⟨[], .blank unescaped hblank⟩
    | false =>
      obtain ⟨blocks, read⟩ := hread.resolve_left (by simp [hblank])
      exact ⟨blocks, .text unescaped hblank read⟩
  | data content => exact ⟨_, .data content⟩
  | aside content => exact ⟨_, .aside content⟩

/-- Events describe a forest exactly if none is faulty and the tags match. -/
theorem exists_describes_iff :
    (∃ blocks, Describes dialect events blocks) ↔ (∀ event ∈ events, Readable dialect event) ∧ Xml.Balanced events := by
  constructor
  · rintro ⟨blocks, h⟩
    exact ⟨h.readable, h.balanced⟩
  · rintro ⟨hread, hbalanced⟩
    induction hbalanced with
    | nil => exact ⟨[], .nil⟩
    | single here => exact exists_describes_single here (hread _ List.mem_cons_self)
    | append _ _ first second =>
      obtain ⟨hfirst, hsecond⟩ := List.forall_mem_append.1 hread
      obtain ⟨blocks, hblocks⟩ := first hfirst
      obtain ⟨others, hothers⟩ := second hsecond
      exact ⟨_, hblocks.append hothers⟩
    | element tag _ within =>
      obtain ⟨⟨attributes, read⟩, hrest⟩ := List.forall_mem_cons.1 hread
      obtain ⟨children, hchildren⟩ := within (List.forall_mem_append.1 hrest).1
      exact ⟨_, .element read hchildren⟩

/-- The elements that are described are those that the events start, in their order. -/
theorem Describes.filterMap_element? (h : Describes dialect events blocks) :
    (outlineOf blocks).filterMap Mark.element? = events.filterMap Xml.Event.element? := by
  induction h with
  | nil => rfl
  | append _ _ first second => rw [outlineOf_append, List.filterMap_append, List.filterMap_append, first, second]
  | @element tag attributes inner children read _ within =>
    have hopening : (Xml.Event.opening tag).element? = some (String.ofList tag.name, attributes) := by
      rw [Xml.Event.element?, read]
      rfl
    have hstart : (Mark.start (.element (String.ofList tag.name) attributes)).element?
        = some (String.ofList tag.name, attributes) := rfl
    rw [outlineOf_cons, outlineOf_nil, List.append_nil, Block.outline_node, List.filterMap_cons_some hstart,
      List.filterMap_cons_some hopening, List.filterMap_append, List.filterMap_append, within]
    rfl
  | @empty tag attributes read =>
    have hempty : (Xml.Event.empty tag).element? = some (String.ofList tag.name, attributes) := by
      rw [Xml.Event.element?, read]
      rfl
    rw [List.filterMap_cons_some hempty, outlineOf_cons, Block.outline_node]
    rfl
  | blank | data | aside => rfl
  | text _ _ read => exact filterMap_element?_of_parseFragment read

/-! ## Reading what is described -/

namespace Elements

@[simp] theorem append_nil (e : Elements) : e.append [] = e := by
  obtain ⟨blocks, _ | ⟨inner, outer⟩⟩ := e <;> simp [append]

theorem append_append (e : Elements) (blocks others : List Block) :
    (e.append blocks).append others = e.append (blocks ++ others) := by
  obtain ⟨top, _ | ⟨inner, outer⟩⟩ := e <;> simp [append]

theorem append_opened (e : Elements) (element : OpenElement) (blocks : List Block) :
    append { e with opened := element :: e.opened } blocks
      = { e with opened := { element with children := element.children ++ blocks } :: e.opened } :=
  rfl

theorem events_cons (e : Elements) (event : Xml.Event) (later : List Xml.Event) :
    Elements.events dialect e (event :: later) = e.event dialect event >>= (Elements.events dialect · later) :=
  List.foldlM_cons

theorem events_append (e : Elements) (events later : List Xml.Event) :
    Elements.events dialect e (events ++ later)
      = Elements.events dialect e events >>= (Elements.events dialect · later) :=
  List.foldlM_append

theorem textBlocks_eq_ok {raw : List Char} :
    textBlocks dialect raw = .ok blocks ↔ ∃ text, Xml.unescape raw = .ok text ∧
      (Text.isBlankText text = true ∧ blocks = [] ∨
        Text.isBlankText text = false ∧ parseFragment dialect (String.ofList text) = .ok blocks) := by
  unfold textBlocks
  cases Xml.unescape raw with
  | error fault => simp
  | ok text =>
    cases hblank : Text.isBlankText text with
    | true => simp [hblank]
    | false => cases hread : parseFragment dialect (String.ofList text) <;> simp [hblank, hread]

theorem event_opening {tag : Xml.Tag} {attributes : List (String × String)} (read : tag.attributes = .ok attributes)
    (e : Elements) :
    e.event dialect (.opening tag)
      = .ok { e with opened := ⟨String.ofList tag.name, attributes, []⟩ :: e.opened } := by
  rw [event, OpenElement.ofTag, read]
  rfl

theorem event_empty {tag : Xml.Tag} {attributes : List (String × String)} (read : tag.attributes = .ok attributes)
    (e : Elements) :
    e.event dialect (.empty tag) = .ok (e.append [.node (.element (String.ofList tag.name) attributes) []]) := by
  rw [event, OpenElement.ofTag, read]
  rfl

theorem event_text {raw : List Char} (read : textBlocks dialect raw = .ok blocks) (e : Elements) :
    e.event dialect (.text raw) = .ok (e.append blocks) := by
  rw [event, read]
  rfl

theorem event_closing (e : Elements) (name : List Char) (attributes : List (String × String)) (children : List Block) :
    event dialect { e with opened := ⟨String.ofList name, attributes, children⟩ :: e.opened } (.closing name)
      = .ok (e.append [.node (.element (String.ofList name) attributes) children]) := by
  rw [event]
  exact if_pos rfl

end Elements

/-- Reading events that describe a forest adds it to the innermost open element, or at top level. -/
theorem Describes.events_eq (h : Describes dialect events blocks) (e : Elements) :
    Elements.events dialect e events = .ok (e.append blocks) := by
  induction h generalizing e with
  | nil =>
    rw [Elements.append_nil]
    rfl
  | append _ _ first second =>
    rw [Elements.events_append, first, ← Elements.append_append]
    exact second _
  | @element tag attributes inner children read _ within =>
    rw [Elements.events_cons, Elements.event_opening read]
    refine (Elements.events_append _ inner [.closing tag.name]).trans ?_
    rw [within]
    refine (Elements.events_cons _ _ []).trans ?_
    rw [Elements.append_opened, List.nil_append, Elements.event_closing]
    rfl
  | empty read =>
    rw [Elements.events_cons, Elements.event_empty read]
    rfl
  | blank unescaped blank =>
    have hread := (@Elements.textBlocks_eq_ok dialect []).2 ⟨_, unescaped, .inl ⟨blank, rfl⟩⟩
    rw [Elements.events_cons, Elements.event_text hread]
    rfl
  | text unescaped solid read =>
    have hread := Elements.textBlocks_eq_ok.2 ⟨_, unescaped, .inr ⟨solid, read⟩⟩
    rw [Elements.events_cons, Elements.event_text hread]
    rfl
  | data content => rfl
  | aside content =>
    rw [Elements.append_nil]
    rfl

/-! ## What has been read -/

/-- What events stand for of which no end is missing but those of the open elements: finished top-level blocks, and then
for each open element its start and what has been read inside of it. -/
inductive Pending (dialect : Dialect) : List Xml.Event → Elements → Prop where
  | top {events : List Xml.Event} {blocks : List Block} (here : Describes dialect events blocks) :
      Pending dialect events ⟨blocks, []⟩
  | inside {before inner : List Xml.Event} {blocks children : List Block} {outer : List OpenElement} {tag : Xml.Tag}
      {attributes : List (String × String)} (outside : Pending dialect before ⟨blocks, outer⟩)
      (read : tag.attributes = .ok attributes) (here : Describes dialect inner children) :
      Pending dialect (before ++ .opening tag :: inner)
        ⟨blocks, ⟨String.ofList tag.name, attributes, children⟩ :: outer⟩

namespace Pending

/-- Events that describe a forest add it to the innermost open element, or at top level. -/
theorem append (h : Pending dialect events e) (h' : Describes dialect later blocks) :
    Pending dialect (events ++ later) (e.append blocks) := by
  cases h with
  | top here => exact .top (here.append h')
  | inside outside read here =>
    rw [List.append_assoc]
    exact .inside outside read (here.append h')

theorem event {event : Xml.Event} (h : Pending dialect events e) (hevent : e.event dialect event = .ok e') :
    Pending dialect (events ++ [event]) e' := by
  cases event with
  | opening tag =>
    cases hread : tag.attributes with
    | error fault => simp [Elements.event, OpenElement.ofTag, hread, Except.map] at hevent
    | ok attributes =>
      rw [Elements.event_opening hread] at hevent
      obtain rfl := Except.ok.inj hevent
      exact .inside h hread .nil
  | empty tag =>
    cases hread : tag.attributes with
    | error fault => simp [Elements.event, OpenElement.ofTag, hread, Except.map] at hevent
    | ok attributes =>
      rw [Elements.event_empty hread] at hevent
      obtain rfl := Except.ok.inj hevent
      exact h.append (.empty hread)
  | closing name =>
    cases h with
    | top here => cases hevent
    | @inside before inner blocks children outer tag attributes outside read here =>
      simp only [Elements.event] at hevent
      split at hevent
      · next hname =>
        obtain rfl := Except.ok.inj hevent
        obtain rfl : tag.name = name := String.ofList_injective hname
        have helement := outside.append (.element read here)
        simpa [OpenElement.close] using helement
      · cases hevent
  | text raw =>
    cases hread : Elements.textBlocks dialect raw with
    | error fault => simp [Elements.event, hread, Except.map] at hevent
    | ok blocks =>
      rw [Elements.event_text hread] at hevent
      obtain rfl := Except.ok.inj hevent
      obtain ⟨text, unescaped, ⟨blank, rfl⟩ | ⟨solid, read⟩⟩ := Elements.textBlocks_eq_ok.1 hread
      · exact h.append (.blank unescaped blank)
      · exact h.append (.text unescaped solid read)
  | data content =>
    obtain rfl := Except.ok.inj hevent
    exact h.append (.data content)
  | aside content =>
    obtain rfl := Except.ok.inj hevent
    simpa using h.append (.aside content)

/-- Any number of events are read. -/
theorem of_events (h : Pending dialect events e) (hlater : Elements.events dialect e later = .ok e') :
    Pending dialect (events ++ later) e' := by
  induction later generalizing events e with
  | nil =>
    obtain rfl := Except.ok.inj hlater
    rwa [List.append_nil]
  | cons event later ih =>
    rw [Elements.events_cons] at hlater
    cases hevent : e.event dialect event with
    | error fault =>
      rw [hevent] at hlater
      cases hlater
    | ok next =>
      rw [hevent] at hlater
      rw [List.append_cons]
      exact ih (h.event hevent) hlater

/-- Where no element is open, a forest has been described. -/
theorem describes (h : Pending dialect events ⟨blocks, []⟩) : Describes dialect events blocks := by
  cases h with
  | top here => exact here

end Pending

/-- Reading succeeds exactly with the forest that the events describe, if no fault ends them. -/
theorem blocksOfReading_eq_ok {reading : Xml.Reading} :
    blocksOfReading dialect reading = .ok blocks ↔
      reading.fault? = none ∧ Describes dialect reading.events blocks := by
  constructor
  · intro h
    unfold blocksOfReading at h
    split at h
    · cases h
    · next elements helements =>
      split at h
      · cases h
      · cases h
      · next hfault hopened =>
        obtain rfl := Except.ok.inj h
        obtain ⟨blocks, opened⟩ := elements
        obtain rfl : opened = [] := hopened
        have hstart : Pending dialect [] ⟨[], []⟩ := .top .nil
        have hpending := hstart.of_events helements
        exact ⟨hfault, hpending.describes⟩
  · rintro ⟨hfault, h⟩
    have hevents : Elements.events dialect ⟨[], []⟩ reading.events = .ok ⟨blocks, []⟩ := h.events_eq ⟨[], []⟩
    rw [blocksOfReading, hevents]
    dsimp only
    rw [hfault]

/-- Reading XML builds the element tree of its events, whatever they are. It yields blocks exactly if no fault ends the
events, no event is faulty, and starts and ends match with equal names; in all other cases it yields an error and no
blocks. The blocks are the forest that the events describe and no other, and its elements in document order are those
that the events start, with their attributes. -/
theorem blocksOfReading_builds (dialect : Dialect) (reading : Xml.Reading) :
    ((∃ blocks, blocksOfReading dialect reading = .ok blocks) ↔
      reading.fault? = none ∧ (∀ event ∈ reading.events, Readable dialect event) ∧ Xml.Balanced reading.events) ∧
    ∀ blocks,
      (blocksOfReading dialect reading = .ok blocks ↔
        reading.fault? = none ∧ Describes dialect reading.events blocks) ∧
      (blocksOfReading dialect reading = .ok blocks →
        (walk blocks).filterMap (·.block.element?) = reading.events.filterMap Xml.Event.element?) := by
  refine ⟨?_, fun blocks => ⟨blocksOfReading_eq_ok, fun h => ?_⟩⟩
  · rw [← exists_describes_iff, ← exists_and_left]
    exact exists_congr fun blocks => blocksOfReading_eq_ok
  · have hdescribes := (blocksOfReading_eq_ok.1 h).2
    simp only [Block.element?_eq]
    rw [filterMap_walk rfl, hdescribes.filterMap_element?]

/-- A paragraph with text, an empty element and character data in it, and a comment after it. If a fault ends the same
events, nothing is read. -/
theorem blocksOfReading_builds_paragraph :
    let inside : List Xml.Event := [.text "x &lt;".toList, .empty ⟨"br".toList, []⟩, .data "y".toList]
    let paragraph : Xml.Tag := ⟨"p".toList, " a='1'".toList⟩
    let events : List Xml.Event := .opening paragraph :: (inside ++ [.closing "p".toList, .aside "!----".toList])
    let children : List Block := [.node .paragraph [.leaf (.word "x"), .leaf .space, .leaf (.symbol '<')],
      .node (.element "br" []) [], .leaf (.verbatim "y" false)]
    blocksOfReading .default ⟨events, none⟩ = .ok [.node (.element "p" [("a", "1")]) children] ∧
      (walk [.node (.element "p" [("a", "1")]) children]).filterMap (·.block.element?)
        = events.filterMap Xml.Event.element? ∧
      ¬ ∃ blocks, blocksOfReading .default ⟨events, some .unclosedTag⟩ = .ok blocks := by
  intro inside paragraph events children
  have hparagraph : paragraph.attributes = .ok [("a", "1")] := by decide +kernel
  have htext : Xml.unescape "x &lt;".toList = .ok "x <".toList := by decide +kernel
  have hfragment : parseFragment .default (String.ofList "x <".toList)
      = .ok [.node .paragraph [.leaf (.word "x"), .leaf .space, .leaf (.symbol '<')]] := by decide +kernel
  have hinside : Describes .default inside children :=
    .append (.text htext (by decide) hfragment) (.append (.empty (by decide +kernel)) (.data "y".toList))
  have hread : blocksOfReading .default ⟨events, none⟩ = .ok [.node (.element "p" [("a", "1")]) children] :=
    ((blocksOfReading_builds .default ⟨events, none⟩).2 _).1.2
      ⟨rfl, .append (.element hparagraph hinside) (.aside "!----".toList)⟩
  refine ⟨hread, ((blocksOfReading_builds .default ⟨events, none⟩).2 _).2 hread, fun hblocks => ?_⟩
  exact Option.some_ne_none _ ((blocksOfReading_builds .default ⟨events, some .unclosedTag⟩).1.1 hblocks).1

end Macros

end MacroDoc
