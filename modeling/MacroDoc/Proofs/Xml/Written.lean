import MacroDoc.Proofs.Xml.Attribute
import MacroDoc.Proofs.Xml.Tree

/-!
# Written elements

A tree of elements is read from its markup as it is. The markup has a line feed after every tag, which is blank text
between tags and leaves no trace.

* `Block.IsElementTree` : elements all the way down, with names that need no care;
* `Xml.InsideTag` : what may stand in a tag without ending it;
* `Xml.Yields` : what a text adds to the events of what comes after it;
* `Macros.Rereads.of_isElementTree` : the markup of a tree yields events that describe the tree;
* `Macros.parseXhtml_markup` : the macro reads the tree from its markup.
-/

namespace MacroDoc

/-- An element whose descendants are all elements. Names need no care, and no element has an attribute twice. -/
inductive Block.IsElementTree : Block → Prop where
  | element {name : String} {attributes : List (String × String)} {children : List Block} (hname : IsLetters name)
      (hkeys : ∀ entry ∈ attributes, IsLetters entry.1) (hnodup : (attributes.map Prod.fst).Nodup)
      (hchildren : ∀ child ∈ children, child.IsElementTree) :
      IsElementTree (.node (.element name attributes) children)

namespace Xml

variable {text rest within : List Char} {events : List Event} {opened opened' : List (List Char)}

/-! ## Where a written tag ends -/

/-- No tag ends in the text, which is outside of quotes at both ends. -/
def InsideTag (text : List Char) : Prop :=
  ∀ rest, tagEnd? none (text ++ rest) = (tagEnd? none rest).map (· + text.length)

theorem InsideTag.nil : InsideTag [] := fun rest => by simp

theorem InsideTag.append (h : InsideTag text) (h' : InsideTag rest) : InsideTag (text ++ rest) := by
  intro after
  rw [List.append_assoc, h, h', Option.map_map, List.length_append]
  congr 1
  funext n
  simp only [Function.comp_apply]
  omega

theorem InsideTag.single {c : Char} (hend : c ≠ '>') (hdouble : c ≠ '"') (hsingle : c ≠ '\'') : InsideTag [c] := by
  intro rest
  simp [tagEnd?, hend, hdouble, hsingle]

theorem InsideTag.of_forall (h : ∀ c ∈ text, InsideTag [c]) : InsideTag text := by
  induction text with
  | nil => exact .nil
  | cons c cs ih =>
    obtain ⟨hc, hcs⟩ := List.forall_mem_cons.1 h
    exact hc.append (ih hcs)

theorem tagEnd?_quoted {value : List Char} (h : ∀ c ∈ value, c ≠ '"') (rest : List Char) :
    tagEnd? (some '"') (value ++ '"' :: rest) = (tagEnd? none rest).map (· + (value.length + 1)) := by
  induction value with
  | nil => simp [tagEnd?]
  | cons c value ih =>
    obtain ⟨hc, hvalue⟩ := List.forall_mem_cons.1 h
    rw [List.cons_append, tagEnd?]
    simp only [if_neg hc, ih hvalue, Option.map_map]
    congr 1

theorem InsideTag.quoted {value : List Char} (h : ∀ c ∈ value, c ≠ '"') : InsideTag ('"' :: (value ++ ['"'])) := by
  intro rest
  have hopen : tagEnd? none ('"' :: (value ++ '"' :: rest))
      = (tagEnd? (some '"') (value ++ '"' :: rest)).map (· + 1) := by
    simp [tagEnd?]
  rw [List.cons_append, List.append_assoc, List.singleton_append, hopen, tagEnd?_quoted h, Option.map_map,
    List.length_cons, List.length_append, List.length_singleton]
  rfl

theorem InsideTag.letters (h : ∀ c ∈ text, c.isAlpha = true) : InsideTag text :=
  .of_forall fun c hc => .single (ne_of_isAlpha (h c hc) rfl) (ne_of_isAlpha (h c hc) rfl) (ne_of_isAlpha (h c hc) rfl)

theorem InsideTag.writtenAttribute {entry : String × String} (h : IsLetters entry.1) :
    InsideTag (writtenAttribute entry) := by
  have hblank : InsideTag [' '] := .single (by decide) (by decide) (by decide)
  have hequals : InsideTag ['='] := .single (by decide) (by decide) (by decide)
  exact hblank.append ((letters h.2).append (hequals.append (quoted fun _ => ne_quote_of_mem_escapeAttribute)))

theorem InsideTag.writtenAttributes {attributes : List (String × String)}
    (h : ∀ entry ∈ attributes, IsLetters entry.1) : InsideTag (attributes.flatMap MacroDoc.writtenAttribute) := by
  induction attributes with
  | nil => exact .nil
  | cons entry attributes ih =>
    obtain ⟨hentry, hattributes⟩ := List.forall_mem_cons.1 h
    exact (writtenAttribute hentry).append (ih hattributes)

theorem markupEnd_of_insideTag (h : InsideTag within) (hhead : ∀ c ∈ within.head?, c ≠ '!' ∧ c ≠ '?')
    (rest : List Char) : markupEnd (within ++ '>' :: rest) = .ok within.length := by
  have hend : tagEnd? none (within ++ '>' :: rest) = some within.length := by
    rw [h]
    simp [tagEnd?]
  cases within with
  | nil => rfl
  | cons c cs =>
    obtain ⟨hbang, hquestion⟩ := hhead c rfl
    rw [markupEnd, hend]
    all_goals simp [hbang, hquestion]

/-! ## The tags of a written element -/

def Tag.content (tag : Tag) : List Char :=
  tag.name ++ tag.rest

def Tag.written (name : String) (attributes : List (String × String)) : Tag :=
  ⟨name.toList, attributes.flatMap MacroDoc.writtenAttribute⟩

section Written

variable {name : String} {attributes : List (String × String)}

theorem Tag.attributes_written (hkeys : ∀ entry ∈ attributes, IsLetters entry.1)
    (hnodup : (attributes.map Prod.fst).Nodup) : (Tag.written name attributes).attributes = .ok attributes :=
  readAttributes_written hkeys hnodup _

theorem Tag.ofContent_written (hname : IsLetters name) :
    Tag.ofContent (Tag.written name attributes).content = Tag.written name attributes := by
  have hrun : ∀ c ∈ name.toList, (!isBlank c) = true := fun c hc => by rw [isBlank_of_isAlpha (hname.2 c hc)]; rfl
  have hstop : ∀ c ∈ (attributes.flatMap MacroDoc.writtenAttribute).head?, (!isBlank c) = false := by
    cases attributes with
    | nil => simp
    | cons entry attributes => simp [MacroDoc.writtenAttribute, isBlank]
  rw [Tag.ofContent, Tag.content, Tag.written, takeWhile_append_stop hrun hstop, dropWhile_append_stop hrun hstop]

theorem InsideTag.content_written (hname : IsLetters name) (hkeys : ∀ entry ∈ attributes, IsLetters entry.1) :
    InsideTag (Tag.written name attributes).content :=
  (letters hname.2).append (writtenAttributes hkeys)

theorem Tag.exists_content_written (hname : IsLetters name) (attributes : List (String × String)) :
    ∃ c cs, (Tag.written name attributes).content = c :: cs ∧ c.isAlpha = true := by
  obtain ⟨c, cs, heq, hc, -⟩ := hname.exists_cons
  exact ⟨c, _, by rw [Tag.content, Tag.written, heq, List.cons_append], hc⟩

theorem Tag.head?_content_written (hname : IsLetters name) (attributes : List (String × String)) (mark : List Char) :
    ∀ c ∈ ((Tag.written name attributes).content ++ mark).head?, c ≠ '!' ∧ c ≠ '?' := by
  obtain ⟨c, cs, heq, hc⟩ := Tag.exists_content_written hname attributes
  rw [heq]
  rintro _ ⟨⟩
  exact ⟨ne_of_isAlpha hc rfl, ne_of_isAlpha hc rfl⟩

/-- A tag ends with its name or with a quote, so that it is told from the tag of an empty element. -/
theorem Tag.not_isSuffix_content_written (hname : IsLetters name) :
    ¬ ['/'] <:+ (Tag.written name attributes).content := by
  rintro ⟨front, hfront⟩
  rw [Tag.content, Tag.written] at hfront
  -- without attributes the last character is one of the name, else it is the quote of the last value
  rcases List.eq_nil_or_concat attributes with rfl | ⟨others, last, rfl⟩
  · have hslash : '/' ∈ name.toList := by
      rw [← List.append_nil name.toList]
      exact hfront ▸ List.mem_append_right _ List.mem_cons_self
    exact absurd (hname.2 _ hslash) (by decide)
  · have hlast : front ++ ['/']
        = (name.toList ++ others.flatMap MacroDoc.writtenAttribute ++ ' ' :: (last.1.toList ++ '=' :: '"' ::
          escapeAttribute last.2.toList)) ++ ['"'] := by
      rw [hfront]
      simp [MacroDoc.writtenAttribute]
    cases List.append_inj_right' hlast rfl

theorem markupEvent_of_isAlpha {c : Char} (hc : c.isAlpha = true) (cs : List Char) (opened : List (List Char)) :
    markupEvent opened (c :: cs) = match Text.dropEnd? ['/'] (c :: cs) with
      | some content => .ok (.empty (.ofContent content), opened)
      | none => .ok (.opening (.ofContent (c :: cs)), (Tag.ofContent (c :: cs)).name :: opened) := by
  have hne (d : Char) (hd : d.isAlpha = false) (after : List Char) : c :: cs ≠ d :: after := fun h =>
    ne_of_isAlpha hc hd (List.cons.inj h).1
  unfold markupEvent
  split
  · next h => exact absurd h (hne '!' rfl _)
  · next h => exact absurd h (hne '?' rfl _)
  · next h => exact absurd h (hne '/' rfl _)
  · rfl

theorem markupEvent_opening (hname : IsLetters name) (attributes : List (String × String))
    (opened : List (List Char)) :
    markupEvent opened (Tag.written name attributes).content
      = .ok (.opening (Tag.written name attributes), name.toList :: opened) := by
  obtain ⟨c, cs, heq, hc⟩ := Tag.exists_content_written hname attributes
  have hopen : Text.dropEnd? ['/'] (c :: cs) = none := by
    rw [Text.dropEnd?, if_neg]
    rw [List.isSuffixOf_iff_suffix, ← heq]
    exact Tag.not_isSuffix_content_written hname
  rw [heq, markupEvent_of_isAlpha hc, hopen, ← heq, Tag.ofContent_written hname]
  rfl

theorem markupEvent_empty (hname : IsLetters name) (attributes : List (String × String))
    (opened : List (List Char)) :
    markupEvent opened ((Tag.written name attributes).content ++ ['/'])
      = .ok (.empty (Tag.written name attributes), opened) := by
  obtain ⟨c, cs, heq, hc⟩ := Tag.exists_content_written hname attributes
  have hempty : Text.dropEnd? ['/'] (c :: (cs ++ ['/'])) = some (c :: cs) := by
    have hsuffix : (['/'].isSuffixOf (c :: (cs ++ ['/']))) = true :=
      List.isSuffixOf_iff_suffix.2 (List.suffix_append (c :: cs) ['/'])
    rw [Text.dropEnd?, if_pos hsuffix]
    simp
  rw [heq, List.cons_append, markupEvent_of_isAlpha hc, hempty, ← heq]
  simp only [Tag.ofContent_written hname]

theorem trimName_letters (hname : IsLetters name) : trimName name.toList = name.toList := by
  have hreverse : name.toList.reverse.dropWhile isBlank = name.toList.reverse := by
    refine @dropWhile_append_stop isBlank [] _ (List.forall_mem_nil _) fun c hc => ?_
    exact isBlank_of_isAlpha (hname.2 c (List.mem_reverse.1 (List.mem_of_mem_head? hc)))
  rw [trimName, hreverse, List.reverse_reverse, ite_self]

theorem markupEvent_closing (hname : IsLetters name) (outer : List (List Char)) :
    markupEvent (name.toList :: outer) ('/' :: name.toList) = .ok (.closing name.toList, outer) := by
  simp [markupEvent, trimName_letters hname]

end Written

/-! ## Reading on -/

/-- The text is at its end, or goes on with markup. -/
def AtMarkup (text : List Char) : Prop :=
  ∀ c ∈ text.head?, c = '<'

theorem AtMarkup.append (h : AtMarkup text) (h' : AtMarkup rest) : AtMarkup (text ++ rest) := by
  cases text with
  | nil => exact h'
  | cons c text => exact h

def Reading.after (events : List Event) (r : Reading) : Reading :=
  { r with events := events ++ r.events }

theorem Reading.after_after (events others : List Event) (r : Reading) :
    (r.after others).after events = r.after (events ++ others) := by
  simp [after]

/-- Text before markup, or at the end, is one event. -/
theorem readFrom_append (hplain : ∀ c ∈ text, c ≠ '<') (hrest : AtMarkup rest) (opened : List (List Char)) :
    readFrom opened (text ++ rest) = .pushText text (readFrom opened rest) := by
  have hrun : ∀ c ∈ text, decide (c ≠ '<') = true := by simpa using hplain
  have hstop : ∀ c ∈ rest.head?, decide (c ≠ '<') = false := by simpa [AtMarkup] using hrest
  have hdrop := dropWhile_append_stop hrun hstop
  rw [readFrom, readFrom, takeWhile_append_stop hrun hstop]
  split
  · next h =>
    obtain rfl := hdrop.symm.trans h
    rfl
  · next c markup h =>
    obtain rfl := hdrop.symm.trans h
    obtain rfl := hrest c rfl
    rfl

theorem readFrom_tag {event : Event} (h : InsideTag within) (hhead : ∀ c ∈ within.head?, c ≠ '!' ∧ c ≠ '?')
    (hevent : markupEvent opened within = .ok (event, opened')) (rest : List Char) :
    readFrom opened ('<' :: (within ++ '>' :: rest)) = (readFrom opened' rest).push event := by
  rw [readFrom]
  split
  · next heq => cases heq
  · next heq =>
    obtain ⟨-, rfl⟩ := List.cons.inj heq
    have htake : (within ++ '>' :: rest).take within.length = within := List.take_left
    have hdrop : (within ++ '>' :: rest).drop (within.length + 1) = rest := by simp
    have hplain : ('<' :: (within ++ '>' :: rest)).takeWhile (· ≠ '<') = [] := rfl
    simp only [markupEnd_of_insideTag h hhead, htake, hdrop, hevent, hplain]
    rfl

/-- Reading the text in front of markup, or of the end, gives the events before all others. In front of plain text its
last event could run on. -/
def Yields (text : List Char) (events : List Event) : Prop :=
  ∀ opened rest, AtMarkup rest → readFrom opened (text ++ rest) = (readFrom opened rest).after events

theorem Yields.nil : Yields [] [] := fun _ _ _ => rfl

theorem Yields.append {later : List Char} {others : List Event} (h : Yields text events) (hmarkup : AtMarkup later)
    (hlater : Yields later others) : Yields (text ++ later) (events ++ others) := by
  intro opened rest hrest
  rw [List.append_assoc, h opened _ (hmarkup.append hrest), hlater opened rest hrest, Reading.after_after]

/-- The events of a text that begins with markup, or is empty. -/
theorem read_of_yields (hmarkup : AtMarkup text) (h : Yields text events) : read text = ⟨events, none⟩ := by
  have hmark : Text.dropStart? ['\uFEFF'] text = none := by
    cases text with
    | nil => rfl
    | cons c text =>
      obtain rfl := hmarkup c rfl
      rfl
  have hend : readFrom [] [] = ⟨[], none⟩ := by
    rw [readFrom]
    rfl
  rw [read, hmark, Option.getD_none, ← List.append_nil text, h [] [] (by simp [AtMarkup]), hend, Reading.after,
    List.append_nil]

def lineEnd : Event :=
  .text ['\n']

theorem readFrom_tagLine {event : Event} (h : InsideTag within) (hhead : ∀ c ∈ within.head?, c ≠ '!' ∧ c ≠ '?')
    (hevent : markupEvent opened within = .ok (event, opened')) (hrest : AtMarkup rest) :
    readFrom opened ('<' :: (within ++ '>' :: '\n' :: rest)) = (readFrom opened' rest).after [event, lineEnd] := by
  have hplain : ∀ c ∈ ['\n'], c ≠ '<' := by simp
  have hline := readFrom_append hplain hrest opened'
  rw [readFrom_tag h hhead hevent]
  change (readFrom opened' (['\n'] ++ rest)).push event = _
  rw [hline]
  rfl

section Written

variable {name : String} {attributes : List (String × String)}

theorem Yields.empty (hname : IsLetters name) (hkeys : ∀ entry ∈ attributes, IsLetters entry.1) :
    Yields (MacroDoc.writtenTag name attributes ++ ['/', '>', '\n']) [.empty (.written name attributes), lineEnd] := by
  intro opened rest hrest
  have hslash : InsideTag ['/'] := .single (by decide) (by decide) (by decide)
  have htext : MacroDoc.writtenTag name attributes ++ ['/', '>', '\n'] ++ rest
      = '<' :: ((Tag.written name attributes).content ++ ['/'] ++ '>' :: '\n' :: rest) := by
    simp [writtenTag_eq, Tag.content, Tag.written]
  rw [htext]
  exact readFrom_tagLine ((InsideTag.content_written hname hkeys).append hslash)
    (Tag.head?_content_written hname attributes ['/']) (markupEvent_empty hname attributes opened) hrest

theorem Yields.element (hname : IsLetters name) (hkeys : ∀ entry ∈ attributes, IsLetters entry.1)
    {inner : List Char} (hmarkup : AtMarkup inner) (h : Yields inner events) :
    Yields (MacroDoc.writtenTag name attributes ++ '>' :: '\n' :: inner ++ '<' :: '/' :: name.toList ++ ['>', '\n'])
      (.opening (.written name attributes) :: lineEnd :: (events ++ [.closing name.toList, lineEnd])) := by
  intro opened rest hrest
  -- the element stays open while its inner text is read, and its own end takes it off again
  have hslash : InsideTag ['/'] := .single (by decide) (by decide) (by decide)
  have htext : MacroDoc.writtenTag name attributes ++ '>' :: '\n' :: inner ++ '<' :: '/' :: name.toList ++ ['>', '\n']
      ++ rest = '<' :: ((Tag.written name attributes).content ++ [] ++ '>' :: '\n' ::
        (inner ++ '<' :: ('/' :: name.toList ++ '>' :: '\n' :: rest))) := by
    simp [writtenTag_eq, Tag.content, Tag.written]
  have hclosing : readFrom (name.toList :: opened) ('<' :: ('/' :: name.toList ++ '>' :: '\n' :: rest))
      = (readFrom opened rest).after [.closing name.toList, lineEnd] :=
    readFrom_tagLine (hslash.append (.letters hname.2)) (by simp) (markupEvent_closing hname opened) hrest
  have hend : AtMarkup ('<' :: ('/' :: name.toList ++ '>' :: '\n' :: rest)) := by simp [AtMarkup]
  rw [htext, readFrom_tagLine ((InsideTag.content_written hname hkeys).append .nil)
    (Tag.head?_content_written hname attributes []) (by rw [List.append_nil, markupEvent_opening hname])
    (hmarkup.append hend), h _ _ hend, hclosing, Reading.after_after, Reading.after_after]
  rfl

end Written

end Xml

namespace Macros

variable {dialect : Dialect} {text later : List Char} {blocks others : List Block}

/-! ## Trees of elements -/

/-- The text yields events that describe the blocks, and may stand after other markup. -/
def Rereads (dialect : Dialect) (text : List Char) (blocks : List Block) : Prop :=
  Xml.AtMarkup text ∧ ∃ events, Xml.Yields text events ∧ Describes dialect events blocks

theorem Rereads.nil : Rereads dialect [] [] :=
  ⟨by simp [Xml.AtMarkup], [], .nil, .nil⟩

theorem Rereads.append (h : Rereads dialect text blocks) (h' : Rereads dialect later others) :
    Rereads dialect (text ++ later) (blocks ++ others) := by
  obtain ⟨hmarkup, events, hyields, hdescribes⟩ := h
  obtain ⟨hmarkup', events', hyields', hdescribes'⟩ := h'
  exact ⟨hmarkup.append hmarkup', _, hyields.append hmarkup' hyields', hdescribes.append hdescribes'⟩

/-- A forest is read from the markup of its blocks, if each of them is. -/
theorem Rereads.forest (h : ∀ b ∈ blocks, Rereads dialect b.written [b]) :
    Rereads dialect (writtenEach blocks).flatten blocks := by
  induction blocks with
  | nil => exact .nil
  | cons b blocks ih =>
    obtain ⟨hb, hblocks⟩ := List.forall_mem_cons.1 h
    exact hb.append (ih hblocks)

theorem describes_lineEnd : Describes dialect [Xml.lineEnd] [] :=
  .blank (Xml.unescape_escapeAttribute ['\n']) (by decide)

theorem Rereads.element {name : String} {attributes : List (String × String)} (hname : IsLetters name)
    (hkeys : ∀ entry ∈ attributes, IsLetters entry.1) (hnodup : (attributes.map Prod.fst).Nodup)
    (h : Rereads dialect (writtenEach blocks).flatten blocks) :
    Rereads dialect (Block.node (.element name attributes) blocks).written
      [.node (.element name attributes) blocks] := by
  obtain ⟨hmarkup, events, hyields, hdescribes⟩ := h
  have hread : (Xml.Tag.written name attributes).attributes = .ok attributes :=
    Xml.Tag.attributes_written hkeys hnodup
  have hblock : String.ofList (Xml.Tag.written name attributes).name = name := String.ofList_toList
  cases blocks with
  | nil =>
    refine ⟨by simp [Block.written, Container.written, writtenEach, writtenTag_eq, Xml.AtMarkup], _,
      .empty hname hkeys, ?_⟩
    have hempty := (Describes.empty hread).append (@describes_lineEnd dialect)
    rwa [hblock] at hempty
  | cons b blocks =>
    have helement := (Describes.element hread (describes_lineEnd.append hdescribes)).append describes_lineEnd
    rw [hblock] at helement
    refine ⟨by simp [Block.written, Container.written, writtenEach, writtenTag_eq, Xml.AtMarkup], _,
      .element hname hkeys hmarkup hyields, ?_⟩
    simpa [Xml.Tag.written] using helement

/-- Every tree of elements is read from its markup. -/
theorem Rereads.of_isElementTree (dialect : Dialect) {b : Block} (h : b.IsElementTree) :
    Rereads dialect b.written [b] := by
  induction h with
  | element hname hkeys hnodup _ ih => exact .element hname hkeys hnodup (.forest ih)

/-- A tree of elements is read from its markup as it is, whatever the values of its attributes are. -/
theorem parseXhtml_markup (dialect : Dialect) {b : Block} (h : b.IsElementTree) :
    parseXhtml dialect b.markup = .ok [b] := by
  obtain ⟨hmarkup, events, hyields, hdescribes⟩ := Rereads.of_isElementTree dialect h
  rw [parseXhtml, Block.markup, String.toList_ofList, Xml.read_of_yields hmarkup hyields, blocksOfReading_eq_ok]
  exact ⟨rfl, hdescribes⟩

/-- An element two levels down with an empty value and one that has all the characters with a meaning in XML. -/
theorem parseXhtml_markup_nested :
    let cell : Block := .node (.element "td" [("title", "a \"b\" & <c/>\n&quot; d'"), ("class", "")]) []
    let table : Block := .node (.element "table" [("border", "1")]) [.node (.element "tr" []) [cell, cell]]
    table.IsElementTree ∧ cell.markup = "<td title=\"a &quot;b&quot; &amp; <c/>\n&amp;quot; d'\" class=\"\"/>\n" ∧
      parseXhtml Dialect.default table.markup = .ok [table] := by
  intro cell table
  have hcell : cell.IsElementTree := .element (by decide) (by decide) (by decide) (List.forall_mem_nil _)
  have hrow : Block.IsElementTree (.node (.element "tr" []) [cell, cell]) :=
    .element (by decide) (List.forall_mem_nil _) (by decide) (by simpa using hcell)
  have htable : table.IsElementTree :=
    .element (by decide) (by decide) (by decide) (List.forall_mem_singleton.2 hrow)
  exact ⟨htable, by decide, parseXhtml_markup Dialect.default htable⟩

end Macros

end MacroDoc
