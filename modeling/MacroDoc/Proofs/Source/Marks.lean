import MacroDoc.Proofs.Source.Building

/-!
# Marks of event sequences

A sequence of Markdown events says by itself what it stands for, without a tree that is built from it: consecutive
pieces of text are one text, a block of code is one leaf, and any other event is one mark, or the leaves of its text.

* `marksOf` : the marks of a sequence of events, read from left to right;
* `ClosesCode` : every block of code is closed, with only text inside;
* `Nested` : starts and ends match like brackets;
* `balance_marksOf` : then so do the marks;
* `filter_marksOf` : containers start and end among the marks as among the events.
-/

namespace MacroDoc

open Markdown (Tag)

/-! ## Marks of events -/

def leadingTexts : List Markdown.Event → List (List Char)
  | .text text :: rest => text :: leadingTexts rest
  | _ => []

def afterTexts : List Markdown.Event → List Markdown.Event
  | .text _ :: rest => afterTexts rest
  | events => events

theorem texts_append_afterTexts (events : List Markdown.Event) :
    (leadingTexts events).map .text ++ afterTexts events = events := by
  fun_induction leadingTexts events with
  | case1 text rest ih => rw [List.map_cons, List.cons_append, afterTexts, ih]
  | case2 events h =>
    unfold afterTexts
    split
    · next text rest => exact absurd rfl (h text rest)
    · rfl

theorem length_afterTexts (events : List Markdown.Event) : (afterTexts events).length ≤ events.length := by
  have h := congrArg List.length (texts_append_afterTexts events)
  rw [List.length_append] at h
  omega

theorem ne_text_afterTexts (events : List Markdown.Event) :
    ∀ text rest, afterTexts events ≠ .text text :: rest := by
  fun_induction afterTexts events with
  | case1 text rest ih => exact ih
  | case2 events h => exact fun text rest he => h text rest he

def Markdown.Tag.container? (calls : List CutCall) : Tag → Option Container
  | .paragraph => some .paragraph
  | .heading level => some (.heading level)
  | .quotation => some .quotation
  | .list ordered => some (.list ordered)
  | .item => some .listItem
  | .emphasis => some (.format .italic)
  | .strong => some (.format .bold)
  | .strikethrough => some (.format .strikethrough)
  | .link destination => some (.link (String.ofList (writtenText calls destination)))
  | .codeBlock => none
  | .htmlBlock => some .group

def Markdown.Event.bracket? (calls : List CutCall) : Markdown.Event → Option Mark
  | .enter tag => (tag.container? calls).map .start
  | .leave .codeBlock => none
  | .leave _ => some .stop
  | _ => none

def Markdown.Event.leaves (calls : List CutCall) : Markdown.Event → List Leaf
  | .code content => [.verbatim (String.ofList (writtenText calls content)) true]
  | .html content => (textLeaves calls content).1
  | .lineBreak => [.newLine]
  | .rule => [.horizontalLine]
  | _ => []

def Markdown.Event.callsAfter (calls : List CutCall) : Markdown.Event → List CutCall
  | .enter (.link destination) => takeText calls destination
  | .code content => takeText calls content
  | .html content => (textLeaves calls content).2
  | _ => calls

/-- The marks of a sequence of events. A run of text is joined before it is split into words. A block of code takes the
run of text up to its end, each piece of it with its calls put back. -/
def marksOf (calls : List CutCall) (events : List Markdown.Event) : List Mark :=
  match events with
  | [] => []
  | .text text :: rest =>
    let added := textLeaves calls (text ++ (leadingTexts rest).flatten)
    added.1.map .leaf ++ marksOf added.2 (afterTexts rest)
  | .enter .codeBlock :: rest =>
    let texts := leadingTexts rest
    let content := Text.dropTrailing '\n' (texts.flatMap (writtenText calls))
    .leaf (.verbatim (String.ofList content) false) :: marksOf (texts.foldl takeText calls) (afterTexts rest).tail
  | e :: rest =>
    (e.bracket? calls).toList ++ (e.leaves calls).map .leaf ++ marksOf (e.callsAfter calls) rest
  termination_by events.length
  decreasing_by
    · have := length_afterTexts rest
      simp only [List.length_cons]; omega
    · have := length_afterTexts rest
      simp only [List.length_cons, List.length_tail]; omega
    · simp

theorem marksOf_cons (calls : List CutCall) {e : Markdown.Event} (rest : List Markdown.Event)
    (htext : ∀ text, e ≠ .text text) (hcode : e ≠ .enter .codeBlock) :
    marksOf calls (e :: rest) =
      (e.bracket? calls).toList ++ (e.leaves calls).map .leaf ++ marksOf (e.callsAfter calls) rest := by
  rw [marksOf]
  · exact htext
  · exact hcode

/-- Behind the start of every block of code stands, after text only, the end of one. -/
def ClosesCode : List Markdown.Event → Prop
  | [] => True
  | e :: rest => (e = .enter .codeBlock → (afterTexts rest).head? = some (.leave .codeBlock)) ∧ ClosesCode rest

instance decidableClosesCode (events : List Markdown.Event) : Decidable (ClosesCode events) :=
  match events with
  | [] => .isTrue trivial
  | e :: rest =>
    have := decidableClosesCode rest
    inferInstanceAs (Decidable ((e = .enter .codeBlock → _) ∧ ClosesCode rest))

theorem ClosesCode.afterTexts {events : List Markdown.Event} (h : ClosesCode events) :
    ClosesCode (MacroDoc.afterTexts events) := by
  fun_induction MacroDoc.afterTexts events with
  | case1 text rest ih => exact ih h.2
  | case2 events => exact h

theorem ClosesCode.tail {events : List Markdown.Event} (h : ClosesCode events) : ClosesCode events.tail := by
  cases events with
  | nil => exact h
  | cons e rest => exact h.2

/-- Behind the starts of the tags `opened`, innermost first, the events go on so that starts and ends match: an end
closes the innermost start that is still open, a block of code if it is the end of one and else a container. -/
def Nested (opened : List Tag) : List Markdown.Event → Prop
  | [] => opened = []
  | .enter tag :: rest => Nested (tag :: opened) rest
  | .leave ending :: rest =>
    match opened with
    | [] => False
    | tag :: outer => (ending = .codeBlock ↔ tag = .codeBlock) ∧ Nested outer rest
  | _ :: rest => Nested opened rest

instance decidableNested (opened : List Tag) (events : List Markdown.Event) : Decidable (Nested opened events) :=
  match events, opened with
  | [], opened => inferInstanceAs (Decidable (opened = []))
  | .enter tag :: rest, opened => decidableNested (tag :: opened) rest
  | .leave _ :: _, [] => .isFalse id
  | .leave ending :: rest, tag :: outer =>
    have := decidableNested outer rest
    inferInstanceAs (Decidable ((ending = .codeBlock ↔ tag = .codeBlock) ∧ Nested outer rest))
  | .text _ :: rest, opened | .code _ :: rest, opened | .html _ :: rest, opened | .lineBreak :: rest, opened
  | .rule :: rest, opened | .other :: rest, opened => decidableNested opened rest

theorem Nested.afterTexts {opened : List Tag} {events : List Markdown.Event} (h : Nested opened events) :
    Nested opened (MacroDoc.afterTexts events) := by
  fun_induction MacroDoc.afterTexts events with
  | case1 text rest ih => exact ih h
  | case2 events => exact h

theorem Nested.afterCode {opened : List Tag} {rest : List Markdown.Event}
    (h : Nested opened (.enter .codeBlock :: rest))
    (hclosed : (MacroDoc.afterTexts rest).head? = some (.leave .codeBlock)) :
    Nested opened (MacroDoc.afterTexts rest).tail := by
  have hinner : Nested (.codeBlock :: opened) (MacroDoc.afterTexts rest) := Nested.afterTexts h
  rw [← List.cons_head?_tail hclosed] at hinner
  exact hinner.2

/-! ## Balance -/

theorem container?_isSome (calls : List CutCall) {tag : Tag} (h : tag ≠ .codeBlock) :
    ∃ c, tag.container? calls = some c := by
  cases tag with
  | codeBlock => exact absurd rfl h
  | _ => exact ⟨_, rfl⟩

/-- Nothing has to be added to the marks of events that are well nested, or taken away. -/
theorem balance_marksOf {calls : List CutCall} {events : List Markdown.Event} (opened : List Tag)
    (hcloses : ClosesCode events) (hnested : Nested opened events) (hopened : .codeBlock ∉ opened) :
    balance opened.length (marksOf calls events) = marksOf calls events := by
  induction calls, events using marksOf.induct generalizing opened with
  | case1 calls =>
    obtain rfl : opened = [] := hnested
    rw [marksOf]
    rfl
  | case2 calls text rest added ih =>
    rw [marksOf, balance_append_leaves, ih _ hcloses.2.afterTexts (Nested.afterTexts hnested) hopened]
  | case3 calls rest texts ih =>
    rw [marksOf, balance, ih _ hcloses.2.afterTexts.tail (hnested.afterCode (hcloses.1 rfl)) hopened]
  | case4 calls e rest htext hcode ih =>
    rw [marksOf_cons _ _ htext hcode, List.append_assoc]
    cases e with
    | text text => exact absurd rfl (htext text)
    | enter tag =>
      have htag : tag ≠ .codeBlock := fun h => hcode (h ▸ rfl)
      obtain ⟨c, hc⟩ := container?_isSome calls htag
      have hrest := ih (tag :: opened) hcloses.2 hnested (by simp [htag.symm, hopened])
      rw [Markdown.Event.bracket?, hc]
      exact congrArg (.start c :: ·) hrest
    | leave ending =>
      cases opened with
      | nil => exact hnested.elim
      | cons tag outer =>
        obtain ⟨hending, hnested⟩ := hnested
        obtain ⟨htag, houter⟩ : tag ≠ .codeBlock ∧ .codeBlock ∉ outer := by simpa [eq_comm] using hopened
        have hbracket : (Markdown.Event.leave ending).bracket? calls = some .stop := by
          cases ending with
          | codeBlock => exact absurd (hending.1 rfl) htag
          | _ => rfl
        rw [hbracket]
        exact congrArg (.stop :: ·) (ih _ hcloses.2 hnested houter)
    | _ => exact (balance_append_leaves _ _ _).trans (congrArg _ (ih _ hcloses.2 hnested hopened))

/-! ## Starts and ends -/

section Brackets

variable {calls calls' : List CutCall}

theorem map_text_callsAfter (calls : List CutCall) (e : Markdown.Event) :
    (e.callsAfter calls).map (·.text) = calls.map (·.text) := by
  unfold Markdown.Event.callsAfter
  split
  · exact map_text_takeText calls _
  · exact map_text_takeText calls _
  · exact map_text_partsLeaves calls _
  · rfl

/-- Which container starts does not depend on which calls still wait. -/
theorem container?_congr (h : calls.map (·.text) = calls'.map (·.text)) (tag : Tag) :
    tag.container? calls = tag.container? calls' := by
  cases tag with
  | link destination => rw [Markdown.Tag.container?, writtenText_congr h]; rfl
  | _ => rfl

theorem bracket?_congr (h : calls.map (·.text) = calls'.map (·.text)) :
    Markdown.Event.bracket? calls = Markdown.Event.bracket? calls' := by
  funext e
  cases e with
  | enter tag => rw [Markdown.Event.bracket?, container?_congr h]; rfl
  | leave tag => cases tag <;> rfl
  | _ => rfl

theorem isBracket_of_bracket? {e : Markdown.Event} {m : Mark} (h : e.bracket? calls = some m) : m.isBracket := by
  cases e with
  | enter tag =>
    obtain ⟨c, -, rfl⟩ := Option.map_eq_some_iff.1 h
    rfl
  | leave tag => cases tag <;> cases h <;> rfl
  | _ => cases h

theorem filterMap_bracket?_texts (calls : List CutCall) (texts : List (List Char)) :
    (texts.map .text).filterMap (Markdown.Event.bracket? calls) = [] := by
  induction texts with
  | nil => rfl
  | cons text texts ih => exact ih

theorem filterMap_bracket?_afterTexts (calls : List CutCall) (events : List Markdown.Event) :
    (afterTexts events).filterMap (Markdown.Event.bracket? calls)
      = events.filterMap (Markdown.Event.bracket? calls) := by
  conv_rhs => rw [← texts_append_afterTexts events]
  rw [List.filterMap_append, filterMap_bracket?_texts, List.nil_append]

/-- The starts and ends among the marks are those of the containers among the events. -/
theorem filter_marksOf {events : List Markdown.Event} (hcloses : ClosesCode events) :
    (marksOf calls events).filter Mark.isBracket = events.filterMap (Markdown.Event.bracket? calls) := by
  induction calls, events using marksOf.induct with
  | case1 calls => rw [marksOf]; rfl
  | case2 calls text rest added ih =>
    have hadded : added.2.map (·.text) = calls.map (·.text) := map_text_partsLeaves calls _
    rw [marksOf, List.filter_append, filter_map_leaf, List.nil_append, ih hcloses.2.afterTexts, bracket?_congr hadded,
      filterMap_bracket?_afterTexts]
    rfl
  | case3 calls rest texts ih =>
    have hrest := filterMap_bracket?_afterTexts calls rest
    rw [← List.cons_head?_tail (hcloses.1 rfl)] at hrest
    rw [marksOf, List.filter_cons_of_neg Bool.false_ne_true, ih hcloses.2.afterTexts.tail,
      bracket?_congr (map_text_foldl_takeText calls texts)]
    exact hrest
  | case4 calls e rest htext hcode ih =>
    rw [marksOf_cons _ _ htext hcode, List.filter_append, List.filter_append, filter_map_leaf, List.append_nil,
      ih hcloses.2, bracket?_congr (map_text_callsAfter calls e)]
    cases h : e.bracket? calls with
    | none => rw [List.filterMap_cons_none h]; rfl
    | some m => simp [List.filterMap_cons_some h, isBracket_of_bracket? h]

end Brackets

end MacroDoc
