import Mathlib.Data.List.Infix
import MacroDoc.Block.Markup
import MacroDoc.Proofs.Call.Content
import MacroDoc.Proofs.Call.Layout

/-!
# Reading the markup of a call

The markup of a call is read as that call, whatever text comes after it. A value is written so that it ends at its
own closing quote; the content is looked through for tags of the same macro, and the conditions on it say that there
are none.

* `Parameters.ofList_entries` : parameters in their order give the same parameters again;
* `Call.tagLayout`, `Call.isTag_writtenHead` : the head of a written call is a tag;
* `PlainContent`, `Call.Readable` : what can be written and read back;
* `Call.readsAs_reference_append` : the markup of a readable call is read as that call.
-/

namespace MacroDoc

open Call (openMark closeMark selfCloseMark closingTag)

/-! ## Parameters in order -/

theorem insertSorted_of_forall_lt {name value : String} {l : List (String × String)} (h : ∀ p ∈ l, p.1 < name) :
    insertSorted name value l = l ++ [(name, value)] := by
  induction l with
  | nil => rfl
  | cons p rest ih =>
    obtain ⟨hp, hrest⟩ := List.forall_mem_cons.1 h
    rw [insertSorted, if_neg (String.lt_asymm hp), if_neg (fun heq => String.lt_irrefl _ (heq ▸ hp)), ih hrest]
    rfl

theorem foldl_insert_entries {l : List (String × String)} {parameters : Parameters}
    (h : (parameters.entries ++ l).Pairwise fun a b => a.1 < b.1) :
    (l.foldl (fun ps (name, value) => ps.insert name value) parameters).entries = parameters.entries ++ l := by
  induction l generalizing parameters with
  | nil => rw [List.foldl_nil, List.append_nil]
  | cons p rest ih =>
    obtain ⟨name, value⟩ := p
    have hname : ∀ q ∈ parameters.entries, q.1 < name :=
      fun q hq => (List.pairwise_append.1 h).2.2 q hq (name, value) List.mem_cons_self
    have hinsert : (parameters.insert name value).entries = parameters.entries ++ [(name, value)] :=
      insertSorted_of_forall_lt hname
    rw [List.foldl_cons, ih (by rw [hinsert, List.append_assoc]; exact h), hinsert, List.append_assoc]
    rfl

theorem Parameters.ofList_entries (parameters : Parameters) : Parameters.ofList parameters.entries = parameters := by
  have hentries : (Parameters.ofList parameters.entries).entries = parameters.entries :=
    foldl_insert_entries parameters.sorted
  cases parameters
  cases h : Parameters.ofList _
  rw [h] at hentries
  congr

/-! ## The head of a call -/

namespace Call

/-- A value between quotes, with a backslash only where one must stand. -/
def quoteLayout (value : List Char) : ValueLayout :=
  .quoted (value.map fun c => (c, c = '\\' ∨ c = '"'))

theorem written_quoteLayout (value : List Char) : (quoteLayout value).written = '"' :: (quoteValue value ++ ['"']) := by
  rw [quoteLayout, ValueLayout.written, writtenQuoted, List.flatMap_map]
  simp [quoteValue]

theorem value_quoteLayout (value : List Char) : (quoteLayout value).value = value := by
  simp [quoteLayout, ValueLayout.value, Function.comp_def]

theorem allowed_quoteLayout (value : List Char) : (quoteLayout value).Allowed := by
  intro p hp hc
  obtain ⟨c, -, rfl⟩ := List.mem_map.1 hp
  exact decide_eq_true hc.symm

/-- The layout of the opening tag of a call: one space before each parameter, and each value between quotes. -/
def tagLayout (call : Call) (selfClosing : Bool) : TagLayout where
  identifier := call.identifier
  parameters := call.parameters.entries.map fun (name, value) => ⟨[' '], name, quoteLayout value.toList⟩
  blanks := []
  selfClosing := selfClosing

theorem written_tagLayout (call : Call) (selfClosing : Bool) :
    (call.tagLayout selfClosing).written = call.writtenHead ++ endMark selfClosing := by
  simp [tagLayout, TagLayout.written, TagLayout.writtenTail, List.flatMap_map, ParameterLayout.written,
    written_quoteLayout, writtenHead, writtenParameter]

theorem pairs_tagLayout (call : Call) (selfClosing : Bool) :
    (call.tagLayout selfClosing).pairs = call.parameters.entries := by
  simp [tagLayout, TagLayout.pairs, value_quoteLayout, Function.comp_def]

theorem wellFormed_tagLayout {call : Call} (hname : IsName call.identifier)
    (hnames : ∀ entry ∈ call.parameters.entries, IsName entry.1) (selfClosing : Bool) :
    (call.tagLayout selfClosing).WellFormed := by
  have hmem : ∀ p ∈ (call.tagLayout selfClosing).parameters,
      ∃ entry ∈ call.parameters.entries, p = ⟨[' '], entry.1, quoteLayout entry.2.toList⟩ := by
    intro p hp
    obtain ⟨entry, hentry, rfl⟩ := List.mem_map.1 hp
    exact ⟨entry, hentry, rfl⟩
  have hbare : ∀ p ∈ (call.tagLayout selfClosing).parameters, ¬ p.value.isBare := by
    intro p hp
    obtain ⟨entry, -, rfl⟩ := hmem p hp
    exact Bool.false_ne_true
  refine { keys := ?keys, values := ?values, blanks := ?blanks, lastBlanks := nofun, apart := ?apart, last := ?last,
           identifier := hname, first := ?first }
  case keys =>
    intro p hp
    obtain ⟨entry, hentry, rfl⟩ := hmem p hp
    exact hnames entry hentry
  case values =>
    intro p hp
    obtain ⟨entry, -, rfl⟩ := hmem p hp
    exact allowed_quoteLayout entry.2.toList
  case blanks =>
    intro p hp
    obtain ⟨entry, -, rfl⟩ := hmem p hp
    exact List.all_eq_true.1 rfl
  case apart =>
    refine (List.pairwise_iff_forall_sublist.2 fun h hp => absurd hp ?_).isChain
    exact hbare _ (h.subset List.mem_cons_self)
  case last => exact fun p hp h => absurd h (hbare p (List.mem_of_getLast? hp))
  case first =>
    intro p hp
    obtain ⟨entry, -, rfl⟩ := hmem p (List.mem_of_head? hp)
    exact List.cons_ne_nil _ _

theorem isTag_writtenHead (call : Call) (hname : IsName call.identifier)
    (hnames : ∀ entry ∈ call.parameters.entries, IsName entry.1) (selfClosing : Bool) :
    IsTag (call.writtenHead ++ endMark selfClosing)
      ⟨call.identifier, call.parameters, selfClosing, (call.writtenHead ++ endMark selfClosing).length⟩ := by
  have htag := (wellFormed_tagLayout hname hnames selfClosing).isTag
  rwa [written_tagLayout, pairs_tagLayout, Parameters.ofList_entries] at htag

variable {call : Call}

theorem written_of_content {content : String} (h : call.content = some content) :
    call.written = (call.writtenHead ++ endMark false) ++ (content.toList ++ closingTag call.identifier.toList) := by
  rw [written, h, endMark, if_neg Bool.false_ne_true]
  simp only [List.append_assoc]

theorem written_of_no_content (h : call.content = none) : call.written = call.writtenHead ++ endMark true := by
  rw [written, h, endMark, if_pos rfl]

theorem readCall_written_of_no_content (hname : IsName call.identifier)
    (hnames : ∀ entry ∈ call.parameters.entries, IsName entry.1) (hcontent : call.content = none) (text : List Char) :
    readCall (call.written ++ text) = .ok (some ⟨call, call.written.length⟩) := by
  have hread := (call.isTag_writtenHead hname hnames true).readCall_selfClosing rfl text
  rwa [← written_of_no_content hcontent, ← hcontent] at hread

/-- A written call is read with its content trimmed, if the search for the closing tag passes the content. -/
theorem readCall_written_of_run (hname : IsName call.identifier)
    (hnames : ∀ entry ∈ call.parameters.entries, IsName entry.1) {content : String}
    (hcontent : call.content = some content) {text : List Char} {inside : Nat}
    (hrun : (Search.between 0).run call.identifier content.toList (closingTag call.identifier.toList ++ text)
      = some ⟨0, 0, inside⟩) :
    readCall (call.written ++ text) = .ok (some
      ⟨{ call with content := some (String.ofList (trimContent content.toList)) }, call.written.length⟩) := by
  have htext : call.written ++ text = (call.writtenHead ++ endMark false)
      ++ (content.toList ++ (closingTag call.identifier.toList ++ text)) := by
    rw [written_of_content hcontent]
    simp only [List.append_assoc]
  rw [htext, (call.isTag_writtenHead hname hnames false).readCall_closed rfl hrun, written_of_content hcontent]
  simp only [List.length_append, Nat.add_assoc]

end Call

/-! ## What can be read back -/

/-- A content that is looked through as plain text: no line end at its ends, no closing tag of the macro, and the
start of a tag of the macro only where the identifier goes on. -/
structure PlainContent (identifier content : List Char) : Prop where
  trimmed : Trimmed content
  not_closed : ¬ closingTag identifier <:+: content
  goes_on : ∀ before after, content = before ++ (openMark ++ identifier ++ after) →
    ∃ c rest, after = c :: rest ∧ isIdentifierChar c

theorem plainContent_iff {identifier content : List Char} :
    PlainContent identifier content ↔ Trimmed content ∧ ¬ closingTag identifier <:+: content
      ∧ ∀ n < content.length, openMark ++ identifier <+: content.drop n →
          (content.drop (n + (openMark ++ identifier).length)).head?.any isIdentifierChar := by
  constructor
  · rintro ⟨htrimmed, hclosed, hgoes⟩
    refine ⟨htrimmed, hclosed, fun n _ ⟨after, hafter⟩ => ?_⟩
    obtain ⟨c, rest, rfl, hc⟩ := hgoes (content.take n) after (by rw [hafter, List.take_append_drop])
    rw [← List.drop_drop, ← hafter, List.drop_left]
    exact hc
  · rintro ⟨htrimmed, hclosed, hgoes⟩
    refine ⟨htrimmed, hclosed, fun before after hcontent => ?_⟩
    have hlt : before.length < content.length := by
      rw [hcontent]
      simp [openMark]
    have hany := hgoes before.length hlt (by rw [hcontent, List.drop_left]; exact List.prefix_append _ _)
    rw [← List.drop_drop, hcontent, List.drop_left, List.drop_left] at hany
    cases after with
    | nil => simp at hany
    | cons c rest => exact ⟨c, rest, rfl, hany⟩

instance (identifier content : List Char) : Decidable (PlainContent identifier content) :=
  decidable_of_iff _ plainContent_iff.symm

theorem PlainContent.nestedTag?_eq_none {identifier : String} {content after rest : List Char}
    (hname : IsName identifier) (h : PlainContent identifier.toList content) (hafter : after <:+ content)
    (hne : after ≠ []) :
    nestedTag? identifier (after ++ (closingTag identifier.toList ++ rest)) = none := by
  cases htag : nestedTag? identifier (after ++ (closingTag identifier.toList ++ rest)) with
  | none => rfl
  | some tag =>
    obtain ⟨c, cs, htext, hc⟩ := exists_of_nestedTag? htag
    rw [closingTag_eq, List.append_assoc, ← List.append_assoc openMark] at htext
    obtain ⟨after', rfl⟩ : openMark ++ identifier.toList <+: after :=
      prefix_of_append_openMark hname.openBrace_not_mem hname.toList_ne_nil hne ⟨c :: cs, htext.symm⟩
    obtain ⟨before, hbefore⟩ := hafter
    obtain ⟨d, ds, rfl, hd⟩ := h.goes_on before after' hbefore.symm
    simp only [List.append_assoc, List.append_cancel_left_eq, List.cons_append, List.cons.injEq] at htext
    rw [htext.1, hc] at hd
    exact absurd hd Bool.false_ne_true

theorem PlainContent.run_between {identifier : String} {content : List Char} (hname : IsName identifier)
    (h : PlainContent identifier.toList content) (rest : List Char) :
    (Search.between 0).run identifier content (closingTag identifier.toList ++ rest) = some (.between 0) := by
  refine Search.run_between (fun after hafter hne hclosing => ?_) fun after hafter hne =>
    h.nestedTag?_eq_none hname hafter hne
  rw [closingTag_prefix_append_iff hname hne] at hclosing
  exact h.not_closed (hclosing.isInfix.trans hafter.isInfix)

/-- A call whose markup reads back as the call. -/
structure Call.Readable (call : Call) : Prop where
  identifier : IsName call.identifier
  names : ∀ entry ∈ call.parameters.entries, IsName entry.1
  content : ∀ content ∈ call.content, PlainContent call.identifier.toList content.toList

theorem Call.Readable.readCall_written {call : Call} (h : call.Readable) (text : List Char) :
    readCall (call.written ++ text) = .ok (some ⟨call, call.written.length⟩) := by
  cases hcontent : call.content with
  | none => exact readCall_written_of_no_content h.identifier h.names hcontent text
  | some content =>
    have hplain := h.content content hcontent
    rw [readCall_written_of_run h.identifier h.names hcontent (hplain.run_between h.identifier text),
      trimContent_eq_self_iff.2 hplain.trimmed, String.ofList_toList, ← hcontent]

/-- The markup of a readable call is read as that call, and to its end, whatever text comes after it. -/
theorem Call.readsAs_reference_append (call : Call) (h : call.Readable) (text : List Char) :
    let written := (Block.leaf (.reference call)).written
    ReadsAs (written ++ text) call (Text.byteLength written) :=
  .of_append (h.readCall_written text)

/-- A call whose value holds quotes, a backslash and a whole tag, and whose content holds a macro with a longer name
and half a closing tag. -/
theorem Call.readsAs_reference_append_box :
    let call : Call := ⟨"box", .ofList [("title", "say \"hi\"\\ \x7b\x7b/box\x7d\x7d\n")],
      some "\x7b\x7bboxes\x7d\x7d\x7b\x7b/boxes\x7d\x7d \x7b\x7b/bo \x7b"⟩
    let written := (Block.leaf (.reference call)).written
    ReadsAs (written ++ "\x7b\x7b/box\x7d\x7d".toList) call (Text.byteLength written) := by
  intro call
  exact Call.readsAs_reference_append call ⟨by decide +kernel, by decide +kernel, by decide +kernel⟩ _

end MacroDoc
