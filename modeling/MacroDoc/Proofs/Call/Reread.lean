import MacroDoc.Proofs.Call.Written

/-!
# Reading a call that was read and written again

A call is written without the line ends that were dropped from its content. Reading it again gives the same tag, and
the content with what a second trimming leaves of it. The two searches for the closing tag go the same way through the
content, unless a tag of the macro takes in what stands after it.

* `Overreaches` : a tag that the search comes to in a content, and that goes on after it;
* `ClosedInside` : the closing tag of a call stands in a self-closing tag of the same macro;
* `TakesClosing` : the closing tag, written directly after the content, is taken into a tag that begins in it;
* `exists_run_written` : the search through the content that is written again ends where it did;
* `readsAs_written_of_readCall` : what reading the markup of a call that was read gives.
-/

namespace MacroDoc

open Call (openMark closeMark selfCloseMark closingTag)

/-- The search for the closing tag comes in `content` to `tag`, which goes on into `rest`. -/
def Overreaches (identifier : String) (content rest : List Char) (tag : OpenTag) : Prop :=
  ∃ before after depth, content = before ++ after
    ∧ (Search.between 0).run identifier before (after ++ rest) = some (.between depth)
    ∧ nestedTag? identifier (after ++ rest) = some tag ∧ after.length < tag.length

/-- The closing tag of the call at the start of a text stands in a self-closing tag of the same macro. -/
def ClosedInside (text : List Char) : Prop :=
  ∃ first n inner, readOpenTag text = .ok (some first) ∧ first.selfClosing = false
    ∧ scanClose first.identifier 0 0 0 (text.drop first.length) = some n
    ∧ Overreaches first.identifier ((text.drop first.length).take n) ((text.drop first.length).drop n) inner
    ∧ inner.selfClosing = true

/-- The closing tag, directly after the content, is taken into a tag that begins in the content. -/
def TakesClosing (identifier : String) (content : List Char) : Prop :=
  ∃ tag, Overreaches identifier content (closingTag identifier.toList) tag

/-! ## Tags that end in a line end -/

section Trail

variable {identifier : String} {after trail rest : List Char} {tag : OpenTag}

theorem eq_of_mem_lineEnds {c : Char} (htrail : trail ∈ lineEnds) (hc : c ∈ trail) : c = '\n' ∨ c = '\r' := by
  simp only [lineEnds, List.mem_cons, List.not_mem_nil, or_false] at htrail
  rcases htrail with rfl | rfl | rfl
  · cases hc
  · exact .inl (List.mem_singleton.1 hc)
  · rcases List.mem_cons.1 hc with rfl | hc
    · exact .inr rfl
    · exact .inl (List.mem_singleton.1 hc)

theorem not_brace_of_mem_lineEnds {c : Char} (htrail : trail ∈ lineEnds) (hc : c ∈ trail) : c ≠ '{' ∧ c ≠ '}' := by
  rcases eq_of_mem_lineEnds htrail hc with rfl | rfl <;> decide

theorem lineFeed_suffix (htrail : trail ∈ lineEnds) (hne : trail ≠ []) : ['\n'] <:+ trail := by
  have hall : ∀ ending ∈ lineEnds, ending ≠ [] → ['\n'] <:+ ending := by decide
  exact hall trail htrail hne

theorem length_le_of_trail (htrail : trail ∈ lineEnds)
    (htag : nestedTag? identifier (after ++ (trail ++ rest)) = some tag)
    (hle : tag.length ≤ (after ++ trail).length) : tag.length ≤ after.length := by
  refine Nat.le_of_not_lt fun hlt => ?_
  have hbrace := getElem?_of_nestedTag? htag (n := tag.length - 1) (by omega)
  rw [List.length_append] at hle
  rw [List.getElem?_append_right (by omega), List.getElem?_append_left (by omega)] at hbrace
  exact (not_brace_of_mem_lineEnds htrail (List.mem_of_getElem? hbrace)).2 rfl

theorem lineEnd_not_mem_closingTag (hname : IsName identifier) {c : Char} (htrail : trail ∈ lineEnds) (hc : c ∈ trail) :
    c ∉ closingTag identifier.toList := by
  obtain ⟨hidentifier, hopen, hclose, hslash⟩ :
      isIdentifierChar c = false ∧ c ∉ openMark ∧ c ∉ closeMark ∧ c ≠ '/' := by
    rcases eq_of_mem_lineEnds htrail hc with rfl | rfl <;> decide
  have hmem : c ∉ identifier.toList := fun hmem => by
    rw [hname.2 c hmem] at hidentifier
    cases hidentifier
  simp [closingTag, hopen, hclose, hslash, hmem]

theorem prefix_of_append_cons {mark text : List Char} {c : Char} (hc : c ∉ mark) (h : mark <+: text ++ c :: rest) :
    mark <+: text := by
  refine (prefix_append_cases h).resolve_right ?_
  rintro ⟨d, other, hsplit, hother⟩
  obtain rfl : d = c := (List.cons_prefix_cons.1 hother).1
  exact hc (hsplit ▸ List.mem_append_right text List.mem_cons_self)

theorem closingTag_prefix_trail_iff (hname : IsName identifier) (htrail : trail ∈ lineEnds) (hne : after ≠ []) :
    closingTag identifier.toList <+: after ++ (trail ++ (closingTag identifier.toList ++ rest))
      ↔ closingTag identifier.toList <+: after := by
  cases trail with
  | nil =>
    rw [List.nil_append]
    exact closingTag_prefix_append_iff hname hne rest
  | cons c trail =>
    have hc := lineEnd_not_mem_closingTag hname htrail List.mem_cons_self
    exact ⟨fun h => prefix_of_append_cons hc h, fun h => h.trans (List.prefix_append _ _)⟩

end Trail

/-! ## The two searches -/

section Searches

variable {identifier : String} {lead content trail rest : List Char} {inside : Nat}

/-- A self-closing tag that begins in the content ends before the closing tag. -/
def EndsOutside (identifier : String) (content rest : List Char) : Prop :=
  ∀ tag, Overreaches identifier content rest tag → tag.selfClosing = false

theorem run_lead (hlead : lead ∈ lineEnds) :
    (Search.between 0).run identifier lead rest = some (.between 0) := by
  have hrun : Search.run identifier ⟨0, 0, 0⟩ lead rest = _ :=
    Search.run_of_ne_openBrace fun c hc => (not_brace_of_mem_lineEnds hlead hc).1
  rwa [Nat.zero_sub] at hrun

theorem EndsOutside.of_lead (hlead : lead ∈ lineEnds) (h : EndsOutside identifier (lead ++ content) rest) :
    EndsOutside identifier content rest := by
  rintro tag ⟨before, after, depth, rfl, hrun, htag, hlt⟩
  refine h tag ⟨lead ++ before, after, depth, (List.append_assoc ..).symm, ?_, htag, hlt⟩
  rw [Search.run_append, run_lead hlead]
  exact hrun

variable (hrun : (Search.between 0).run identifier (content ++ trail) (closingTag identifier.toList ++ rest)
  = some ⟨0, 0, inside⟩)

include hrun

/-- The tags that the search comes to in the content of a call end in it. -/
theorem length_le_of_run_content (htrail : trail ∈ lineEnds)
    (houtside : EndsOutside identifier (content ++ trail) (closingTag identifier.toList ++ rest))
    {before after : List Char} {depth : Nat} {tag : OpenTag} (hcontent : content = before ++ after) (hne : after ≠ [])
    (hbefore : (Search.between 0).run identifier before (after ++ (trail ++ (closingTag identifier.toList ++ rest)))
      = some (.between depth))
    (htag : nestedTag? identifier (after ++ (trail ++ (closingTag identifier.toList ++ rest))) = some tag) :
    tag.length ≤ after.length := by
  subst hcontent
  refine length_le_of_trail htrail htag ?_
  rw [← List.append_assoc] at htag hbefore
  cases hself : tag.selfClosing with
  | true =>
    refine Nat.le_of_not_lt fun hlt => ?_
    have hfalse := houtside tag ⟨before, after ++ trail, depth, List.append_assoc .., hbefore, htag, hlt⟩
    rw [hself] at hfalse
    cases hfalse
  | false =>
    rw [List.append_assoc, Search.run_append, hbefore] at hrun
    exact Search.length_le_of_run hrun rfl (List.append_ne_nil_of_left_ne_nil hne trail) htag hself

theorem exists_run_content (htrail : trail ∈ lineEnds) :
    ∃ inside', (Search.between 0).run identifier content (trail ++ (closingTag identifier.toList ++ rest))
      = some ⟨0, 0, inside'⟩ := by
  rw [Search.run_append] at hrun
  obtain ⟨⟨depth, whole, inside'⟩, hcontent, htrail'⟩ := Option.bind_eq_some_iff.1 hrun
  refine ⟨inside', hcontent.trans ?_⟩
  have hbrace : (⟨depth, whole, inside'⟩ : Search).EndsWithBrace (trail ++ (closingTag identifier.toList ++ rest)) :=
    Search.EndsWithBrace.run (fun n hn => by cases hn) hcontent
  have hle := Search.whole_le_length htrail' rfl
  obtain rfl : whole = 0 := by
    -- A tag that ends in the line end after the content would end with a brace.
    cases whole with
    | zero => rfl
    | succ n =>
      have hlast := hbrace n rfl
      rw [List.getElem?_append_left hle] at hlast
      exact absurd rfl (not_brace_of_mem_lineEnds htrail (List.mem_of_getElem? hlast)).2
  rw [Search.run_of_ne_openBrace fun c hc => (not_brace_of_mem_lineEnds htrail hc).1] at htrail'
  obtain rfl : depth = 0 := congrArg Search.depth (Option.some.inj htrail')
  rfl

/-- The search through the content that is written again goes as the first search did, unless a tag takes in the
closing tag; and none does that if the closing tag stood directly after the content before. -/
theorem exists_run_written (hname : IsName identifier) (htrail : trail ∈ lineEnds)
    (houtside : EndsOutside identifier (content ++ trail) (closingTag identifier.toList ++ rest))
    (htakes : ¬ TakesClosing identifier content ∨ trail = []) :
    ∃ inside', (Search.between 0).run identifier content (closingTag identifier.toList) = some ⟨0, 0, inside'⟩ := by
  obtain ⟨inside', hcontent⟩ := exists_run_content hrun htrail
  refine ⟨inside', Eq.trans (Search.run_congr (fun after hafter hne => ?_) ?_) hcontent⟩
  · have hiff := closingTag_prefix_append_iff hname hne []
    rw [List.append_nil] at hiff
    rw [hiff, closingTag_prefix_trail_iff hname htrail hne]
  intro before after depth hsplit hne hwritten hread
  have hends : ∀ tag, nestedTag? identifier (after ++ closingTag identifier.toList) = some tag →
      tag.length ≤ after.length := by
    intro tag htag
    rcases htakes with htakes | rfl
    · exact Nat.le_of_not_lt fun hlt => htakes ⟨tag, before, after, depth, hsplit, hwritten, htag, hlt⟩
    · have htag' := nestedTag?_append htag rest
      rw [List.append_assoc] at htag'
      exact length_le_of_run_content hrun htrail houtside hsplit hne hread htag'
  rw [nestedTag?_eq_of_length_le hends,
    nestedTag?_eq_of_length_le fun tag htag => length_le_of_run_content hrun htrail houtside hsplit hne hread htag]

end Searches

/-! ## A closing tag that is taken in -/

section TakesClosing

variable {identifier : String} {content after : List Char} {tag : OpenTag}

theorem closingTag_of_nestedTag? (htag : nestedTag? identifier (after ++ closingTag identifier.toList) = some tag)
    (hlt : after.length < tag.length) :
    tag.selfClosing = false ∧ tag.length = (after ++ closingTag identifier.toList).length := by
  have hname := isName_of_nestedTag? htag
  obtain ⟨-, chars, rest, htext, hchars⟩ := nestedTag?_eq_some_iff.1 htag
  obtain ⟨mark, rfl⟩ : after <+: chars :=
    List.prefix_of_prefix_length_le (List.prefix_append after _) ⟨rest, htext.symm⟩
      (Nat.le_of_lt (hchars.length ▸ hlt))
  rw [hchars.length, List.length_append] at hlt
  rw [List.append_assoc, List.append_cancel_left_eq] at htext
  have hclose : closeMark <:+ mark := by
    have hsuffix := hchars.closeMark_suffix
    match mark with
    | [] => simp at hlt
    | [d] =>
      obtain rfl : '{' = d := (List.cons.inj htext).1
      obtain ⟨before, hbefore⟩ := hsuffix
      simpa [closeMark] using congrArg List.getLast? hbefore
    | d :: e :: mark => exact List.suffix_of_suffix_length_le hsuffix (List.suffix_append _ _) (by simp [closeMark])
  obtain rfl := eq_nil_of_closeMark_suffix hname htext.symm hclose
  rw [List.append_nil] at htext
  subst htext
  refine ⟨?_, hchars.length⟩
  cases hself : tag.selfClosing with
  | false => rfl
  | true =>
    -- The identifier would end with the slash of the mark.
    obtain ⟨before, hbefore⟩ := hchars.endMark_suffix
    rcases List.eq_nil_or_concat identifier.toList with hnil | ⟨front, last, hlast⟩
    · exact absurd hnil hname.toList_ne_nil
    · rw [hlast, hself] at hbefore
      have hends : before ++ endMark true = (after ++ openMark ++ '/' :: front) ++ [last, '}', '}'] := by
        simpa [closingTag, closeMark] using hbefore
      obtain rfl : '/' = last := (List.cons.inj (List.append_inj' hends rfl).2).1
      simpa using hname.2 '/' (by simp [hlast])

theorem TakesClosing.scanClose_eq_none (h : TakesClosing identifier content) :
    scanClose identifier 0 0 0 (content ++ closingTag identifier.toList) = none := by
  obtain ⟨tag, before, after, depth, rfl, hrun, htag, hlt⟩ := h
  obtain ⟨hself, hlength⟩ := closingTag_of_nestedTag? htag hlt
  rw [List.append_assoc]
  have hnone : scanClose identifier depth 0 0 (after ++ closingTag identifier.toList) = none :=
    Search.scanClose_eq_none_of_opened htag hself hlength
  exact (Search.scanClose_append hrun).trans (congrArg _ hnone)

end TakesClosing

/-! ## The second reading -/

def Leaf.Shows (leaf : Leaf) (call : Call) : Prop :=
  leaf = .reference call ∨ ∃ i, leaf = .invocation i ∧ i.call = call

theorem Leaf.Shows.written {leaf : Leaf} {call : Call} (h : leaf.Shows call) :
    (Block.leaf leaf).written = call.written := by
  rcases h with rfl | ⟨i, rfl, rfl⟩ <;> rfl

theorem Overreaches.openBrace_mem {identifier : String} {content rest : List Char} {tag : OpenTag}
    (h : Overreaches identifier content (closingTag identifier.toList ++ rest) tag) : '{' ∈ content := by
  obtain ⟨before, after, depth, rfl, -, htag, -⟩ := h
  cases after with
  | nil => exact absurd (List.prefix_append _ _) (not_closingTag_prefix_of_nestedTag? htag)
  | cons c after =>
    have hc : c = '{' := by
      refine Classical.byContradiction fun hc => ?_
      rw [List.cons_append, nestedTag?_of_ne_openBrace hc] at htag
      cases htag
    exact List.mem_append_right before (hc ▸ List.mem_cons_self)

section Reread

variable {text chars content : List Char} {tag : OpenTag} {p q : ReadCall} {call : Call}

/-- Whatever is read from the markup of a call, its identifier and its parameters are those of the call. -/
theorem Call.head_of_readCall_written (hname : IsName call.identifier)
    (hnames : ∀ entry ∈ call.parameters.entries, IsName entry.1) (h : readCall call.written = .ok (some q)) :
    q.call.identifier = call.identifier ∧ q.call.parameters = call.parameters := by
  cases hcontent : call.content with
  | none =>
    have hread := readCall_written_of_no_content hname hnames hcontent []
    rw [List.append_nil, h] at hread
    obtain rfl := Option.some.inj (Except.ok.inj hread)
    exact ⟨rfl, rfl⟩
  | some content =>
    rw [written_of_content hcontent, (call.isTag_writtenHead hname hnames false).readCall_eq rfl] at h
    split at h
    · cases h
    · obtain rfl := Option.some.inj (Except.ok.inj h)
      exact ⟨rfl, rfl⟩

theorem Call.readCall_written_of_takesClosing (hname : IsName call.identifier)
    (hnames : ∀ entry ∈ call.parameters.entries, IsName entry.1) {content : String}
    (hcontent : call.content = some content) (h : TakesClosing call.identifier content.toList) :
    readCall call.written = .error ⟨.neverClosed call.identifier,
      ⟨0, Text.byteLength (call.writtenHead ++ closeMark)⟩⟩ := by
  rw [written_of_content hcontent, (call.isTag_writtenHead hname hnames false).readCall_eq rfl, h.scanClose_eq_none]
  rfl

theorem isName_of_readCall (h : readCall text = .ok (some p)) :
    IsName p.call.identifier ∧ ∀ entry ∈ p.call.parameters.entries, IsName entry.1 := by
  obtain ⟨chars, tag, rest, htag, -, ⟨-, rfl⟩ | ⟨-, content, after, inside, -, -, rfl⟩⟩ := exists_of_readCall h
  · exact ⟨htag.isName_identifier, htag.isName_of_mem⟩
  · exact ⟨htag.isName_identifier, htag.isName_of_mem⟩

/-- What stands around the content of a call that was read. -/
theorem exists_of_readCall_content {content : String} (h : readCall text = .ok (some p))
    (hcontent : p.call.content = some content) :
    ∃ before trail rest inside, trail ∈ lineEnds
      ∧ text = before ++ (content.toList ++ trail) ++ (closingTag p.call.identifier.toList ++ rest)
      ∧ p.length = (before ++ (content.toList ++ trail)).length + (closingTag p.call.identifier.toList).length
      ∧ (Search.between 0).run p.call.identifier (content.toList ++ trail)
          (closingTag p.call.identifier.toList ++ rest) = some ⟨0, 0, inside⟩
      ∧ (¬ ClosedInside text → EndsOutside p.call.identifier (content.toList ++ trail)
          (closingTag p.call.identifier.toList ++ rest)) := by
  obtain ⟨chars, tag, after, htag, rfl, ⟨-, rfl⟩ | ⟨hself, raw, rest, inside, rfl, hrun, rfl⟩⟩ := exists_of_readCall h
  · cases hcontent
  obtain rfl := Option.some.inj hcontent
  obtain ⟨lead, hlead, trail, htrail, hraw⟩ := exists_append_trimContent raw
  rw [String.toList_ofList]
  refine ⟨chars ++ lead, trail, rest, inside, htrail, ?_, ?_, ?_, fun hin => ?_⟩
  · rw [List.append_assoc chars, ← hraw, List.append_assoc]
  · rw [List.append_assoc chars, ← hraw, List.length_append]
  · rw [hraw, Search.run_append, run_lead hlead] at hrun
    exact hrun
  · refine EndsOutside.of_lead hlead ?_
    rw [← hraw]
    intro inner hinner
    have hscan : scanClose tag.identifier 0 0 0 (raw ++ (closingTag tag.identifier.toList ++ rest)) = some raw.length :=
      (Search.scanClose_append hrun).trans (by rw [scanClose_closingTag, Option.map_some, Nat.zero_add])
    refine Bool.eq_false_iff.2 fun hinside =>
      hin ⟨tag, raw.length, inner, htag.readOpenTag_append _, hself, ?_, ?_, hinside⟩
    · rw [htag.length, List.drop_left]
      exact hscan
    · rw [htag.length, List.drop_left, List.take_left, List.drop_left]
      exact hinner

end Reread

/-- Reading the markup of a call that was read. Whatever is read has the identifier and the parameters of the call. A
call without content is read as it is. A call with content, whose closing tag does not stand in a self-closing tag of
the same macro, is read with its content trimmed once more, so it is the same call if no line end is left at an end of
its content; unless the closing tag is taken into a tag that begins in the content, which a line end that was dropped
kept from it, and then the call is never closed. -/
theorem readsAs_written_of_readCall {text : List Char} {p : ReadCall} {leaf : Leaf}
    (h : readCall text = .ok (some p)) (hleaf : leaf.Shows p.call) :
    let written := (Block.leaf leaf).written
    (∀ q, readCall written = .ok (some q) →
      q.call.identifier = p.call.identifier ∧ q.call.parameters = p.call.parameters)
    ∧ (p.call.content = none → ReadsAs written p.call (Text.byteLength written))
    ∧ ∀ content, p.call.content = some content → ¬ ClosedInside text →
        (¬ TakesClosing p.call.identifier content.toList →
          ReadsAs written { p.call with content := some (String.ofList (trimContent content.toList)) }
            (Text.byteLength written)
          ∧ (ReadsAs written p.call (Text.byteLength written) ↔ Trimmed content.toList))
        ∧ (TakesClosing p.call.identifier content.toList →
          readCall written = .error ⟨.neverClosed p.call.identifier,
            ⟨0, Text.byteLength (p.call.writtenHead ++ closeMark)⟩⟩
          ∧ ['\n'] <:+ text.take (p.length - (closingTag p.call.identifier.toList).length)) := by
  intro written
  obtain ⟨hname, hnames⟩ := isName_of_readCall h
  rw [show written = p.call.written from hleaf.written]
  refine ⟨fun q hq => Call.head_of_readCall_written hname hnames hq, fun hnone => ?_, fun content hcontent hin => ?_⟩
  · have hreads := ReadsAs.of_append (Call.readCall_written_of_no_content hname hnames hnone [])
    rwa [List.append_nil] at hreads
  obtain ⟨before, trail, rest, inside, htrail, htext, hlength, hrun, houtside⟩ := exists_of_readCall_content h hcontent
  have hreads (htakes : ¬ TakesClosing p.call.identifier content.toList ∨ trail = []) :
      ReadsAs p.call.written { p.call with content := some (String.ofList (trimContent content.toList)) }
        (Text.byteLength p.call.written) := by
    obtain ⟨inside', hwritten⟩ := exists_run_written hrun hname htrail (houtside hin) htakes
    rw [← List.append_nil (closingTag _)] at hwritten
    have hread := Call.readCall_written_of_run hname hnames hcontent hwritten
    rw [List.append_nil] at hread
    exact ⟨_, hread, rfl, by rw [List.take_length]⟩
  refine ⟨fun htakes => ⟨hreads (.inl htakes), ?_⟩, fun htakes => ?_⟩
  · rw [← trimContent_eq_self_iff]
    constructor
    · intro hsame
      have hcontents : some (String.ofList (trimContent content.toList)) = some content :=
        (congrArg Call.content ((hreads (.inl htakes)).unique hsame)).trans hcontent
      simpa using congrArg String.toList (Option.some.inj hcontents)
    · intro hsame
      have hreads := hreads (.inl htakes)
      rwa [hsame, String.ofList_toList, ← hcontent] at hreads
  · have herror := Call.readCall_written_of_takesClosing hname hnames hcontent htakes
    refine ⟨herror, ?_⟩
    have hne : trail ≠ [] := fun hnil => by
      obtain ⟨q, hq, -⟩ := hreads (.inr hnil)
      rw [herror] at hq
      cases hq
    rw [htext, hlength, Nat.add_sub_cancel, List.take_left]
    exact ((lineFeed_suffix htrail hne).trans (List.suffix_append _ _)).trans (List.suffix_append _ _)

/-- Of the two line ends after a content one is left when it is read, and none when it is read again. -/
theorem readsAs_written_of_readCall_line :
    let text := "\x7b\x7ba k=v\x7d\x7d\nx\n\n\x7b\x7b/a\x7d\x7d".toList
    let call : Call := ⟨"a", .ofList [("k", "v")], some "x\n"⟩
    let written := (Block.leaf (.reference call)).written
    readCall text = .ok (some ⟨call, text.length⟩)
      ∧ ReadsAs written { call with content := some "x" } (Text.byteLength written)
      ∧ ¬ ReadsAs written call (Text.byteLength written) := by
  intro text call written
  have hread : readCall text = .ok (some ⟨call, text.length⟩) := by decide +kernel
  have hin : ¬ ClosedInside text := by
    rintro ⟨first, n, inner, hfirst, -, hscan, hover, -⟩
    have hfirst' : readOpenTag text = .ok (some ⟨"a", .ofList [("k", "v")], false, 9⟩) := by decide +kernel
    rw [hfirst] at hfirst'
    obtain rfl := Option.some.inj (Except.ok.inj hfirst')
    have hscan' : scanClose "a" 0 0 0 (text.drop 9) = some 4 := by decide +kernel
    rw [hscan'] at hscan
    obtain rfl := Option.some.inj hscan
    have hrest : (text.drop 9).drop 4 = closingTag "a".toList ++ [] := by decide +kernel
    dsimp only at hover
    rw [hrest] at hover
    exact absurd hover.openBrace_mem (by decide +kernel)
  have htakes : ¬ TakesClosing "a" "x\n".toList := by
    rintro ⟨tag, hover⟩
    rw [← List.append_nil (closingTag _)] at hover
    exact absurd hover.openBrace_mem (by decide +kernel)
  obtain ⟨hreads, hiff⟩ := ((readsAs_written_of_readCall hread (.inl rfl)).2.2 "x\n" rfl hin).1 htakes
  have htrim : String.ofList (trimContent "x\n".toList) = "x" := by decide +kernel
  rw [htrim] at hreads
  exact ⟨hread, hreads, mt hiff.1 (by decide +kernel)⟩

/-- A line end at the start of a content is dropped each time that the call is read. -/
theorem not_readsAs_written_of_readCall :
    ¬ ∀ (text : List Char) (p : ReadCall), readCall text = .ok (some p) →
      ReadsAs (Block.leaf (.reference p.call)).written p.call
        (Text.byteLength (Block.leaf (.reference p.call)).written) := by
  intro h
  let call : Call := ⟨"a", .empty, some "\nx"⟩
  have hread : readCall "\x7b\x7ba\x7d\x7d\n\nx\x7b\x7b/a\x7d\x7d".toList = .ok (some ⟨call, 14⟩) := by
    decide +kernel
  have hagain : readCall (Block.leaf (.reference call)).written = .ok (some ⟨⟨"a", .empty, some "x"⟩, 13⟩) := by
    decide +kernel
  obtain ⟨q, hq, hcall, -⟩ := h _ _ hread
  rw [hagain] at hq
  obtain rfl := Option.some.inj (Except.ok.inj hq)
  exact absurd hcall (by decide +kernel)

end MacroDoc
