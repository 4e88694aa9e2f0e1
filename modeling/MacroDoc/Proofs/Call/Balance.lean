import MacroDoc.Proofs.Call.Content

/-!
# The closing tag of a call

The closing tag of a call is the first one that is reached with as many closing tags as opening tags behind it, where
every tag of the macro is stepped over as a whole. The search for it does the same, but for one thing: it looks for
closing tags in self-closing tags too.

* `Balanced` : a scan of a text that steps over tags, from one balance to another;
* `ClosedAfter` : the content that ends at the first closing tag with balance zero;
* `StepsClear` : no self-closing tag that is stepped over holds a closing tag;
* `Balanced.run_eq` : the search goes along with such a scan;
* `IsTag.readCall_balanced` : the content of a call ends where its closing tag stands.
-/

namespace MacroDoc

open Call (openMark closeMark selfCloseMark closingTag)

/-- The levels that a tag adds: one for an opening tag, none for a self-closing tag. -/
def OpenTag.levels (tag : OpenTag) : Nat :=
  if tag.selfClosing then 0 else 1

/-- A text that is one tag of the macro `identifier`. -/
def IsTagOf (identifier : String) (chars : List Char) (tag : OpenTag) : Prop :=
  IsTag chars tag ∧ tag.identifier = identifier

/-- A scan from left to right goes through `passed`, with `rest` after it, and takes the balance from the first number
to the second. A tag of the macro is stepped over as a whole and adds its levels, a closing tag takes one level away. -/
inductive Balanced (identifier : String) (rest : List Char) : Nat → List Char → Nat → Prop
  | nil (balance : Nat) : Balanced identifier rest balance [] balance
  | tag {n m : Nat} {chars passed : List Char} {tag : OpenTag} (htag : IsTagOf identifier chars tag)
    (h : Balanced identifier rest (n + tag.levels) passed m) : Balanced identifier rest n (chars ++ passed) m
  | closing {n m : Nat} {passed : List Char} (h : Balanced identifier rest n passed m) :
    Balanced identifier rest (n + 1) (closingTag identifier.toList ++ passed) m
  | plain {n m : Nat} {c : Char} {passed : List Char}
    (htag : ∀ chars tag, IsTagOf identifier chars tag → ¬ chars <+: c :: (passed ++ rest))
    (hclosing : ¬ closingTag identifier.toList <+: c :: (passed ++ rest))
    (h : Balanced identifier rest n passed m) : Balanced identifier rest n (c :: passed) m

/-- A closing tag stands in `text` after `content`, and it is the first one that is reached with balance zero: no scan
steps over a closing tag there. -/
def ClosedAfter (identifier : String) (text content : List Char) : Prop :=
  ∃ after, text = content ++ (closingTag identifier.toList ++ after)
    ∧ Balanced identifier (closingTag identifier.toList ++ after) 0 content 0

/-- No self-closing tag that a scan of `passed`, with `rest` after it, steps over holds a closing tag. -/
def StepsClear (identifier : String) (balance : Nat) (passed rest : List Char) : Prop :=
  ∀ before chars after m tag, passed = before ++ (chars ++ after) →
    Balanced identifier (chars ++ (after ++ rest)) balance before m → IsTagOf identifier chars tag →
    tag.selfClosing = true → ¬ closingTag identifier.toList <:+: chars

/-! ## Tags at one place -/

section Tags

variable {identifier : String} {chars text rest : List Char} {tag : OpenTag}

theorem IsTagOf.nestedTag?_append (h : IsTagOf identifier chars tag) (rest : List Char) :
    nestedTag? identifier (chars ++ rest) = some tag :=
  nestedTag?_eq_some_iff.2 ⟨h.2, chars, rest, rfl, h.1⟩

theorem IsTagOf.isName (h : IsTagOf identifier chars tag) : IsName identifier :=
  h.2 ▸ h.1.isName_identifier

theorem IsTagOf.exists_cons (h : IsTagOf identifier chars tag) : ∃ cs, chars = '{' :: cs := by
  obtain ⟨⟨-, -, -, -⟩, -⟩ := h
  exact ⟨_, rfl⟩

theorem nestedTag?_eq_none_iff :
    nestedTag? identifier text = none ↔ ∀ chars tag, IsTagOf identifier chars tag → ¬ chars <+: text := by
  constructor
  · rintro h chars tag htag ⟨after, rfl⟩
    rw [htag.nestedTag?_append] at h
    cases h
  · intro h
    refine Option.eq_none_iff_forall_ne_some.2 fun tag htag => ?_
    obtain ⟨hsame, chars, after, rfl, hchars⟩ := nestedTag?_eq_some_iff.1 htag
    exact h chars tag ⟨hchars, hsame⟩ (List.prefix_append chars after)

/-- A closing tag that begins in a tag does not go on after it. -/
theorem closingTag_prefix_of_closeMark_suffix (hname : IsName identifier) (hends : closeMark <:+ chars)
    {after : List Char} (hafter : after <:+ chars) (hne : after ≠ [])
    (h : closingTag identifier.toList <+: after ++ rest) :
    closingTag identifier.toList <+: after := by
  refine (prefix_append_cases h).resolve_right ?_
  rintro ⟨c, other, hsplit, -⟩
  match after, hne with
  | [d], _ =>
    obtain ⟨before, rfl⟩ := hends
    obtain rfl : d = '}' := by
      obtain ⟨front, hfront⟩ := hafter
      simpa [closeMark] using congrArg List.getLast? hfront
    exact absurd (List.cons.inj hsplit).1 (by decide)
  | d :: e :: after, _ =>
    have hclose : closeMark <:+ d :: e :: after :=
      List.suffix_of_suffix_length_le hends hafter (by simp [closeMark])
    exact List.cons_ne_nil c other (eq_nil_of_closeMark_suffix hname hsplit.symm hclose)

end Tags

/-! ## The search along a scan -/

namespace Search

variable {identifier : String} {depth : Nat} {chars passed rest : List Char} {tag : OpenTag}

/-- A search in a self-closing tag comes to the end of it, if no closing tag begins there. -/
theorem run_inside (h : ∀ after, after <:+ passed → after ≠ [] → ¬ closingTag identifier.toList <+: after ++ rest) :
    run identifier ⟨depth, 0, passed.length⟩ passed rest = some (between depth) := by
  induction passed with
  | nil => rfl
  | cons c passed ih =>
    rw [run, List.length_cons, ← List.cons_append, next_inside (h _ List.suffix_rfl (List.cons_ne_nil _ _)),
      Option.bind_some]
    exact ih fun after hafter => h after (hafter.trans (List.suffix_cons c passed))

theorem run_opening (h : IsTagOf identifier chars tag) (hself : tag.selfClosing = false) :
    (between depth).run identifier chars rest = some (between (depth + 1)) := by
  obtain ⟨cs, rfl⟩ := h.exists_cons
  rw [run, ← List.cons_append, next_opened (h.nestedTag?_append rest) hself, Option.bind_some, h.1.length,
    List.length_cons, Nat.add_sub_cancel, run_of_length_le (Nat.le_refl _), Nat.sub_self]
  rfl

theorem next_selfClosing (h : IsTagOf identifier chars tag) (hself : tag.selfClosing = true) :
    next identifier (between depth) (chars ++ rest) = some ⟨depth, 0, chars.length - 1⟩ := by
  rw [next_between (not_closingTag_prefix_of_nestedTag? (h.nestedTag?_append rest)), h.nestedTag?_append,
    Option.elim_some, opened, if_pos hself, h.1.length]

theorem run_selfClosing (h : IsTagOf identifier chars tag) (hself : tag.selfClosing = true)
    (hclear : ¬ closingTag identifier.toList <:+: chars) :
    (between depth).run identifier chars rest = some (between depth) := by
  have hnext : next identifier (between depth) (chars ++ rest) = _ := next_selfClosing h hself
  have hends := h.1.closeMark_suffix
  have hname := h.isName
  obtain ⟨cs, rfl⟩ := h.exists_cons
  rw [run, ← List.cons_append, hnext, Option.bind_some, List.length_cons, Nat.add_sub_cancel]
  refine run_inside fun after hafter hne hclosing => hclear ?_
  have hsuffix := hafter.trans (List.suffix_cons '{' cs)
  exact (closingTag_prefix_of_closeMark_suffix hname hends hsuffix hne hclosing).isInfix.trans hsuffix.isInfix

/-- The first closing tag in a self-closing tag ends the search. -/
theorem scanClose_inside {inside : Nat} (h : closingTag identifier.toList <:+: passed) (hle : passed.length ≤ inside) :
    ∃ n, scanClose identifier 0 0 inside (passed ++ rest) = some n
      ∧ n + (closingTag identifier.toList).length ≤ passed.length := by
  induction passed generalizing inside with
  | nil => exact absurd (List.infix_nil.1 h) (List.cons_ne_nil _ _)
  | cons c passed ih =>
    rw [List.cons_append, scanClose_cons ⟨0, 0, inside⟩]
    by_cases hclosing : closingTag identifier.toList <+: c :: (passed ++ rest)
    · rw [next_closing_zero hclosing]
      exact ⟨0, rfl, by rw [Nat.zero_add]; exact h.length_le⟩
    · rw [List.length_cons] at hle
      obtain ⟨inside, rfl⟩ : ∃ k, inside = k + 1 := ⟨inside - 1, by omega⟩
      rw [next_inside hclosing]
      have hpassed : closingTag identifier.toList <:+: passed :=
        (List.infix_cons_iff.1 h).resolve_left fun hstarts => hclosing (hstarts.trans (List.prefix_append _ _))
      obtain ⟨n, hn, hlength⟩ := ih hpassed (Nat.le_of_succ_le_succ hle)
      refine ⟨n + 1, ?_, by rw [List.length_cons]; omega⟩
      dsimp only
      rw [hn, Option.map_some]

theorem run_closing :
    (between (depth + 1)).run identifier (closingTag identifier.toList) rest = some (between depth) := by
  have hnext : (between (depth + 1)).next identifier (closingTag identifier.toList ++ rest) = _ :=
    next_closing (List.prefix_append _ _)
  obtain ⟨cs, hcs⟩ : ∃ cs, closingTag identifier.toList = '{' :: cs := ⟨_, rfl⟩
  rw [hcs] at hnext ⊢
  rw [run, ← List.cons_append, hnext, Option.bind_some, List.length_cons, Nat.add_sub_cancel,
    run_of_length_le (Nat.le_refl _), Nat.sub_self]
  rfl

end Search

section Scans

variable {identifier : String} {n m : Nat} {chars passed rest text : List Char} {tag : OpenTag}

theorem Balanced.append {k : Nat} {later : List Char} (h : Balanced identifier (later ++ rest) n passed m)
    (hlater : Balanced identifier rest m later k) : Balanced identifier rest n (passed ++ later) k := by
  induction h with
  | nil => exact hlater
  | tag htag _ ih => exact (List.append_assoc ..).symm ▸ .tag htag (ih hlater)
  | closing _ ih => exact (List.append_assoc ..).symm ▸ .closing (ih hlater)
  | plain htag hclosing _ ih =>
    rw [← List.append_assoc] at htag hclosing
    exact .plain htag hclosing (ih hlater)

theorem StepsClear.of_tag (htag : IsTagOf identifier chars tag) (h : StepsClear identifier n (chars ++ passed) rest) :
    StepsClear identifier (n + tag.levels) passed rest := by
  rintro before inner after m' tag' rfl hbefore
  exact h (chars ++ before) inner after m' tag' (List.append_assoc ..).symm (.tag htag hbefore)

theorem StepsClear.of_closing (h : StepsClear identifier (n + 1) (closingTag identifier.toList ++ passed) rest) :
    StepsClear identifier n passed rest := by
  rintro before inner after m' tag' rfl hbefore
  exact h (_ ++ before) inner after m' tag' (List.append_assoc ..).symm (.closing hbefore)

theorem StepsClear.of_plain {c : Char}
    (htag : ∀ chars tag, IsTagOf identifier chars tag → ¬ chars <+: c :: (passed ++ rest))
    (hclosing : ¬ closingTag identifier.toList <+: c :: (passed ++ rest))
    (h : StepsClear identifier n (c :: passed) rest) : StepsClear identifier n passed rest := by
  rintro before inner after m' tag' rfl hbefore
  rw [List.append_assoc, List.append_assoc] at htag hclosing
  exact h (c :: before) inner after m' tag' rfl (.plain htag hclosing hbefore)

theorem StepsClear.of_prefix (h : StepsClear identifier n text []) (htext : text = passed ++ rest) :
    StepsClear identifier n passed rest := by
  rintro before inner after m' tag' rfl hbefore
  refine h before inner (after ++ rest) m' tag' (by rw [htext, List.append_assoc, List.append_assoc]) ?_
  rwa [List.append_nil]

/-- In a text in which no self-closing tag of the macro holds a closing tag, none is stepped over. -/
theorem stepsClear_of_forall (h : ∀ k < text.length, ∀ tag ∈ nestedTag? identifier (text.drop k),
    tag.selfClosing = true → ¬ closingTag identifier.toList <:+: (text.drop k).take tag.length) :
    StepsClear identifier n text [] := by
  rintro before chars after m tag rfl - htag hself
  have hdrop : (before ++ (chars ++ after)).drop before.length = chars ++ after := List.drop_left
  have hlt : before.length < (before ++ (chars ++ after)).length := by
    obtain ⟨cs, rfl⟩ := htag.exists_cons
    simp
  have hclear := h before.length hlt tag (hdrop.symm ▸ htag.nestedTag?_append after) hself
  rwa [hdrop, htag.1.length, List.take_left] at hclear

/-- The search goes along with a scan that steps over no closing tag in a self-closing tag. -/
theorem Balanced.run_eq (h : Balanced identifier rest n passed m) (hclear : StepsClear identifier n passed rest) :
    (Search.between n).run identifier passed rest = some (.between m) := by
  induction h with
  | nil => rfl
  | @tag n m chars passed tag htag _ ih =>
    rw [Search.run_append]
    cases hself : tag.selfClosing with
    | false =>
      rw [Search.run_opening htag hself, Option.bind_some]
      have hrun := ih (hclear.of_tag htag)
      rwa [OpenTag.levels, if_neg (by rw [hself]; exact Bool.false_ne_true)] at hrun
    | true =>
      have hchars := hclear [] chars passed n tag rfl (.nil n) htag hself
      rw [Search.run_selfClosing htag hself hchars, Option.bind_some]
      have hrun := ih (hclear.of_tag htag)
      rwa [OpenTag.levels, if_pos hself] at hrun
  | closing _ ih =>
    rw [Search.run_append, Search.run_closing, Option.bind_some]
    exact ih hclear.of_closing
  | plain htag hclosing _ ih =>
    rw [Search.run, Search.next_between hclosing, nestedTag?_eq_none_iff.2 htag, Option.elim_none, Option.bind_some]
    exact ih (hclear.of_plain htag hclosing)

/-- A scan comes to a closing tag with balance zero, or to the end of the text. -/
theorem exists_balanced (identifier : String) (n : Nat) (text : List Char) :
    (∃ content after, text = content ++ (closingTag identifier.toList ++ after)
      ∧ Balanced identifier (closingTag identifier.toList ++ after) n content 0)
    ∨ ∃ m, Balanced identifier [] n text m := by
  -- By the length of the text, as a tag and a closing tag are stepped over as a whole.
  induction hlength : text.length using Nat.strongRecOn generalizing text n with
  | ind k ih =>
  cases text with
  | nil => exact .inr ⟨n, .nil n⟩
  | cons c cs =>
    by_cases hclosing : closingTag identifier.toList <+: c :: cs
    · obtain ⟨after, hafter⟩ := hclosing
      cases n with
      | zero => exact .inl ⟨[], after, hafter.symm, .nil 0⟩
      | succ n =>
        have hlt : after.length < k := by
          rw [← hlength, ← hafter, closingTag, openMark]
          simp only [List.length_append, List.length_cons]
          omega
        rw [← hafter]
        rcases ih after.length hlt n after rfl with ⟨content, after', rfl, h⟩ | ⟨m, h⟩
        · exact .inl ⟨_ ++ content, after', (List.append_assoc ..).symm, .closing h⟩
        · exact .inr ⟨m, .closing h⟩
    by_cases htag : ∃ chars tag, IsTagOf identifier chars tag ∧ chars <+: c :: cs
    · obtain ⟨chars, tag, htag, after, hafter⟩ := htag
      have hlt : after.length < k := by
        obtain ⟨chars', rfl⟩ := htag.exists_cons
        rw [← hlength, ← hafter, List.length_append, List.length_cons]
        omega
      rw [← hafter]
      rcases ih after.length hlt (n + tag.levels) after rfl with ⟨content, after', rfl, h⟩ | ⟨m, h⟩
      · exact .inl ⟨_ ++ content, after', (List.append_assoc ..).symm, .tag htag h⟩
      · exact .inr ⟨m, .tag htag h⟩
    · have htag' : ∀ chars tag, IsTagOf identifier chars tag → ¬ chars <+: c :: cs :=
        fun chars tag h hstarts => htag ⟨chars, tag, h, hstarts⟩
      rcases ih cs.length (by rw [← hlength]; exact Nat.lt_succ_self _) n cs rfl with ⟨content, after, rfl, h⟩ | ⟨m, h⟩
      · exact .inl ⟨c :: content, after, rfl, .plain htag' hclosing h⟩
      · refine .inr ⟨m, .plain ?_ ?_ h⟩
        · rwa [List.append_nil]
        · rwa [List.append_nil]

theorem ClosedAfter.scanClose_eq {content : List Char} (h : ClosedAfter identifier text content)
    (hclear : StepsClear identifier 0 text []) : scanClose identifier 0 0 0 text = some content.length := by
  obtain ⟨after, rfl, hcontent⟩ := h
  have hscan := Search.scanClose_append (hcontent.run_eq (hclear.of_prefix rfl))
  refine hscan.trans ?_
  exact (congrArg _ (scanClose_closingTag after)).trans (congrArg some (Nat.zero_add _))

/-- The search finds the closing tag, if no self-closing tag that is stepped over holds one. -/
theorem closedAfter_iff {content : List Char} (hclear : StepsClear identifier 0 text []) :
    ClosedAfter identifier text content ↔ scanClose identifier 0 0 0 text = some content.length ∧ content <+: text := by
  constructor
  · intro h
    refine ⟨h.scanClose_eq hclear, ?_⟩
    obtain ⟨after, rfl, -⟩ := h
    exact List.prefix_append _ _
  · rintro ⟨hscan, hstarts⟩
    rcases exists_balanced identifier 0 text with ⟨content', after, htext, h⟩ | ⟨m, h⟩
    · have hclosed : ClosedAfter identifier text content' := ⟨after, htext, h⟩
      have hlength := Option.some.inj ((hclosed.scanClose_eq hclear).symm.trans hscan)
      have hstarts' : content' <+: text := htext ▸ List.prefix_append _ _
      rwa [← (List.prefix_of_prefix_length_le hstarts' hstarts (Nat.le_of_eq hlength)).eq_of_length hlength]
    · have hend := Search.scanClose_append (h.run_eq hclear)
      rw [List.append_nil] at hend
      exact absurd (hend.symm.trans hscan) nofun

theorem ClosedAfter.length_le {content before after : List Char} (hclosed : ClosedAfter identifier text content)
    (hclear : StepsClear identifier 0 text []) (htext : text = before ++ (chars ++ after))
    (hbefore : Balanced identifier (chars ++ after) 0 before m) (htag : IsTagOf identifier chars tag) :
    (before ++ chars).length ≤ content.length := by
  have hchars : Balanced identifier after m (chars ++ []) (m + tag.levels) := .tag htag (.nil _)
  rw [List.append_nil] at hchars
  rw [← List.append_assoc] at htext
  have hscan := Search.scanClose_append ((hbefore.append hchars).run_eq (hclear.of_prefix htext))
  obtain ⟨n, -, hn⟩ := Option.map_eq_some_iff.1 ((htext ▸ hscan).symm.trans (hclosed.scanClose_eq hclear))
  omega

/-- A self-closing tag that the search comes to with balance zero, and that holds a closing tag, ends the search. -/
theorem Balanced.scanClose_inside {before after : List Char} (hbefore : Balanced identifier (chars ++ after) 0 before 0)
    (hclear : StepsClear identifier 0 before (chars ++ after)) (htag : IsTagOf identifier chars tag)
    (hself : tag.selfClosing = true) (hclosing : closingTag identifier.toList <:+: chars) :
    ∃ n, scanClose identifier 0 0 0 (before ++ (chars ++ after)) = some n ∧ before.length < n
      ∧ n + (closingTag identifier.toList).length ≤ (before ++ chars).length := by
  have hnext : Search.next identifier (.between 0) (chars ++ after) = _ := Search.next_selfClosing htag hself
  have hstart := not_closingTag_prefix_of_nestedTag? (htag.nestedTag?_append after)
  have hscan := Search.scanClose_append (hbefore.run_eq hclear)
  obtain ⟨cs, rfl⟩ := htag.exists_cons
  have hcs : closingTag identifier.toList <:+: cs :=
    (List.infix_cons_iff.1 hclosing).resolve_left fun hstarts => hstart (hstarts.trans (List.prefix_append _ _))
  obtain ⟨n, hn, hlength⟩ : ∃ n, scanClose identifier 0 0 cs.length (cs ++ after) = some n ∧ _ :=
    Search.scanClose_inside hcs (Nat.le_refl _)
  have hchars : scanClose identifier 0 0 0 ('{' :: cs ++ after) = some (n + 1) := by
    rw [List.cons_append] at hnext ⊢
    refine (Search.scanClose_cons (.between 0)).trans ?_
    rw [hnext, List.length_cons, Nat.add_sub_cancel]
    dsimp only
    rw [hn, Option.map_some]
  refine ⟨n + 1 + before.length, hscan.trans (congrArg _ hchars), by omega, ?_⟩
  rw [List.length_append, List.length_cons]
  omega

end Scans

/-! ## The content of a call -/

/-- The closing tag of the call that an opening tag begins. If no self-closing tag of the macro that is stepped over
holds a closing tag, then the content ends at the first closing tag with balance zero, the call is never closed if
there is none, and every tag of the macro that is stepped over lies in the content as a whole. A self-closing tag that
is reached with balance zero and holds a closing tag is the exception: the content ends in it. -/
theorem IsTag.readCall_balanced {opening text : List Char} {tag : OpenTag} (h : IsTag opening tag)
    (hself : tag.selfClosing = false) :
    (StepsClear tag.identifier 0 text [] →
      (∀ content, ClosedAfter tag.identifier text content →
        readCall (opening ++ text)
            = .ok (some ⟨⟨tag.identifier, tag.parameters, some (String.ofList (trimContent content))⟩,
                opening.length + content.length + (closingTag tag.identifier.toList).length⟩)
          ∧ ∀ before chars after balance inner, text = before ++ (chars ++ after) →
              Balanced tag.identifier (chars ++ after) 0 before balance → IsTagOf tag.identifier chars inner →
              (before ++ chars).length ≤ content.length)
      ∧ ((∀ content, ¬ ClosedAfter tag.identifier text content) →
          readCall (opening ++ text) = .error ⟨.neverClosed tag.identifier, ⟨0, Text.byteLength opening⟩⟩))
    ∧ ∀ before chars after inner, text = before ++ (chars ++ after) →
        Balanced tag.identifier (chars ++ after) 0 before 0 → StepsClear tag.identifier 0 before (chars ++ after) →
        IsTagOf tag.identifier chars inner → inner.selfClosing = true → closingTag tag.identifier.toList <:+: chars →
        ∃ n, before.length < n ∧ n < (before ++ chars).length
          ∧ readCall (opening ++ text)
            = .ok (some ⟨⟨tag.identifier, tag.parameters, some (String.ofList (trimContent (text.take n)))⟩,
                opening.length + n + (closingTag tag.identifier.toList).length⟩) := by
  refine ⟨fun hclear => ⟨fun content hclosed => ⟨?_, ?_⟩, fun hnone => ?_⟩, ?_⟩
  · obtain ⟨hscan, after, rfl⟩ := (closedAfter_iff hclear).1 hclosed
    rw [h.readCall_eq hself, hscan]
    dsimp only
    rw [List.take_left]
  · intro before chars after balance inner htext hbefore hinner
    exact hclosed.length_le hclear htext hbefore hinner
  · rw [h.readCall_eq hself]
    split
    · rfl
    · next n hscan =>
      obtain ⟨content, after, s, rfl, rfl, -⟩ := Search.scanClose_eq_some (s := .between 0) hscan
      exact absurd ((closedAfter_iff hclear).2 ⟨hscan, List.prefix_append _ _⟩) (hnone content)
  · rintro before chars after inner rfl hbefore hclear hinner hinside hclosing
    obtain ⟨n, hscan, hlt, hle⟩ := hbefore.scanClose_inside hclear hinner hinside hclosing
    refine ⟨n, hlt, ?_, ?_⟩
    · have hpos : 0 < (closingTag tag.identifier.toList).length := List.length_pos_iff.2 (List.cons_ne_nil _ _)
      omega
    · rw [h.readCall_eq hself, hscan]

/-- A nested tag with a closing tag in its value, its own closing tag, and a self-closing tag. -/
theorem IsTag.readCall_balanced_box :
    let opening := "\x7b\x7bbox\x7d\x7d".toList
    let content := "a \x7b\x7bbox t=\"\x7b\x7b/box\x7d\x7d\"\x7d\x7db\x7b\x7b/box\x7d\x7d \x7b\x7bbox/\x7d\x7d"
    let text := content.toList ++ "\x7b\x7b/box\x7d\x7d c".toList
    IsTag opening ⟨"box", .empty, false, 7⟩ ∧ StepsClear "box" 0 text []
      ∧ ClosedAfter "box" text content.toList
      ∧ readCall (opening ++ text) = .ok (some ⟨⟨"box", .empty, some content⟩, 55⟩) := by
  intro opening content text
  have htag : IsTag opening ⟨"box", .empty, false, 7⟩ := .of_readOpenTag (by decide +kernel) rfl
  have hclear : StepsClear "box" 0 text [] := stepsClear_of_forall (by decide +kernel)
  have hclosed : ClosedAfter "box" text content.toList :=
    (closedAfter_iff hclear).2 ⟨by decide +kernel, List.prefix_append _ _⟩
  have hread := (((htag.readCall_balanced rfl).1 hclear).1 _ hclosed).1
  have htrim : String.ofList (trimContent content.toList) = content := by decide +kernel
  have hlength : opening.length + content.toList.length + (closingTag "box".toList).length = 55 := by decide +kernel
  dsimp only at hread
  rw [htrim, hlength] at hread
  exact ⟨htag, hclear, hclosed, hread⟩

/-- The content of a call can end in the value of a self-closing tag. -/
theorem IsTag.not_readCall_balanced :
    ¬ ∀ (opening text : List Char) (tag : OpenTag), IsTag opening tag → tag.selfClosing = false →
      ∀ content, ClosedAfter tag.identifier text content →
        readCall (opening ++ text)
          = .ok (some ⟨⟨tag.identifier, tag.parameters, some (String.ofList (trimContent content))⟩,
              opening.length + content.length + (closingTag tag.identifier.toList).length⟩) := by
  intro h
  let inner := "\x7b\x7ba x=\"\x7b\x7b/a\x7d\x7d\"/\x7d\x7d".toList
  have htag : IsTag "\x7b\x7ba\x7d\x7d".toList ⟨"a", .empty, false, 5⟩ := .of_readOpenTag (by decide +kernel) rfl
  have hinner : IsTag inner ⟨"a", .ofList [("x", "\x7b\x7b/a\x7d\x7d")], true, 17⟩ :=
    .of_readOpenTag (by decide +kernel) rfl
  have hclosed : ClosedAfter "a" (inner ++ closingTag "a".toList) inner :=
    ⟨[], by rw [List.append_nil], .tag ⟨hinner, rfl⟩ (.nil 0)⟩
  have hread := h _ _ _ htag rfl _ hclosed
  exact absurd hread (by decide +kernel)

end MacroDoc
