import MacroDoc.Proofs.Call.Tag

/-!
# The search for the closing tag

The search goes through a text one character at a time. Its state says how many tags are open, and how much of the
tag it is in is still to come.

* `Search.next` : what the search does at one place, or that the closing tag stands there;
* `Search.run` : the state after a piece of the text, when `rest` comes after it;
* `Search.scanClose_append`, `Search.scanClose_eq_some` : the place that is found is where the run ends;
* `Search.run_congr` : a search reads what it passes, and beyond that only the tags that begin there.
-/

namespace MacroDoc

open Call (openMark closeMark selfCloseMark closingTag)

/-! ## Closing tags -/

/-- A mark at the start of a text stands before `after` or goes on into it. -/
theorem prefix_append_cases {mark text after : List Char} (h : mark <+: text ++ after) :
    mark <+: text ∨ ∃ c rest, mark = text ++ c :: rest ∧ c :: rest <+: after := by
  rcases List.prefix_or_prefix_of_prefix h (List.prefix_append text after) with h' | ⟨rest, rfl⟩
  · exact .inl h'
  · cases rest with
    | nil => exact .inl ⟨[], by rw [List.append_nil, List.append_nil]⟩
    | cons c rest => exact .inr ⟨c, rest, rfl, (List.prefix_append_right_inj text).1 h⟩

/-- A mark that begins in a text does not go on into a tag that follows the text, as no proper end of it begins like
a tag. -/
theorem prefix_of_append_openMark {mark text after : List Char} (hmark : '{' ∉ mark) (hnil : mark ≠ [])
    (hne : text ≠ []) (h : openMark ++ mark <+: text ++ (openMark ++ after)) : openMark ++ mark <+: text := by
  refine (prefix_append_cases h).resolve_right ?_
  rintro ⟨c, rest, hsplit, hrest⟩
  obtain rfl : c = '{' := (List.cons_prefix_cons.1 hrest).1
  match text, hne with
  | [a], _ =>
    obtain rfl : mark = rest := (List.cons.inj (List.cons.inj hsplit).2).2
    obtain ⟨c, cs, rfl⟩ := List.exists_cons_of_ne_nil hnil
    obtain rfl : c = '{' := (List.cons_prefix_cons.1 (List.cons_prefix_cons.1 hrest).2).1
    exact hmark List.mem_cons_self
  | a :: b :: text, _ =>
    have hmem : mark = text ++ '{' :: rest := (List.cons.inj (List.cons.inj hsplit).2).2
    exact hmark (hmem ▸ List.mem_append_right text List.mem_cons_self)

theorem IsName.openBrace_not_mem {name : String} (h : IsName name) : '{' ∉ name.toList :=
  fun hmem => by simpa using h.2 _ hmem

theorem closingTag_eq (identifier : List Char) :
    closingTag identifier = openMark ++ ('/' :: identifier ++ closeMark) := by
  rw [closingTag, List.append_assoc]

theorem closingTag_prefix_append_iff {identifier : String} (hname : IsName identifier) {text : List Char}
    (hne : text ≠ []) (rest : List Char) :
    closingTag identifier.toList <+: text ++ (closingTag identifier.toList ++ rest)
      ↔ closingTag identifier.toList <+: text := by
  refine ⟨fun h => ?_, fun h => h.trans (List.prefix_append _ _)⟩
  have hmark : '{' ∉ '/' :: identifier.toList ++ closeMark := by
    simp [closeMark, hname.openBrace_not_mem]
  rw [closingTag_eq, List.append_assoc openMark] at h
  exact prefix_of_append_openMark hmark (by simp) hne h

theorem not_closingTag_prefix_of_nestedTag? {identifier : String} {text : List Char} {tag : OpenTag}
    (h : nestedTag? identifier text = some tag) : ¬ closingTag identifier.toList <+: text := by
  obtain ⟨c, rest, rfl, -⟩ := exists_of_nestedTag? h
  have hname := isName_of_nestedTag? h
  obtain ⟨d, cs, hd⟩ := List.exists_cons_of_ne_nil hname.toList_ne_nil
  intro hclosing
  rw [closingTag_eq, List.prefix_append_right_inj, hd] at hclosing
  obtain rfl : '/' = d := (List.cons_prefix_cons.1 hclosing).1
  simpa using hname.2 '/' (by rw [hd]; exact List.mem_cons_self)

theorem getElem?_of_closingTag_prefix {identifier text : List Char} {n : Nat} (h : closingTag identifier <+: text)
    (hn : n + 1 = (closingTag identifier).length) : text[n]? = some '}' := by
  obtain ⟨after, rfl⟩ := h
  obtain rfl : n = (openMark ++ '/' :: identifier ++ ['}']).length := by
    simp only [closingTag, closeMark, List.length_append, List.length_cons, List.length_nil] at hn ⊢
    omega
  simp [closingTag, closeMark]

/-- A piece of the closing tag that ends with the mark of a tag is all of it. -/
theorem eq_nil_of_closeMark_suffix {identifier : String} (hname : IsName identifier) {mark rest : List Char}
    (h : mark ++ rest = closingTag identifier.toList) (hclose : closeMark <:+ mark) : rest = [] := by
  obtain ⟨before, rfl⟩ := hclose
  have hbrace : '}' ∉ openMark ++ '/' :: identifier.toList := by
    have hmem : '}' ∉ identifier.toList := fun hmem => by simpa using hname.2 _ hmem
    simp [openMark, hmem]
  rw [closingTag, List.append_assoc] at h
  rcases List.append_eq_append_iff.1 h with ⟨other, hopening, hother⟩ | ⟨other, -, hother⟩
  · cases other with
    | nil => simpa [closeMark] using hother
    | cons d other =>
      obtain rfl : '}' = d := (List.cons.inj hother).1
      exact absurd (hopening ▸ List.mem_append_right before List.mem_cons_self) hbrace
  · have hlength := congrArg List.length hother
    simp only [List.length_append] at hlength
    exact List.eq_nil_of_length_eq_zero (by omega)

/-! ## One place -/

/-- A state of the search: how many tags are to be closed first, and how many of the next characters belong to a tag,
and to a self-closing tag. -/
structure Search where
  depth : Nat
  whole : Nat
  inside : Nat
  deriving DecidableEq

namespace Search

/-- In no tag, with `depth` tags to be closed first. -/
def between (depth : Nat) : Search := ⟨depth, 0, 0⟩

/-- The state at the first character of a tag, which is passed. -/
def opened (depth : Nat) (tag : OpenTag) : Search :=
  if tag.selfClosing then ⟨depth, 0, tag.length - 1⟩ else ⟨depth + 1, tag.length - 1, 0⟩

/-- The state after the first character of `text`; none if the closing tag stands there. -/
def next (identifier : String) : Search → List Char → Option Search
  | ⟨depth, whole + 1, inside⟩, _ => some ⟨depth, whole, inside⟩
  | ⟨depth, 0, inside⟩, text =>
    if (closingTag identifier.toList).isPrefixOf text then
      match depth with
      | 0 => none
      | depth + 1 => some ⟨depth, (closingTag identifier.toList).length - 1, 0⟩
    else match inside with
      | inside + 1 => some ⟨depth, 0, inside⟩
      | 0 => some ((nestedTag? identifier text).elim (between depth) (opened depth))

/-- The state after `passed`, when `rest` comes after it; none if the search ends before. -/
def run (identifier : String) (s : Search) : List Char → List Char → Option Search
  | [], _ => some s
  | c :: passed, rest => (s.next identifier (c :: (passed ++ rest))).bind fun s' => s'.run identifier passed rest

variable {identifier : String} {s s' : Search} {c : Char} {text passed rest : List Char}

theorem next_zero {depth inside : Nat} :
    next identifier ⟨depth, 0, inside⟩ text
      = if (closingTag identifier.toList).isPrefixOf text then
          match depth with
          | 0 => none
          | depth + 1 => some ⟨depth, (closingTag identifier.toList).length - 1, 0⟩
        else match inside with
          | inside + 1 => some ⟨depth, 0, inside⟩
          | 0 => some ((nestedTag? identifier text).elim (between depth) (opened depth)) :=
  rfl

theorem next_closing {depth inside : Nat} (h : closingTag identifier.toList <+: text) :
    next identifier ⟨depth + 1, 0, inside⟩ text = some ⟨depth, (closingTag identifier.toList).length - 1, 0⟩ := by
  rw [next_zero, if_pos (List.isPrefixOf_iff_prefix.2 h)]

theorem next_closing_zero {inside : Nat} (h : closingTag identifier.toList <+: text) :
    next identifier ⟨0, 0, inside⟩ text = none := by
  rw [next_zero, if_pos (List.isPrefixOf_iff_prefix.2 h)]

theorem next_inside {depth inside : Nat} (h : ¬ closingTag identifier.toList <+: text) :
    next identifier ⟨depth, 0, inside + 1⟩ text = some ⟨depth, 0, inside⟩ := by
  rw [next_zero, if_neg (mt List.isPrefixOf_iff_prefix.1 h)]

theorem next_between {depth : Nat} (h : ¬ closingTag identifier.toList <+: text) :
    next identifier (between depth) text = some ((nestedTag? identifier text).elim (between depth) (opened depth)) :=
  next_zero.trans (if_neg (mt List.isPrefixOf_iff_prefix.1 h))

/-- What one place can do to the state. -/
theorem next_cases (identifier : String) (s : Search) (text : List Char) :
    (∃ whole, s.whole = whole + 1 ∧ s.next identifier text = some { s with whole })
      ∨ (s.whole = 0 ∧ closingTag identifier.toList <+: text ∧
          (s.depth = 0 ∧ s.next identifier text = none
            ∨ ∃ depth, s.depth = depth + 1
                ∧ s.next identifier text = some ⟨depth, (closingTag identifier.toList).length - 1, 0⟩))
      ∨ (s.whole = 0 ∧ ¬ closingTag identifier.toList <+: text ∧
          ∃ inside, s.inside = inside + 1 ∧ s.next identifier text = some { s with inside })
      ∨ (s = between s.depth ∧ ¬ closingTag identifier.toList <+: text
          ∧ s.next identifier text = some ((nestedTag? identifier text).elim (between s.depth) (opened s.depth))) := by
  obtain ⟨depth, whole | whole, inside⟩ := s
  · by_cases hclosing : closingTag identifier.toList <+: text
    · refine .inr (.inl ⟨rfl, hclosing, ?_⟩)
      cases depth with
      | zero => exact .inl ⟨rfl, next_closing_zero hclosing⟩
      | succ depth => exact .inr ⟨depth, rfl, next_closing hclosing⟩
    · cases inside with
      | zero => exact .inr (.inr (.inr ⟨rfl, hclosing, next_between hclosing⟩))
      | succ inside => exact .inr (.inr (.inl ⟨rfl, hclosing, inside, rfl, next_inside hclosing⟩))
  · exact .inl ⟨whole, rfl, rfl⟩

theorem next_eq_none_iff :
    s.next identifier text = none ↔ s.whole = 0 ∧ s.depth = 0 ∧ closingTag identifier.toList <+: text := by
  rcases next_cases identifier s text with ⟨whole, hwhole, hnext⟩
    | ⟨hwhole, hclosing, ⟨hdepth, hnext⟩ | ⟨depth, hdepth, hnext⟩⟩
    | ⟨hwhole, hclosing, inside, hinside, hnext⟩ | ⟨hs, hclosing, hnext⟩
  · simp [hnext, hwhole]
  · simp [hnext, hwhole, hdepth, hclosing]
  · simp [hnext, hdepth]
  · simp [hnext, hclosing]
  · simp [hnext, hclosing]

theorem scanClose_cons (s : Search) :
    scanClose identifier s.depth s.whole s.inside (c :: text)
      = match s.next identifier (c :: text) with
        | none => some 0
        | some s' => (scanClose identifier s'.depth s'.whole s'.inside text).map (· + 1) := by
  obtain ⟨depth, whole | whole, inside⟩ := s
  · rw [scanClose.eq_def, next_zero]
    dsimp only
    by_cases hclosing : (closingTag identifier.toList).isPrefixOf (c :: text)
    · rw [if_pos hclosing, if_pos hclosing]
      cases depth <;> rfl
    · rw [if_neg hclosing, if_neg hclosing]
      cases inside with
      | succ inside => rfl
      | zero =>
        cases nestedTag? identifier (c :: text) with
        | none => rfl
        | some tag => cases htag : tag.selfClosing <;> simp [opened, htag]
  · rfl

theorem run_append {a b : List Char} :
    s.run identifier (a ++ b) rest = (s.run identifier a (b ++ rest)).bind fun s' => s'.run identifier b rest := by
  induction a generalizing s with
  | nil => rfl
  | cons c a ih =>
    simp only [List.cons_append, run, List.append_assoc, Option.bind_assoc]
    congr 1
    funext s'
    exact ih

/-! ## The place that is found -/

theorem scanClose_append (h : s.run identifier passed rest = some s') :
    scanClose identifier s.depth s.whole s.inside (passed ++ rest)
      = (scanClose identifier s'.depth s'.whole s'.inside rest).map (· + passed.length) := by
  induction passed generalizing s with
  | nil => obtain rfl := Option.some.inj h; simp
  | cons c passed ih =>
    rw [run] at h
    obtain ⟨s₁, hnext, hrun⟩ := Option.bind_eq_some_iff.1 h
    rw [List.cons_append, scanClose_cons, hnext]
    dsimp only
    rw [ih hrun, Option.map_map]
    rfl

theorem scanClose_eq_some {n : Nat} (h : scanClose identifier s.depth s.whole s.inside text = some n) :
    ∃ passed rest s', text = passed ++ rest ∧ passed.length = n ∧ s.run identifier passed rest = some s'
      ∧ s'.next identifier rest = none := by
  induction text generalizing s n with
  | nil => simp [scanClose] at h
  | cons c text ih =>
    rw [scanClose_cons] at h
    cases hnext : s.next identifier (c :: text) with
    | none =>
      rw [hnext] at h
      obtain rfl := Option.some.inj h
      exact ⟨[], c :: text, s, rfl, rfl, rfl, hnext⟩
    | some s₁ =>
      rw [hnext] at h
      obtain ⟨m, hm, rfl⟩ := Option.map_eq_some_iff.1 h
      obtain ⟨passed, rest, s', rfl, rfl, hrun, hend⟩ := ih hm
      exact ⟨c :: passed, rest, s', rfl, rfl, by rw [run, hnext]; exact hrun, hend⟩

/-! ## What the search reads -/

theorem next_congr {text₁ text₂ : List Char}
    (hclosing : closingTag identifier.toList <+: text₁ ↔ closingTag identifier.toList <+: text₂)
    (htag : ∀ depth, s = between depth → nestedTag? identifier text₁ = nestedTag? identifier text₂) :
    s.next identifier text₁ = s.next identifier text₂ := by
  obtain ⟨depth, whole | whole, inside⟩ := s
  · by_cases h₁ : closingTag identifier.toList <+: text₁
    · have h₂ := hclosing.1 h₁
      cases depth with
      | zero => rw [next_closing_zero h₁, next_closing_zero h₂]
      | succ depth => rw [next_closing h₁, next_closing h₂]
    · have h₂ := mt hclosing.2 h₁
      cases inside with
      | zero =>
        have hsame : next identifier (between depth) text₂ = _ := next_between h₂
        rw [← htag depth rfl] at hsame
        exact (next_between h₁).trans hsame.symm
      | succ inside => rw [next_inside h₁, next_inside h₂]
  · rfl

/-- Two searches go the same way through `passed` if they see the same closing tags in it, and, wherever both come
to, the same tags. -/
theorem run_congr {rest₁ rest₂ : List Char}
    (hclosing : ∀ after, after <:+ passed → after ≠ [] →
      (closingTag identifier.toList <+: after ++ rest₁ ↔ closingTag identifier.toList <+: after ++ rest₂))
    (htag : ∀ before after depth, passed = before ++ after → after ≠ [] →
      s.run identifier before (after ++ rest₁) = some (between depth) →
      s.run identifier before (after ++ rest₂) = some (between depth) →
      nestedTag? identifier (after ++ rest₁) = nestedTag? identifier (after ++ rest₂)) :
    s.run identifier passed rest₁ = s.run identifier passed rest₂ := by
  induction passed generalizing s with
  | nil => rfl
  | cons c passed ih =>
    have hnext : s.next identifier (c :: (passed ++ rest₁)) = s.next identifier (c :: (passed ++ rest₂)) :=
      next_congr (hclosing (c :: passed) List.suffix_rfl (List.cons_ne_nil _ _))
        fun depth hs => htag [] (c :: passed) depth rfl (List.cons_ne_nil _ _) (hs ▸ rfl) (hs ▸ rfl)
    rw [run, run, hnext]
    cases hs' : s.next identifier (c :: (passed ++ rest₂)) with
    | none => rfl
    | some s' =>
      -- From here on both are in the state `s'`, so what is asked of them after `c :: before` holds after `before`.
      refine ih (fun after hafter => hclosing after (hafter.trans (List.suffix_cons c passed))) ?_
      intro before after depth hpassed hne h₁ h₂
      have hstep {rest : List Char} (h : s.next identifier (c :: (passed ++ rest)) = some s') :
          s.run identifier (c :: before) (after ++ rest) = s'.run identifier before (after ++ rest) := by
        rw [run, ← List.append_assoc, ← hpassed, h, Option.bind_some]
      exact htag (c :: before) after depth (by rw [hpassed, List.cons_append]) hne ((hstep (hnext.trans hs')).trans h₁)
        ((hstep hs').trans h₂)

theorem run_of_length_le (h : passed.length ≤ s.whole) :
    s.run identifier passed rest = some { s with whole := s.whole - passed.length } := by
  induction passed generalizing s with
  | nil => rfl
  | cons c passed ih =>
    obtain ⟨depth, whole, inside⟩ := s
    rw [List.length_cons] at h
    obtain ⟨whole, rfl⟩ : ∃ n, whole = n + 1 := ⟨whole - 1, by dsimp only at h; omega⟩
    have hnext : next identifier ⟨depth, whole + 1, inside⟩ (c :: (passed ++ rest)) = some ⟨depth, whole, inside⟩ := rfl
    rw [run, hnext, Option.bind_some, ih (by dsimp only at h ⊢; omega)]
    simp

theorem whole_le_length (h : s.run identifier passed rest = some s') (hwhole : s'.whole = 0) :
    s.whole ≤ passed.length := by
  refine Nat.le_of_not_lt fun hlt => ?_
  rw [run_of_length_le (Nat.le_of_lt hlt)] at h
  obtain rfl := Option.some.inj h
  dsimp only at hwhole
  omega

theorem next_opened {depth : Nat} {tag : OpenTag} (htag : nestedTag? identifier text = some tag)
    (hself : tag.selfClosing = false) :
    next identifier (between depth) text = some ⟨depth + 1, tag.length - 1, 0⟩ := by
  rw [next_between (not_closingTag_prefix_of_nestedTag? htag), htag, Option.elim_some, opened,
    if_neg (by rw [hself]; exact Bool.false_ne_true)]

/-- An opening tag that the search comes to is over when the search is in no tag again. -/
theorem length_le_of_run {depth : Nat} {tag : OpenTag} (h : (between depth).run identifier passed rest = some s')
    (hwhole : s'.whole = 0) (hne : passed ≠ []) (htag : nestedTag? identifier (passed ++ rest) = some tag)
    (hself : tag.selfClosing = false) : tag.length ≤ passed.length := by
  obtain ⟨c, passed, rfl⟩ := List.exists_cons_of_ne_nil hne
  rw [run, ← List.cons_append, next_opened htag hself, Option.bind_some] at h
  have hle := whole_le_length h hwhole
  dsimp only at hle
  rw [List.length_cons]
  omega

/-- A tag that takes in the whole text is never closed. -/
theorem scanClose_eq_none_of_opened {depth : Nat} {tag : OpenTag} (htag : nestedTag? identifier text = some tag)
    (hself : tag.selfClosing = false) (hlength : tag.length = text.length) :
    scanClose identifier depth 0 0 text = none := by
  cases text with
  | nil => rfl
  | cons c text =>
    have hrun : run identifier ⟨depth + 1, tag.length - 1, 0⟩ text [] = _ :=
      run_of_length_le (by dsimp only; rw [hlength]; exact Nat.le_refl _)
    have hscan := scanClose_append hrun
    rw [List.append_nil] at hscan
    refine (scanClose_cons (between depth)).trans ?_
    rw [next_opened htag hself]
    dsimp only at hscan ⊢
    rw [hscan]
    rfl

/-- The tag that the search is in ends with a brace. -/
def EndsWithBrace (s : Search) (rest : List Char) : Prop :=
  ∀ n, s.whole = n + 1 → rest[n]? = some '}'

theorem EndsWithBrace.next (h : s.EndsWithBrace (c :: text)) (hnext : s.next identifier (c :: text) = some s') :
    s'.EndsWithBrace text := by
  intro n hn
  rcases next_cases identifier s (c :: text) with ⟨whole, hwhole, hs'⟩
    | ⟨-, hclosing, ⟨-, hs'⟩ | ⟨depth, -, hs'⟩⟩ | ⟨hwhole, -, inside, -, hs'⟩ | ⟨-, -, hs'⟩
  all_goals rw [hnext] at hs'
  · obtain rfl := Option.some.inj hs'
    simpa using h (n + 1) (by rw [hwhole]; exact congrArg (· + 1) hn)
  · cases hs'
  · obtain rfl := Option.some.inj hs'
    have hbrace := getElem?_of_closingTag_prefix hclosing (n := n + 1) (by dsimp only at hn; omega)
    simpa using hbrace
  · obtain rfl := Option.some.inj hs'
    rw [hwhole] at hn
    cases hn
  · obtain rfl := Option.some.inj hs'
    cases htag : nestedTag? identifier (c :: text) with
    | none => simp [htag, between] at hn
    | some tag =>
      rw [htag, Option.elim_some, opened] at hn
      split at hn
      · cases hn
      · have hbrace := getElem?_of_nestedTag? htag (n := n + 1) (by dsimp only at hn; omega)
        simpa using hbrace

theorem EndsWithBrace.run (h : s.EndsWithBrace (passed ++ rest)) (hrun : s.run identifier passed rest = some s') :
    s'.EndsWithBrace rest := by
  induction passed generalizing s with
  | nil => obtain rfl := Option.some.inj hrun; exact h
  | cons c passed ih =>
    rw [Search.run] at hrun
    obtain ⟨s₁, hnext, hrun⟩ := Option.bind_eq_some_iff.1 hrun
    exact ih (h.next hnext) hrun

theorem run_of_ne_openBrace {depth inside : Nat} (h : ∀ c ∈ passed, c ≠ '{') :
    run identifier ⟨depth, 0, inside⟩ passed rest = some ⟨depth, 0, inside - passed.length⟩ := by
  induction passed generalizing inside with
  | nil => rfl
  | cons c passed ih =>
    obtain ⟨hc, hpassed⟩ := List.forall_mem_cons.1 h
    have hnext : next identifier ⟨depth, 0, inside⟩ (c :: (passed ++ rest)) = some ⟨depth, 0, inside - 1⟩ := by
      have hclosing : ¬ closingTag identifier.toList <+: c :: (passed ++ rest) :=
        fun h => hc (List.cons_prefix_cons.1 h).1.symm
      cases inside with
      | succ inside => exact next_inside hclosing
      | zero =>
        have htag : nestedTag? identifier (c :: (passed ++ rest)) = none := nestedTag?_of_ne_openBrace hc
        exact (next_between hclosing).trans (by rw [htag]; rfl)
    rw [run, hnext, Option.bind_some, ih hpassed, List.length_cons, Nat.sub_sub, Nat.add_comm 1]

/-- A search in no tag passes a text in which it meets no tag. -/
theorem run_between {depth : Nat}
    (hclosing : ∀ after, after <:+ passed → after ≠ [] → ¬ closingTag identifier.toList <+: after ++ rest)
    (htag : ∀ after, after <:+ passed → after ≠ [] → nestedTag? identifier (after ++ rest) = none) :
    run identifier (between depth) passed rest = some (between depth) := by
  induction passed with
  | nil => rfl
  | cons c passed ih =>
    have hnext : next identifier (between depth) (c :: (passed ++ rest)) = some (between depth) := by
      rw [← List.cons_append, next_between (hclosing _ List.suffix_rfl (List.cons_ne_nil _ _)),
        htag _ List.suffix_rfl (List.cons_ne_nil _ _), Option.elim_none]
    rw [run, hnext, Option.bind_some]
    exact ih (fun after hafter => hclosing after (hafter.trans (List.suffix_cons c passed)))
      (fun after hafter => htag after (hafter.trans (List.suffix_cons c passed)))

end Search

end MacroDoc
