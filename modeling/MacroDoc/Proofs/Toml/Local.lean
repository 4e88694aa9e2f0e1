import MacroDoc.Toml.Scalar

/-!
# Reading a text that has line ends after it

A reader takes a value from the start of a text. Line ends after the text, and what is left of them, make no difference to
that: the value is the same, and they come after what is left of the text.

* `EndsBefore` : a text and the line ends after it;
* `LocalBelow`, `IsLocal` : readers to which the line ends make no difference, and how they are made of other ones;
* `SkipsLines` : dropping blanks and line ends.
-/

namespace MacroDoc.Toml

variable {α β : Type} {text tail rest : List Char}

/-! ## A text and the line ends after it -/

/-- Only characters of line ends come after a text, and none of them belongs to a line end that begins in the text. -/
structure EndsBefore (text tail : List Char) : Prop where
  lineEnds : ∀ c ∈ tail, c = '\r' ∨ c = '\n'
  noReturn : ¬ ['\r'] <:+ text

theorem EndsBefore.suffix (h : EndsBefore text tail) (hrest : rest <:+ text) : EndsBefore rest tail :=
  ⟨h.lineEnds, fun hreturn => h.noReturn (hreturn.trans hrest)⟩

theorem EndsBefore.tail_suffix (h : EndsBefore text tail) (hrest : rest <:+ tail) : EndsBefore [] rest :=
  ⟨fun c hc => h.lineEnds c (hrest.subset hc), by simp⟩

theorem EndsBefore.tail_cases (h : EndsBefore text tail) :
    tail = [] ∨ ∃ rest, tail = '\r' :: rest ∨ tail = '\n' :: rest := by
  cases tail with
  | nil => exact .inl rfl
  | cons c tail =>
    obtain rfl | rfl := h.lineEnds c List.mem_cons_self
    · exact .inr ⟨tail, .inl rfl⟩
    · exact .inr ⟨tail, .inr rfl⟩

theorem EndsBefore.refused (h : EndsBefore text tail) {p : Char → Bool} (hreturn : p '\r' = false)
    (hfeed : p '\n' = false) : ∀ c ∈ tail, p c = false := by
  intro c hc
  obtain rfl | rfl := h.lineEnds c hc
  · exact hreturn
  · exact hfeed

theorem EndsBefore.prefix_of_append (h : EndsBefore text tail) (start : List Char)
    (hstart : ∀ c ∈ start, c ≠ '\r' ∧ c ≠ '\n') (hstarts : start <+: text ++ tail) : start <+: text := by
  by_cases hle : start.length ≤ text.length
  · exact List.prefix_of_prefix_length_le hstarts (List.prefix_append text tail) hle
  · obtain ⟨more, rfl⟩ := List.prefix_of_prefix_length_le (List.prefix_append text tail) hstarts (by omega)
    cases more with
    | nil => exact absurd (by simp) hle
    | cons c more =>
      have hc : c ∈ tail := ((List.prefix_append_right_inj text).1 hstarts).subset List.mem_cons_self
      obtain ⟨hreturn, hfeed⟩ := hstart c (List.mem_append_right text List.mem_cons_self)
      exact ((h.lineEnds c hc).elim hreturn hfeed).elim

theorem EndsBefore.takeWhile (h : EndsBefore text tail) {p : Char → Bool} (hreturn : p '\r' = false)
    (hfeed : p '\n' = false) : (text ++ tail).takeWhile p = text.takeWhile p := by
  induction text with
  | nil => obtain rfl | ⟨rest, rfl | rfl⟩ := h.tail_cases <;> simp [hreturn, hfeed]
  | cons c text ih =>
    rw [List.cons_append, List.takeWhile_cons, List.takeWhile_cons, ih (h.suffix (List.suffix_cons c text))]

theorem EndsBefore.dropWhile (h : EndsBefore text tail) {p : Char → Bool} (hreturn : p '\r' = false)
    (hfeed : p '\n' = false) : (text ++ tail).dropWhile p = text.dropWhile p ++ tail := by
  refine (List.append_right_inj (text.takeWhile p)).1 ?_
  rw [← List.append_assoc, List.takeWhile_append_dropWhile, ← h.takeWhile hreturn hfeed,
    List.takeWhile_append_dropWhile]

/-! ## Readers -/

/-- Of a text with line ends after it `read'` takes what `read` takes of the text alone, if that is shorter than `n`. The
two may differ in the steps that they are allowed. -/
structure LocalBelow (n : Nat) (read read' : List Char → Option (α × List Char)) : Prop where
  suffix {text rest : List Char} {v : α} : read text = some (v, rest) → rest <:+ text
  append {text tail : List Char} : EndsBefore text tail → text.length < n →
    read' (text ++ tail) = (read text).map fun p => (p.1, p.2 ++ tail)

/-- What the reader takes of a text does not depend on line ends after it. -/
structure IsLocal (read : List Char → Option (α × List Char)) : Prop where
  suffix {text rest : List Char} {v : α} : read text = some (v, rest) → rest <:+ text
  append {text tail : List Char} : EndsBefore text tail →
    read (text ++ tail) = (read text).map fun p => (p.1, p.2 ++ tail)

theorem IsLocal.below {read : List Char → Option (α × List Char)} (h : IsLocal read) (n : Nat) : LocalBelow n read read :=
  ⟨h.suffix, fun hends _ => h.append hends⟩

theorem IsLocal.of_below {read : List Char → Option (α × List Char)} (h : ∀ n, LocalBelow (n + 1) read read) :
    IsLocal read :=
  ⟨(h 0).suffix, fun {text} _ hends => (h text.length).append hends (Nat.lt_succ_self _)⟩

/-- A reader that may take as many steps as the text has characters. -/
theorem IsLocal.of_fuel {read : Nat → List Char → Option (α × List Char)}
    (h : ∀ more fuel, LocalBelow fuel (read fuel) (read (more + fuel))) :
    IsLocal fun text => read (text.length + 1) text where
  suffix {text rest v} hread := (h 0 (text.length + 1)).suffix hread
  append {text tail} hends := by
    rw [List.length_append, Nat.add_comm text.length, Nat.add_assoc]
    exact (h tail.length (text.length + 1)).append hends (Nat.lt_succ_self _)

/-- A reader is `yes` after the character `c` and `no` on a text that does not begin with it. -/
structure Branches (c : Char) (read yes no : List Char → Option (α × List Char)) : Prop where
  hit (rest : List Char) : read (c :: rest) = yes rest
  miss (text : List Char) : (∀ rest, text ≠ c :: rest) → read text = no text

theorem branches_expect (c : Char) (read : List Char → Option (α × List Char)) :
    Branches c (fun text => Toml.expect c text >>= read) read fun _ => none where
  hit rest := by simp [Toml.expect, Text.dropStart?]
  miss text hc := by
    have hstarts : ¬ [c].isPrefixOf text = true := by
      intro hstarts
      obtain ⟨more, rfl⟩ := List.isPrefixOf_iff_prefix.1 hstarts
      exact hc more rfl
    rw [Toml.expect, Text.dropStart?, if_neg hstarts]
    rfl

namespace LocalBelow

variable {n : Nat} {read read' : List Char → Option (α × List Char)}

theorem lineEnds (h : LocalBelow n read read') (hn : 0 < n) (hnil : read [] = none) (hends : EndsBefore [] tail) :
    read' tail = none := by
  have heq := h.append hends hn
  rwa [List.nil_append, hnil, Option.map_none] at heq

theorem mono {m : Nat} (h : LocalBelow n read read') (hle : m ≤ n) : LocalBelow m read read' :=
  ⟨h.suffix, fun hends hlength => h.append hends (Nat.lt_of_lt_of_le hlength hle)⟩

theorem zero (hread : ∀ text, read text = Option.none) : LocalBelow 0 read read' where
  suffix {text rest v} h := by simp [hread] at h
  append _ hlength := absurd hlength (Nat.not_lt_zero _)

theorem none : LocalBelow n (fun _ => Option.none) fun _ => (Option.none : Option (α × List Char)) where
  suffix h := by cases h
  append _ _ := rfl

theorem pure (v : α) : LocalBelow n (fun text => some (v, text)) fun text => some (v, text) where
  suffix h := by
    cases h
    exact List.suffix_refl _
  append _ _ := rfl

theorem bind {next next' : α → List Char → Option (β × List Char)} (h : LocalBelow n read read')
    (hnext : ∀ v, LocalBelow n (next v) (next' v)) :
    LocalBelow n (fun text => read text >>= fun p => next p.1 p.2) fun text => read' text >>= fun p => next' p.1 p.2 where
  suffix hread := by
    obtain ⟨p, hp, hread⟩ := Option.bind_eq_some_iff.1 hread
    exact ((hnext p.1).suffix hread).trans (h.suffix hp)
  append {text tail} hends hlength := by
    rw [h.append hends hlength]
    cases hp : read text with
    | none => rfl
    | some p =>
      have hsuffix := h.suffix hp
      exact (hnext p.1).append (hends.suffix hsuffix) (Nat.lt_of_le_of_lt hsuffix.length_le hlength)

theorem map (h : LocalBelow n read read') (f : α → β) :
    LocalBelow n (fun text => (read text).map fun p => (f p.1, p.2)) fun text => (read' text).map fun p => (f p.1, p.2) where
  suffix hread := by
    obtain ⟨p, hp, heq⟩ := Option.map_eq_some_iff.1 hread
    cases heq
    exact h.suffix hp
  append hends hlength := by
    rw [h.append hends hlength, Option.map_map, Option.map_map]
    rfl

theorem cons (hcons : ∀ c, LocalBelow n (fun text => read (c :: text)) fun text => read' (c :: text))
    (hnil : read [] = Option.none) (hends : ∀ tail, EndsBefore [] tail → read' tail = Option.none) :
    LocalBelow (n + 1) read read' where
  suffix {text rest v} h := by
    cases text with
    | nil => simp [hnil] at h
    | cons c text => exact ((hcons c).suffix h).trans (List.suffix_cons c text)
  append {text tail} h hlength := by
    cases text with
    | nil =>
      rw [hnil]
      exact hends tail h
    | cons c text => exact (hcons c).append (h.suffix (List.suffix_cons c text)) (Nat.lt_of_succ_lt_succ hlength)

/-- A reader that takes one character, or a carriage return with a line feed, and goes on. -/
theorem consOrFeed (hcons : ∀ c, c ≠ '\r' → LocalBelow n (fun text => read (c :: text)) fun text => read' (c :: text))
    (hfeed : LocalBelow n (fun text => read ('\r' :: '\n' :: text)) fun text => read' ('\r' :: '\n' :: text))
    (hbare : ∀ text, (∀ rest, text ≠ '\n' :: rest) →
      read ('\r' :: text) = Option.none ∧ read' ('\r' :: text) = Option.none)
    (hnil : read [] = Option.none) (hends : ∀ tail, EndsBefore [] tail → read' tail = Option.none) :
    LocalBelow (n + 1) read read' where
  suffix {text rest v} h := by
    match text with
    | [] => simp [hnil] at h
    | c :: text =>
      by_cases hc : c = '\r'
      · obtain rfl := hc
        by_cases hd : ∃ more, text = '\n' :: more
        · obtain ⟨more, rfl⟩ := hd
          exact (hfeed.suffix h).trans ⟨['\r', '\n'], rfl⟩
        · simp [(hbare text (not_exists.1 hd)).1] at h
      · exact ((hcons c hc).suffix h).trans (List.suffix_cons c text)
  append {text tail} h hlength := by
    match text with
    | [] =>
      rw [hnil]
      exact hends tail h
    | c :: text =>
      by_cases hc : c = '\r'
      · obtain rfl := hc
        match text with
        | [] => exact absurd (List.suffix_refl _) h.noReturn
        | d :: text =>
          by_cases hd : d = '\n'
          · rw [hd] at h hlength ⊢
            have hsuffix : text <:+ '\r' :: '\n' :: text := ⟨['\r', '\n'], rfl⟩
            exact hfeed.append (h.suffix hsuffix) (by simp only [List.length_cons] at hlength; omega)
          · have hother (text : List Char) : ∀ rest, d :: text ≠ '\n' :: rest := fun rest heq => hd (List.cons.inj heq).1
            rw [(hbare (d :: text) (hother _)).1, List.cons_append, List.cons_append, (hbare _ (hother _)).2]
            rfl
      · exact (hcons c hc).append (h.suffix (List.suffix_cons c text)) (Nat.lt_of_succ_lt_succ hlength)

/-- A reader that looks for a certain character first and goes on in one way or another. -/
theorem ofHead {c : Char} (hreturn : c ≠ '\r') (hfeed : c ≠ '\n') {yes yes' no no' : List Char → Option (α × List Char)}
    (hread : Branches c read yes no) (hread' : Branches c read' yes' no') (hyes : LocalBelow n yes yes')
    (hno : LocalBelow (n + 1) no no') : LocalBelow (n + 1) read read' where
  suffix {text rest v} h := by
    by_cases hc : ∃ rest, text = c :: rest
    · obtain ⟨more, rfl⟩ := hc
      exact (hyes.suffix (hread.hit more ▸ h)).trans (List.suffix_cons c more)
    · exact hno.suffix (hread.miss text (not_exists.1 hc) ▸ h)
  append {text tail} h hlength := by
    by_cases hc : ∃ rest, text = c :: rest
    · obtain ⟨more, rfl⟩ := hc
      rw [List.cons_append, hread.hit, hread'.hit]
      exact hyes.append (h.suffix (List.suffix_cons c more)) (Nat.lt_of_succ_lt_succ hlength)
    · rw [hread.miss text (not_exists.1 hc), hread'.miss (text ++ tail), hno.append h hlength]
      intro rest heq
      obtain ⟨more, rfl⟩ := h.prefix_of_append [c] (by simp [hreturn, hfeed]) ⟨rest, heq.symm⟩
      exact hc ⟨more, rfl⟩

theorem expect (h : LocalBelow n read read') {c : Char} (hreturn : c ≠ '\r') (hfeed : c ≠ '\n') :
    LocalBelow (n + 1) (fun text => Toml.expect c text >>= read) fun text => Toml.expect c text >>= read' :=
  .ofHead hreturn hfeed (branches_expect c read) (branches_expect c read') h .none

end LocalBelow

theorem IsLocal.lineEnds {read : List Char → Option (α × List Char)} (h : IsLocal read) (hnil : read [] = none)
    (hends : EndsBefore [] tail) : read tail = none :=
  (h.below 1).lineEnds Nat.zero_lt_one hnil hends

/-! ## Blanks -/

theorem afterNewline_suffix (h : afterNewline text = some rest) : rest <:+ text ∧ rest.length < text.length := by
  unfold afterNewline at h
  split at h
  · cases h
    exact ⟨List.suffix_cons _ _, Nat.lt_succ_self _⟩
  · cases h
    exact ⟨⟨['\r', '\n'], rfl⟩, by simp only [List.length_cons]; omega⟩
  · cases h

theorem afterNewline_append (h : EndsBefore text tail) (hne : text ≠ []) :
    afterNewline (text ++ tail) = (afterNewline text).map (· ++ tail) := by
  match text, hne with
  | [c], _ =>
    have hc : c ≠ '\r' := fun hc => h.noReturn (hc ▸ List.suffix_refl _)
    unfold afterNewline
    grind
  | c :: d :: text, _ =>
    unfold afterNewline
    grind

theorem skipSpaces_suffix : skipSpaces text <:+ text :=
  List.dropWhile_suffix _

theorem skipSpaces_append (h : EndsBefore text tail) : skipSpaces (text ++ tail) = skipSpaces text ++ tail :=
  h.dropWhile (by decide) (by decide)

/-- What is left of a text, and what is left of it with line ends after it: the same before these, unless nothing is. -/
def LeftBefore (tail left left' : List Char) : Prop :=
  (left = [] ∧ left' <:+ tail) ∨ (left ≠ [] ∧ left' = left ++ tail)

/-- `skip` drops by turns what `strip` drops and a line end. -/
structure SkipsLines (strip : List Char → List Char) (skip : Nat → List Char → List Char) : Prop where
  strip_suffix (text : List Char) : strip text <:+ text
  strip_append {text tail : List Char} : EndsBefore text tail → strip (text ++ tail) = strip text ++ tail
  zero_suffix (text : List Char) : skip 0 text <:+ text
  succ (fuel : Nat) (text : List Char) :
    skip (fuel + 1) text = ((afterNewline (strip text)).map (skip fuel)).getD (strip text)

namespace SkipsLines

variable {strip : List Char → List Char} {skip : Nat → List Char → List Char}

theorem suffix (h : SkipsLines strip skip) (fuel : Nat) (text : List Char) : skip fuel text <:+ text := by
  induction fuel generalizing text with
  | zero => exact h.zero_suffix text
  | succ fuel ih =>
    rw [h.succ]
    cases heq : afterNewline (strip text) with
    | none => exact h.strip_suffix text
    | some rest => exact (ih rest).trans ((afterNewline_suffix heq).1.trans (h.strip_suffix text))

theorem append (h : SkipsLines strip skip) {fuel fuel' : Nat} (hends : EndsBefore text tail)
    (hfuel : text.length ≤ fuel) (hfuel' : (text ++ tail).length ≤ fuel') :
    LeftBefore tail (skip fuel text) (skip fuel' (text ++ tail)) := by
  induction fuel generalizing text fuel' with
  | zero =>
    obtain rfl := List.eq_nil_of_length_eq_zero (Nat.le_zero.1 hfuel)
    exact .inl ⟨List.suffix_nil.1 (h.suffix 0 []), h.suffix fuel' tail⟩
  | succ fuel ih =>
    cases fuel' with
    | zero =>
      obtain ⟨rfl, rfl⟩ := List.append_eq_nil_iff.1 (List.eq_nil_of_length_eq_zero (Nat.le_zero.1 hfuel'))
      exact .inl ⟨List.suffix_nil.1 (h.suffix _ []), h.suffix 0 []⟩
    | succ fuel' =>
      rw [h.succ, h.succ, h.strip_append hends]
      by_cases hnil : strip text = []
      · refine .inl ⟨by rw [hnil]; rfl, ?_⟩
        rw [hnil, List.nil_append]
        cases heq : afterNewline tail with
        | none => exact List.suffix_refl tail
        | some rest => exact (h.suffix fuel' rest).trans (afterNewline_suffix heq).1
      · have hstrip := h.strip_suffix text
        rw [afterNewline_append (hends.suffix hstrip) hnil]
        cases heq : afterNewline (strip text) with
        | none => exact .inr ⟨hnil, rfl⟩
        | some rest =>
          obtain ⟨hsuffix, hlength⟩ := afterNewline_suffix heq
          have hle := hstrip.length_le
          rw [List.length_append] at hfuel'
          exact ih (hends.suffix (hsuffix.trans hstrip)) (by omega) (by rw [List.length_append]; omega)

end SkipsLines

end MacroDoc.Toml
