import MacroDoc.Proofs.Source.Building

/-!
# Text with marks of placeholders

A text may hold the private-use marks of placeholders for its own sake, and a placeholder that was never written for a
call is read as one all the same. Where no call has been cut out, it stands for nothing: put back, it is gone. A mark
that begins no placeholder is kept, but as a word; any other character like it is a symbol.

* `IsPlaceholder` : what is read as a placeholder;
* `writtenText_eq_iff` : a text without calls is put back as it was if and only if no placeholder stands in it;
* `textLeaves_eq_iff` : it has the leaves of a plain text if and only if no mark that begins a placeholder stands in it;
* `Builder.keeps_text_iff` : what follows for a builder.
-/

namespace MacroDoc

/-! ## Placeholders -/

/-- Any number of digits between the two marks, not only those that are written for a number; none stand for zero. -/
def IsPlaceholder (text : List Char) : Prop :=
  ∃ digits n, text = placeholderStart :: (digits ++ [placeholderEnd]) ∧ digitsNumber? 0 digits = some n ∧ n < maxNumber

theorem ne_placeholderEnd_of_digitsNumber? {n m : Nat} {digits : List Char} (h : digitsNumber? n digits = some m) :
    ∀ c ∈ digits, (c != placeholderEnd) = true := by
  induction digits generalizing n with
  | nil => nofun
  | cons d digits ih =>
    rw [digitsNumber?] at h
    split at h
    · next hd =>
      refine List.forall_mem_cons.2 ⟨?_, ih h⟩
      have hne : d ≠ placeholderEnd := by
        rintro rfl
        exact absurd hd (by decide)
      simpa using hne
    · cases h

section Read

variable {text : List Char} {n length : Nat}

theorem readNumber?_of_digits {digits : List Char} (rest : List Char) (h : digitsNumber? 0 digits = some n)
    (hn : n < maxNumber) : readNumber? (digits ++ placeholderEnd :: rest) = some (n, digits.length + 1) := by
  have htake : (digits ++ placeholderEnd :: rest).takeWhile (· != placeholderEnd) = digits := by
    rw [List.takeWhile_append_of_pos (ne_placeholderEnd_of_digitsNumber? h), List.takeWhile_cons_of_neg (by simp),
      List.append_nil]
  rw [readNumber?, htake, if_neg (by simp), h]
  exact if_pos hn

/-- The digits before the first end mark, if there is one. -/
theorem exists_end_of_length_ne (h : (text.takeWhile (· != placeholderEnd)).length ≠ text.length) :
    ∃ rest, text = text.takeWhile (· != placeholderEnd) ++ placeholderEnd :: rest := by
  have hparts : text.takeWhile (· != placeholderEnd) ++ text.dropWhile (· != placeholderEnd) = text :=
    List.takeWhile_append_dropWhile
  cases hdrop : text.dropWhile (· != placeholderEnd) with
  | nil =>
    rw [hdrop, List.append_nil] at hparts
    exact absurd (congrArg List.length hparts) h
  | cons c rest =>
    have hhead := List.head?_dropWhile_not (· != placeholderEnd) text
    rw [hdrop] at hhead hparts
    obtain rfl : c = placeholderEnd := by simpa using hhead
    exact ⟨rest, hparts.symm⟩

theorem isPlaceholder_of_readNumber? (h : readNumber? text = some (n, length)) :
    IsPlaceholder (placeholderStart :: text.take length) := by
  unfold readNumber? at h
  dsimp only at h
  split at h
  · cases h
  · next hlength =>
    obtain ⟨m, hm, h⟩ := Option.bind_eq_some_iff.1 h
    obtain ⟨hmax, hpair⟩ := Option.ite_none_right_eq_some.1 h
    obtain ⟨rfl, rfl⟩ := Prod.mk.inj (Option.some.inj hpair)
    obtain ⟨rest, htext⟩ := exists_end_of_length_ne hlength
    refine ⟨_, m, congrArg (placeholderStart :: ·) ?_, hm, hmax⟩
    generalize text.takeWhile (· != placeholderEnd) = digits at htext ⊢
    rw [htext, List.take_length_add_append]
    rfl

theorem IsPlaceholder.readNumber?_ne_none {p : List Char} (hp : IsPlaceholder p) (h : p <+: placeholderStart :: text) :
    readNumber? text ≠ none := by
  obtain ⟨digits, n, rfl, hdigits, hn⟩ := hp
  obtain ⟨rest, hrest⟩ := (List.cons_prefix_cons.1 h).2
  rw [← hrest, List.append_assoc, List.singleton_append, readNumber?_of_digits rest hdigits hn]
  exact Option.some_ne_none _

end Read

/-! ## Putting back -/

section Written

variable {calls : List CutCall} {c : Char} {cs : List Char} {n length : Nat}

theorem writtenText_call (h : readNumber? cs = some (n, length)) :
    writtenText calls (placeholderStart :: cs) = writtenPart calls (.call n) ++ writtenText calls (cs.drop length) := by
  rw [writtenText, textParts, if_pos rfl, h]
  rfl

theorem writtenText_stray (h : readNumber? cs = none) :
    writtenText calls (placeholderStart :: cs) = placeholderStart :: writtenText calls cs := by
  rw [writtenText, textParts, if_pos rfl, h]
  rfl

theorem writtenText_cons (hc : c ≠ placeholderStart) : writtenText calls (c :: cs) = c :: writtenText calls cs := by
  rw [writtenText, textParts, if_neg hc, writtenText]
  cases textParts cs with
  | nil => rfl
  | cons part parts => cases part <;> rfl

end Written

section NoCalls

variable {text : List Char}

theorem length_writtenText_le (text : List Char) : (writtenText [] text).length ≤ text.length := by
  induction text using textParts.induct with
  | case1 => exact Nat.le_of_eq (by rw [writtenText, textParts]; rfl)
  | case2 cs n length h ih =>
    rw [writtenText_call h]
    calc (writtenText [] (cs.drop length)).length
      _ ≤ (cs.drop length).length := ih
      _ ≤ cs.length := by rw [List.length_drop]; omega
      _ ≤ cs.length + 1 := Nat.le_succ _
  | case3 cs h ih =>
    rw [writtenText_stray h]
    exact Nat.succ_le_succ ih
  | case4 c cs hc ih =>
    rw [writtenText_cons hc]
    exact Nat.succ_le_succ ih

theorem length_writtenText_lt {p : List Char} (hp : IsPlaceholder p) (h : p <:+: text) :
    (writtenText [] text).length < text.length := by
  induction text using textParts.induct with
  | case1 =>
    obtain ⟨digits, n, rfl, -, -⟩ := hp
    exact absurd (List.infix_nil.1 h) (List.cons_ne_nil _ _)
  | case2 cs n length hread ih =>
    -- Whether it is this placeholder or one further on, at least the mark is gone.
    rw [writtenText_call hread]
    have hdrop := length_writtenText_le (cs.drop length)
    rw [List.length_drop] at hdrop
    exact Nat.lt_succ_of_le (Nat.le_trans hdrop (Nat.sub_le _ _))
  | case3 cs hread ih =>
    rw [writtenText_stray hread]
    rcases List.infix_cons_iff.1 h with hprefix | h
    · exact absurd hread (hp.readNumber?_ne_none hprefix)
    · exact Nat.succ_lt_succ (ih h)
  | case4 c cs hc ih =>
    rw [writtenText_cons hc]
    rcases List.infix_cons_iff.1 h with hprefix | h
    · obtain ⟨digits, n, rfl, -, -⟩ := hp
      exact absurd (List.cons_prefix_cons.1 hprefix).1.symm hc
    · exact Nat.succ_lt_succ (ih h)

theorem writtenText_of_no_placeholder (h : ∀ p, IsPlaceholder p → ¬ p <:+: text) : writtenText [] text = text := by
  induction text using textParts.induct with
  | case1 => rw [writtenText, textParts]; rfl
  | case2 cs n length hread ih =>
    have hprefix : placeholderStart :: cs.take length <+: placeholderStart :: cs :=
      List.cons_prefix_cons.2 ⟨rfl, List.take_prefix _ _⟩
    exact absurd hprefix.isInfix (h _ (isPlaceholder_of_readNumber? hread))
  | case3 cs hread ih =>
    rw [writtenText_stray hread, ih fun p hp hinfix => h p hp (List.infix_cons hinfix)]
  | case4 c cs hc ih =>
    rw [writtenText_cons hc, ih fun p hp hinfix => h p hp (List.infix_cons hinfix)]

/-- Without calls, a text is put back as it was if and only if no placeholder stands in it. -/
theorem writtenText_eq_iff : writtenText [] text = text ↔ ∀ p, IsPlaceholder p → ¬ p <:+: text := by
  refine ⟨fun h p hp hinfix => ?_, writtenText_of_no_placeholder⟩
  exact absurd (congrArg List.length h) (Nat.ne_of_lt (length_writtenText_lt hp hinfix))

theorem takeText_nil (text : List Char) : takeText [] text = [] :=
  List.map_eq_nil_iff.1 (map_text_takeText [] text)

end NoCalls

/-! ## Leaves -/

/-- One more character is one more symbol, if it is neither blank nor a letter or digit. -/
theorem symbol_mem_pushChar {c d : Char} {run : List Leaf} : .symbol c ∈ pushChar d run ↔
    .symbol c ∈ run ∨ c = d ∧ Text.isBlank d = false ∧ Text.isAlphanumeric d = false := by
  unfold pushChar
  cases hblank : Text.isBlank d with
  | true =>
    rw [if_pos rfl]
    split <;> simp
  | false =>
    rw [if_neg Bool.false_ne_true]
    cases halphanumeric : Text.isAlphanumeric d with
    | true =>
      rw [if_pos rfl]
      split <;> simp
    | false =>
      rw [if_neg Bool.false_ne_true]
      simp [or_comm]

/-- The symbols among the leaves of a plain text are its characters that are neither blank nor letters or digits. -/
theorem symbol_mem_wordLeaves {c : Char} {text : List Char} :
    .symbol c ∈ wordLeaves text ↔ c ∈ text ∧ Text.isBlank c = false ∧ Text.isAlphanumeric c = false := by
  unfold wordLeaves
  induction text with
  | nil => simp
  | cons d text ih =>
    rw [List.foldr_cons, symbol_mem_pushChar, ih, List.mem_cons]
    constructor
    · rintro (⟨hmem, h⟩ | ⟨rfl, h⟩)
      · exact ⟨.inr hmem, h⟩
      · exact ⟨.inl rfl, h⟩
    · rintro ⟨rfl | hmem, h⟩
      · exact .inr ⟨rfl, h⟩
      · exact .inl ⟨hmem, h⟩

section Leaves

variable {text : List Char}

/-- The plain parts of a text hold no mark that begins a placeholder. -/
theorem not_mem_of_plain_mem {t : List Char} (h : .plain t ∈ textParts text) : placeholderStart ∉ t := by
  induction text using textParts.induct generalizing t with
  | case1 =>
    rw [textParts] at h
    cases h
  | case2 cs n length hread ih =>
    rw [textParts, if_pos rfl, hread] at h
    exact ih (by simpa using h)
  | case3 cs hread ih =>
    rw [textParts, if_pos rfl, hread] at h
    exact ih (by simpa using h)
  | case4 c cs hc ih =>
    rw [textParts, if_neg hc] at h
    unfold consPlain at h
    split at h
    · next text rest hparts =>
      rcases List.mem_cons.1 h with heq | hmem
      · obtain rfl := TextPart.plain.inj heq
        exact List.not_mem_cons_of_ne_of_not_mem (Ne.symm hc) (ih (hparts ▸ List.mem_cons_self))
      · exact ih (hparts ▸ List.mem_cons_of_mem _ hmem)
    · rcases List.mem_cons.1 h with heq | hmem
      · obtain rfl := TextPart.plain.inj heq
        exact List.not_mem_cons_of_ne_of_not_mem (Ne.symm hc) List.not_mem_nil
      · exact ih hmem

/-- The symbols among the leaves of parts are those of the plain parts. -/
theorem exists_plain_of_symbol_mem {c : Char} {calls : List CutCall} {parts : List TextPart}
    (h : .symbol c ∈ (partsLeaves calls parts).1) : ∃ t, .plain t ∈ parts ∧ .symbol c ∈ wordLeaves t := by
  induction parts generalizing calls with
  | nil => cases h
  | cons part parts ih =>
    rw [partsLeaves] at h
    rcases List.mem_append.1 h with h | h
    · cases part with
      | plain t => exact ⟨t, List.mem_cons_self, h⟩
      | stray => exact absurd h (by simp [partLeaves])
      | call n =>
        rw [partLeaves] at h
        split at h <;> simp at h
    · obtain ⟨t, ht, hsymbol⟩ := ih h
      exact ⟨t, List.mem_cons_of_mem _ ht, hsymbol⟩

/-- No symbol is made of a mark that begins a placeholder. -/
theorem symbol_not_mem_textLeaves (calls : List CutCall) (text : List Char) :
    .symbol placeholderStart ∉ (textLeaves calls text).1 := by
  intro h
  obtain ⟨t, ht, hsymbol⟩ := exists_plain_of_symbol_mem h
  exact not_mem_of_plain_mem ht (symbol_mem_wordLeaves.1 hsymbol).1

theorem textParts_of_not_mem {c : Char} (h : placeholderStart ∉ c :: text) :
    textParts (c :: text) = [.plain (c :: text)] := by
  induction text generalizing c with
  | nil => rw [textParts, if_neg (fun hc => h (List.mem_cons.2 (.inl hc.symm))), textParts]; rfl
  | cons d text ih =>
    rw [textParts, if_neg (fun hc => h (List.mem_cons.2 (.inl hc.symm))),
      ih fun hmem => h (List.mem_cons_of_mem _ hmem)]
    rfl

theorem textLeaves_of_not_mem (h : placeholderStart ∉ text) (calls : List CutCall) :
    textLeaves calls text = (wordLeaves text, calls) := by
  unfold textLeaves
  cases text with
  | nil => rw [textParts]; rfl
  | cons c text =>
    rw [textParts_of_not_mem h]
    exact congrArg (·, calls) (List.append_nil _)

/-- A text has the leaves of a plain text if and only if no mark that begins a placeholder stands in it. -/
theorem textLeaves_eq_iff (calls : List CutCall) :
    (textLeaves calls text).1 = wordLeaves text ↔ placeholderStart ∉ text := by
  refine ⟨fun h hmem => ?_, fun h => by rw [textLeaves_of_not_mem h]⟩
  have hsymbol : Leaf.symbol placeholderStart ∈ wordLeaves text :=
    symbol_mem_wordLeaves.2 ⟨hmem, by decide, by decide +kernel⟩
  exact symbol_not_mem_textLeaves calls text (h ▸ hsymbol)

theorem partsLeaves_nil (parts : List TextPart) :
    (∀ l ∈ (partsLeaves [] parts).1, l.invocation? = none) ∧ (partsLeaves [] parts).2 = [] := by
  have hpart (part : TextPart) :
      (∀ l ∈ (partLeaves [] part).1, l.invocation? = none) ∧ (partLeaves [] part).2 = [] := by
    cases part with
    | plain text => exact ⟨fun l hl => invocation?_of_mem_wordLeaves hl, rfl⟩
    | stray => exact ⟨List.forall_mem_singleton.2 rfl, rfl⟩
    | call n => exact ⟨nofun, rfl⟩
  induction parts with
  | nil => exact ⟨nofun, rfl⟩
  | cons part parts ih =>
    rw [partsLeaves]
    dsimp only
    rw [(hpart part).2]
    exact ⟨List.forall_mem_append.2 ⟨(hpart part).1, ih.1⟩, ih.2⟩

end Leaves

namespace Builder

variable {b : Builder}

/-- Leaves that are added can be told apart afterwards. -/
theorem pushAll_leaves_inj {xs ys : List Leaf} (h : b.pushAll (xs.map .leaf) = b.pushAll (ys.map .leaf)) : xs = ys := by
  have houtline := congrArg outline h
  rw [outline_pushAll_leaves, outline_pushAll_leaves] at houtline
  exact List.map_injective_iff.2 (fun _ _ => Mark.leaf.inj) (List.append_cancel_left houtline)

/-- Where no call has been cut out, adding a text adds its words if and only if no mark that begins a placeholder stands
in it; putting a text back leaves it as it is if and only if no placeholder stands in it; and never is an invocation
made of a text. -/
theorem keeps_text_iff (hcalls : b.calls = []) (text : List Char) :
    (b.pushText text = b.pushAll (words text) ↔ placeholderStart ∉ text)
      ∧ (b.restore text = (text, b) ↔ ∀ p, IsPlaceholder p → ¬ p <:+: text)
      ∧ ∃ leaves : List Leaf, b.pushText text = b.pushAll (leaves.map .leaf)
        ∧ ∀ l ∈ leaves, l.invocation? = none := by
  obtain ⟨hnone, hafter⟩ := partsLeaves_nil (textParts text)
  have hpush : b.pushText text = b.pushAll ((textLeaves [] text).1.map .leaf) := by
    have hleaves : textLeaves b.calls text = ((textLeaves [] text).1, b.calls) := by
      rw [hcalls]
      exact congrArg ((textLeaves [] text).1, ·) hafter
    rw [pushText_eq, hleaves, addLeaves_self]
  have hrestore : b.restore text = (writtenText [] text, b) := by
    rw [restore_eq, hcalls, takeText_nil, ← hcalls]
  refine ⟨?_, ?_, _, hpush, hnone⟩
  · rw [hpush, words, ← textLeaves_eq_iff []]
    exact ⟨pushAll_leaves_inj, fun h => by rw [h]⟩
  · rw [hrestore, ← writtenText_eq_iff]
    exact ⟨fun h => (Prod.mk.inj h).1, fun h => by rw [h]⟩

/-- A mark in front of a letter. -/
theorem keeps_text_iff_stray :
    let b : Builder := ⟨[], [], [], none, none⟩
    let text : List Char := [placeholderStart, 'a']
    b.calls = [] ∧ b.pushText text ≠ b.pushAll (words text) ∧ b.restore text = (text, b) := by
  intro b text
  obtain ⟨hpush, hrestore, -⟩ := keeps_text_iff (b := b) rfl text
  refine ⟨rfl, fun h => hpush.1 h List.mem_cons_self, hrestore.2 ?_⟩
  rintro p ⟨digits, n, rfl, -, -⟩ hinfix
  have hmem : placeholderEnd ∈ text := hinfix.subset (by simp)
  exact absurd hmem (by decide)

/-- The placeholder of a number, where there is no call of that number. -/
theorem not_keeps_text :
    ¬ ∀ (b : Builder) (text : List Char), b.calls = [] →
      b.pushText text = b.pushAll (words text) ∧ b.restore text = (text, b) := by
  intro h
  obtain ⟨-, hrestore⟩ := h ⟨[], [], [], none, none⟩ (placeholder 0) rfl
  exact absurd (congrArg Prod.fst hrestore) (by decide +kernel)

end Builder

end MacroDoc
