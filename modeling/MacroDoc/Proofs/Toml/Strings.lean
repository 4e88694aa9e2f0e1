import MacroDoc.Proofs.Toml.Local

/-!
# Strings and tokens before line ends

* `isLocal_readEscape` : escapes;
* `localBelow_readLine`, `localBelow_readLines` : strings on one line and on many lines;
* `isLocal_readString`, `isLocal_readTokenValue` : what line ends after a text do not change.
-/

namespace MacroDoc.Toml

variable {text tail rest : List Char}

/-! ## Escapes -/

theorem isLocal_readCode (n : Nat) : IsLocal (readCode n) where
  suffix {text rest v} h := by
    unfold readCode at h
    dsimp only at h
    split at h
    · cases h
      exact List.drop_suffix n text
    · cases h
  append {text tail} h := by
    by_cases hn : n ≤ text.length
    · unfold readCode
      rw [List.take_append_of_le_length hn, List.drop_append_of_le_length hn]
      dsimp only
      split <;> rfl
    · -- The code would have to go on in the line ends, which are no digits.
      have hshort : (text.take n).length ≠ n := by
        rw [List.length_take]
        omega
      have hother : ¬ (((text ++ tail).take n).length = n ∧ ((text ++ tail).take n).all (Text.isDigit 16) = true) := by
        rintro ⟨hlength, hdigits⟩
        rw [List.take_append] at hlength hdigits
        cases tail with
        | nil =>
          rw [List.take_nil, List.append_nil] at hlength
          exact hshort hlength
        | cons c tail =>
          obtain ⟨m, hm⟩ := Nat.exists_eq_add_of_lt (Nat.lt_of_not_le hn)
          have hc : c ∈ text.take n ++ (c :: tail).take (n - text.length) := by
            rw [hm, show text.length + m + 1 - text.length = m + 1 by omega]
            simp
          have hdigit := List.all_eq_true.1 hdigits c hc
          rw [h.refused (p := Text.isDigit 16) (by decide) (by decide) c List.mem_cons_self] at hdigit
          cases hdigit
      simp only [readCode, Bool.and_eq_true, decide_eq_true_eq]
      rw [if_neg fun h => hother h.1, if_neg fun h => hshort h.1.1]
      rfl

theorem isLocal_readEscape : IsLocal readEscape where
  suffix {text rest v} h := by
    unfold readEscape at h
    split at h
    case h_8 rest => exact ((isLocal_readCode 4).suffix h).trans (List.suffix_cons _ _)
    case h_9 rest => exact ((isLocal_readCode 8).suffix h).trans (List.suffix_cons _ _)
    case h_10 => cases h
    all_goals
      cases h
      exact List.suffix_cons _ _
  append {text tail} h := by
    cases text with
    | nil => obtain rfl | ⟨rest, rfl | rfl⟩ := h.tail_cases <;> rfl
    | cons c text =>
      have hcode (n : Nat) := (isLocal_readCode n).append (h.suffix (List.suffix_cons c text))
      unfold readEscape
      split <;> simp_all

/-! ## Strings -/

variable {quote : Char} {n : Nat}

def IsQuote (c : Char) : Prop :=
  c = '"' ∨ c = '\''

theorem IsQuote.not_lineEnd (hquote : IsQuote quote) (h : EndsBefore text tail) {c : Char} (hc : c ∈ tail) :
    c ≠ quote ∧ c ≠ '\\' ∧ isPlain c = false := by
  obtain rfl | rfl := hquote <;> obtain rfl | rfl := h.lineEnds c hc <;> decide

theorem localBelow_readLine (hquote : IsQuote quote) (more fuel : Nat) :
    LocalBelow fuel (readLine quote fuel) (readLine quote (more + fuel)) := by
  induction fuel with
  | zero => exact .zero fun text => rfl
  | succ fuel ih =>
    refine .cons (fun c => ?_) rfl fun tail hends => ?_
    · simp only [Nat.add_eq, readLine]
      by_cases hc : c = quote
      · simp only [if_pos hc]
        exact .pure []
      simp only [if_neg hc]
      by_cases hescape : (c = '\\' && quote = '"') = true
      · simp only [if_pos hescape]
        exact (isLocal_readEscape.below fuel).bind fun d => ih.bind fun value => .pure (d :: value)
      simp only [if_neg hescape]
      by_cases hplain : isPlain c = true
      · simp only [if_pos hplain]
        exact ih.bind fun value => .pure (c :: value)
      · simp only [if_neg hplain]
        exact .none
    · cases tail with
      | nil => rfl
      | cons c tail =>
        obtain ⟨hc, hslash, hplain⟩ := hquote.not_lineEnd hends List.mem_cons_self
        simp [readLine, hc, hslash, hplain]

theorem skipsLines_skipLines : SkipsLines skipSpaces skipLines where
  strip_suffix _ := skipSpaces_suffix
  strip_append := skipSpaces_append
  zero_suffix _ := skipSpaces_suffix
  succ fuel text := by
    unfold skipLines
    cases afterNewline (skipSpaces text) <;> rfl

theorem afterHiddenLine_suffix (h : afterHiddenLine text = some rest) : rest <:+ text ∧ rest.length < text.length := by
  obtain ⟨more, hmore, rfl⟩ := Option.map_eq_some_iff.1 h
  obtain ⟨hsuffix, hlength⟩ := afterNewline_suffix hmore
  have hskip := skipsLines_skipLines.suffix more.length more
  have hspaces : skipSpaces text <:+ text := skipSpaces_suffix
  have hle := hskip.length_le
  have hle' := hspaces.length_le
  exact ⟨hskip.trans (hsuffix.trans hspaces), by omega⟩

theorem afterHiddenLine_append (h : EndsBefore text tail) (hne : skipSpaces text ≠ []) :
    (afterHiddenLine text = none ∧ afterHiddenLine (text ++ tail) = none) ∨
      ∃ left left', afterHiddenLine text = some left ∧ afterHiddenLine (text ++ tail) = some left' ∧
        LeftBefore tail left left' := by
  unfold afterHiddenLine
  rw [skipSpaces_append h, afterNewline_append (h.suffix skipSpaces_suffix) hne]
  cases heq : afterNewline (skipSpaces text) with
  | none => exact .inl ⟨rfl, rfl⟩
  | some more =>
    have hmore := h.suffix ((afterNewline_suffix heq).1.trans skipSpaces_suffix)
    exact .inr ⟨_, _, rfl, rfl, skipsLines_skipLines.append hmore (Nat.le_refl _) (Nat.le_refl _)⟩

theorem afterHiddenLine_of_spaces (h : EndsBefore text tail) (hnil : skipSpaces text = []) :
    afterHiddenLine text = none ∧ ∀ left, afterHiddenLine (text ++ tail) = some left → left <:+ tail := by
  unfold afterHiddenLine
  rw [skipSpaces_append h, hnil]
  refine ⟨rfl, fun left hleft => ?_⟩
  obtain ⟨more, hmore, rfl⟩ := Option.map_eq_some_iff.1 hleft
  exact (skipsLines_skipLines.suffix _ _).trans (afterNewline_suffix hmore).1

theorem readEscape_of_spaces (hnil : skipSpaces text = []) : readEscape text = none := by
  cases text with
  | nil => rfl
  | cons c text =>
    rw [skipSpaces, List.dropWhile_cons] at hnil
    split at hnil
    · next hc =>
      obtain rfl | rfl : c = ' ' ∨ c = '\t' := by simpa using hc
      · rfl
      · rfl
    · cases hnil

section Lines

variable {read read' : List Char → Option (List Char × List Char)}

/-- What comes after a quote in a string of many lines: more quotes that end it, or more of it, which `others` reads. -/
def readQuotes (quote : Char) (others : List Char → Option (List Char × List Char)) (text : List Char) :
    Option (List Char × List Char) :=
  let quotes := 1 + (text.takeWhile (· = quote)).length
  if 3 ≤ quotes then some (List.replicate (min (quotes - 3) 2) quote, text.drop (min (quotes - 3) 2 + 2))
  else others text >>= fun p => some (quote :: p.1, p.2)

theorem LocalBelow.readQuotes (h : LocalBelow n read read') (hquote : IsQuote quote) :
    LocalBelow n (readQuotes quote read) (readQuotes quote read') where
  suffix {text rest v} hread := by
    unfold Toml.readQuotes at hread
    dsimp only at hread
    split at hread
    · cases hread
      exact List.drop_suffix _ text
    · exact (h.bind fun value => .pure (quote :: value)).suffix hread
  append {text tail} hends hlength := by
    have hquotes : (text ++ tail).takeWhile (· = quote) = text.takeWhile (· = quote) := by
      obtain rfl | rfl := hquote <;> exact hends.takeWhile (by decide) (by decide)
    have hle := (List.takeWhile_sublist (l := text) (· = quote)).length_le
    unfold Toml.readQuotes
    rw [hquotes]
    dsimp only
    split
    · rw [List.drop_append_of_le_length (by omega), Option.map_some]
    · exact (h.bind fun value => .pure (quote :: value)).append hends hlength

/-- What comes after a backslash in a string of many lines: a line end that it hides, or an escape, and more. -/
def readBackslash (others : List Char → Option (List Char × List Char)) (text : List Char) :
    Option (List Char × List Char) :=
  match afterHiddenLine text with
  | some rest => others rest
  | none => readEscape text >>= fun p => others p.2 >>= fun q => some (p.1 :: q.1, q.2)

theorem LocalBelow.readBackslash (h : LocalBelow n read read') (hnil : read [] = Option.none)
    (hvain : ∀ tail, EndsBefore [] tail → read' tail = Option.none) :
    LocalBelow n (readBackslash read) (readBackslash read') where
  suffix {text rest v} hread := by
    have hescape := (isLocal_readEscape.below n).bind fun d => h.bind fun value => .pure (d :: value)
    unfold Toml.readBackslash at hread
    split at hread
    · next hidden hhidden => exact (h.suffix hread).trans (afterHiddenLine_suffix hhidden).1
    · exact hescape.suffix hread
  append {text tail} hends hlength := by
    have hescape := (isLocal_readEscape.below n).bind fun d => h.bind fun value => .pure (d :: value)
    unfold Toml.readBackslash
    by_cases hblank : skipSpaces text = []
    · -- Line ends may be hidden here that the text alone does not have, but nothing ends the string after them.
      obtain ⟨hnone, hleft⟩ := afterHiddenLine_of_spaces hends hblank
      rw [hnone, isLocal_readEscape.append hends, readEscape_of_spaces hblank]
      cases hhidden : afterHiddenLine (text ++ tail) with
      | none => rfl
      | some left => exact hvain left (hends.tail_suffix (hleft left hhidden))
    · obtain ⟨hnone, hnone'⟩ | ⟨left, left', hsome, hsome', hleft⟩ := afterHiddenLine_append hends hblank
      · rw [hnone, hnone']
        exact hescape.append hends hlength
      · rw [hsome, hsome']
        obtain ⟨hsuffix, hless⟩ := afterHiddenLine_suffix hsome
        obtain ⟨rfl, hrest⟩ | ⟨-, rfl⟩ := hleft
        · simp only [hnil, hvain left' (hends.tail_suffix hrest), Option.map_none]
        · exact h.append (hends.suffix hsuffix) (Nat.lt_trans hless hlength)

end Lines

/-- Line ends do not end a string. -/
theorem readLines_lineEnds (hquote : IsQuote quote) {fuel : Nat} (h : EndsBefore [] tail) :
    readLines quote fuel tail = none := by
  induction fuel generalizing tail with
  | zero => rfl
  | succ fuel ih =>
    cases tail with
    | nil => rfl
    | cons c tail =>
      obtain ⟨hc, hslash, hplain⟩ := hquote.not_lineEnd h List.mem_cons_self
      simp only [readLines, hc, hslash, hplain]
      cases hnewline : afterNewline (c :: tail) with
      | none => rfl
      | some rest => simp [ih (h.tail_suffix (afterNewline_suffix hnewline).1)]

theorem localBelow_readLines (hquote : IsQuote quote) (more fuel : Nat) :
    LocalBelow fuel (readLines quote fuel) (readLines quote (more + fuel)) := by
  induction fuel with
  | zero => exact .zero fun text => rfl
  | succ fuel ih =>
    have hnil : readLines quote fuel [] = none := by cases fuel <;> rfl
    refine .consOrFeed (fun c hreturn => ?_) ?_ (fun text hbare => ?_) rfl fun tail => readLines_lineEnds hquote
    · simp only [Nat.add_eq, readLines]
      by_cases hc : c = quote
      · simp only [hc, if_true]
        exact ih.readQuotes hquote
      simp only [if_neg hc]
      by_cases hescape : (c = '\\' && quote = '"') = true
      · simp only [if_pos hescape]
        exact ih.readBackslash hnil fun tail => readLines_lineEnds hquote
      simp only [if_neg hescape]
      by_cases hfeed : c = '\n'
      · simp only [hfeed]
        exact ih.bind fun value => .pure ('\n' :: value)
      have hplain (text : List Char) : afterNewline (c :: text) = none := by simp [afterNewline, hfeed, hreturn]
      simp only [hplain]
      by_cases hplain : isPlain c = true
      · simp only [if_pos hplain]
        exact ih.bind fun value => .pure (c :: value)
      · simp only [if_neg hplain]
        exact .none
    · obtain rfl | rfl := hquote <;> exact ih.bind fun value => .pure ('\n' :: value)
    · have hplain : afterNewline ('\r' :: text) = none := by
        unfold afterNewline
        split
        · next heq => cases heq
        · next heq => exact absurd (List.cons.inj heq).2 (hbare _)
        · rfl
      obtain rfl | rfl := hquote <;> simp [readLines, hplain, isPlain]

theorem isLocal_readLineString : IsLocal readLineString := by
  refine .of_below fun n => .cons (fun c => ?_) rfl fun tail hends => ?_
  · by_cases hquote : (c = '"' || c = '\'') = true
    · simp only [readLineString, if_pos hquote]
      have hquote : IsQuote c := by simpa [IsQuote] using hquote
      exact (IsLocal.of_fuel fun more fuel => localBelow_readLine hquote more fuel).below n
    · simp only [readLineString, if_neg hquote]
      exact .none
  · obtain rfl | ⟨rest, rfl | rfl⟩ := hends.tail_cases <;> rfl

theorem readString_three (hquote : IsQuote quote) :
    readString (quote :: quote :: quote :: text) =
      readLines quote (text.length + 1) ((afterNewline text).getD text) := by
  obtain rfl | rfl := hquote <;> rfl

theorem readString_of_not_three (h : ∀ quote, IsQuote quote → ¬ [quote, quote, quote] <+: text) :
    readString text = readLineString text := by
  unfold readString
  split
  · exact absurd ⟨_, rfl⟩ (h '"' (.inl rfl))
  · exact absurd ⟨_, rfl⟩ (h '\'' (.inr rfl))
  · rfl

theorem getD_afterNewline_suffix : (afterNewline text).getD text <:+ text := by
  cases heq : afterNewline text with
  | none => exact List.suffix_refl text
  | some rest => exact (afterNewline_suffix heq).1

theorem isLocal_readString : IsLocal readString where
  suffix {text rest v} h := by
    by_cases hthree : ∃ quote, IsQuote quote ∧ [quote, quote, quote] <+: text
    · obtain ⟨quote, hquote, more, rfl⟩ := hthree
      rw [List.cons_append, List.cons_append, List.cons_append, List.nil_append, readString_three hquote] at h
      exact ((localBelow_readLines hquote 0 _).suffix h).trans
        (getD_afterNewline_suffix.trans ⟨[quote, quote, quote], rfl⟩)
    · rw [readString_of_not_three fun quote hquote hstarts => hthree ⟨quote, hquote, hstarts⟩] at h
      exact isLocal_readLineString.suffix h
  append {text tail} h := by
    by_cases hthree : ∃ quote, IsQuote quote ∧ [quote, quote, quote] <+: text
    · obtain ⟨quote, hquote, more, rfl⟩ := hthree
      have hends : EndsBefore more tail := h.suffix ⟨[quote, quote, quote], rfl⟩
      simp only [List.cons_append, List.nil_append, readString_three hquote]
      by_cases hnil : more = []
      · rw [hnil]
        exact readLines_lineEnds hquote (h.tail_suffix getD_afterNewline_suffix)
      · have hopening : (afterNewline (more ++ tail)).getD (more ++ tail) = (afterNewline more).getD more ++ tail := by
          rw [afterNewline_append hends hnil]
          cases afterNewline more <;> rfl
        have hle : ((afterNewline more).getD more).length ≤ more.length := getD_afterNewline_suffix.length_le
        rw [hopening, List.length_append, Nat.add_comm more.length, Nat.add_assoc]
        exact (localBelow_readLines hquote tail.length (more.length + 1)).append
          (hends.suffix getD_afterNewline_suffix) (Nat.lt_succ_of_le hle)
    · have hnone (quote : Char) (hquote : IsQuote quote) : ¬ [quote, quote, quote] <+: text :=
        fun hstarts => hthree ⟨quote, hquote, hstarts⟩
      rw [readString_of_not_three hnone, readString_of_not_three fun quote hquote hstarts => ?_]
      · exact isLocal_readLineString.append h
      · refine hnone quote hquote (h.prefix_of_append _ ?_ hstarts)
        obtain rfl | rfl := hquote <;> simp

/-! ## Tokens -/

theorem isLocal_readTokenValue : IsLocal readTokenValue where
  suffix {text rest v} h := by
    have hrest := List.dropWhile_suffix isTokenChar (l := text)
    obtain ⟨value, -, h⟩ := Option.map_eq_some_iff.1 h
    split at h
    · next more heq =>
      have hmore : more <:+ text := (heq ▸ List.suffix_cons ' ' more).trans hrest
      split at h
      · cases h
        exact (List.dropWhile_suffix _).trans hmore
      · cases h
        exact hrest
    · cases h
      exact hrest
  append {text tail} h := by
    have htake {text : List Char} (h : EndsBefore text tail) := h.takeWhile (p := isTokenChar) (by decide) (by decide)
    have hdrop {text : List Char} (h : EndsBefore text tail) := h.dropWhile (p := isTokenChar) (by decide) (by decide)
    have hsuffix := List.dropWhile_suffix isTokenChar (l := text)
    simp only [readTokenValue]
    rw [htake h, hdrop h, Option.map_map]
    congr 1
    funext value
    generalize text.dropWhile isTokenChar = rest at hsuffix
    cases rest with
    | nil => obtain rfl | ⟨rest, rfl | rfl⟩ := h.tail_cases <;> rfl
    | cons c more =>
      by_cases hc : c = ' '
      · have hmore := h.suffix ((List.suffix_cons c more).trans hsuffix)
        simp only [hc, List.cons_append, Function.comp_apply]
        rw [htake hmore, hdrop hmore]
        split <;> rfl
      · simp [hc]

end MacroDoc.Toml
