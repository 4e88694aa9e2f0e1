import MacroDoc.Proofs.Call.Search

/-!
# The content of a call

* `Trimmed` : a content from which nothing is dropped, `trimContent_eq_self_iff`;
* `exists_append_trimContent` : what is dropped from a content;
* `IsTag.readCall_selfClosing`, `IsTag.readCall_closed`, `IsTag.readCall_eq` : the call that a tag begins;
* `exists_of_readCall` : what stands in a text from which a call is read;
* `ReadsAs` : the call at the start of a text, with the bytes that it takes up.
-/

namespace MacroDoc

open Call (openMark closeMark selfCloseMark closingTag)

/-! ## Line ends around the content -/

/-- A content with no line end at its ends. -/
def Trimmed (content : List Char) : Prop :=
  ¬ ['\r', '\n'] <+: content ∧ ¬ ['\n'] <+: content ∧ ¬ ['\n'] <:+ content

instance (content : List Char) : Decidable (Trimmed content) := inferInstanceAs (Decidable (_ ∧ _))

/-- What can be dropped from an end of a content. -/
def lineEnds : List (List Char) := [[], ['\n'], ['\r', '\n']]

theorem dropStart?_eq_none {start text : List Char} (h : ¬ start <+: text) : Text.dropStart? start text = none := by
  rw [Text.dropStart?, if_neg (mt List.isPrefixOf_iff_prefix.1 h)]

theorem dropStart?_append (start text : List Char) : Text.dropStart? start (start ++ text) = some text := by
  rw [Text.dropStart?, if_pos (List.isPrefixOf_iff_prefix.2 (List.prefix_append start text)), List.drop_left]

theorem dropEnd?_eq_none {ending text : List Char} (h : ¬ ending <:+ text) : Text.dropEnd? ending text = none := by
  rw [Text.dropEnd?, if_neg (mt List.isSuffixOf_iff_suffix.1 h)]

theorem dropEnd?_append (ending text : List Char) : Text.dropEnd? ending (text ++ ending) = some text := by
  rw [Text.dropEnd?, if_pos (List.isSuffixOf_iff_suffix.2 (List.suffix_append text ending)), List.length_append,
    Nat.add_sub_cancel, List.take_left]

/-- A content without the line end that it begins with. -/
def trimFirst (content : List Char) : List Char :=
  ((Text.dropStart? ['\r', '\n'] content).or (Text.dropStart? ['\n'] content)).getD content

def trimLast (content : List Char) : List Char :=
  ((Text.dropEnd? ['\r', '\n'] content).or (Text.dropEnd? ['\n'] content)).getD content

theorem trimContent_eq (content : List Char) : trimContent content = trimLast (trimFirst content) :=
  rfl

theorem trimFirst_crlf (rest : List Char) : trimFirst ('\r' :: '\n' :: rest) = rest := by
  have h : Text.dropStart? ['\r', '\n'] ('\r' :: '\n' :: rest) = some rest := dropStart?_append ['\r', '\n'] rest
  rw [trimFirst, h]
  rfl

theorem trimFirst_lf (rest : List Char) : trimFirst ('\n' :: rest) = rest := by
  have hcr : Text.dropStart? ['\r', '\n'] ('\n' :: rest) = none := dropStart?_eq_none (by simp)
  have hlf : Text.dropStart? ['\n'] ('\n' :: rest) = some rest := dropStart?_append ['\n'] rest
  rw [trimFirst, hcr, hlf]
  rfl

theorem trimFirst_eq_self {content : List Char} (hcr : ¬ ['\r', '\n'] <+: content) (hlf : ¬ ['\n'] <+: content) :
    trimFirst content = content := by
  rw [trimFirst, dropStart?_eq_none hcr, dropStart?_eq_none hlf]
  rfl

theorem trimLast_crlf (before : List Char) : trimLast (before ++ ['\r', '\n']) = before := by
  rw [trimLast, dropEnd?_append]
  rfl

theorem trimLast_lf {before : List Char} (hcr : ¬ ['\r', '\n'] <:+ before ++ ['\n']) :
    trimLast (before ++ ['\n']) = before := by
  rw [trimLast, dropEnd?_eq_none hcr, dropEnd?_append]
  rfl

theorem trimLast_eq_self {content : List Char} (hlf : ¬ ['\n'] <:+ content) : trimLast content = content := by
  have hcr : ¬ ['\r', '\n'] <:+ content := fun h => hlf (.trans ⟨['\r'], rfl⟩ h)
  rw [trimLast, dropEnd?_eq_none hcr, dropEnd?_eq_none hlf]
  rfl

theorem exists_append_trimFirst (content : List Char) : ∃ lead ∈ lineEnds, content = lead ++ trimFirst content := by
  by_cases hcr : ['\r', '\n'] <+: content
  · obtain ⟨rest, rfl⟩ := hcr
    refine ⟨['\r', '\n'], by simp [lineEnds], ?_⟩
    rw [List.cons_append, List.cons_append, List.nil_append, trimFirst_crlf]
    rfl
  by_cases hlf : ['\n'] <+: content
  · obtain ⟨rest, rfl⟩ := hlf
    refine ⟨['\n'], by simp [lineEnds], ?_⟩
    rw [List.cons_append, List.nil_append, trimFirst_lf]
    rfl
  · exact ⟨[], by simp [lineEnds], (trimFirst_eq_self hcr hlf).symm⟩

theorem exists_trimLast_append (content : List Char) : ∃ trail ∈ lineEnds, content = trimLast content ++ trail := by
  by_cases hlf : ['\n'] <:+ content
  · obtain ⟨before, rfl⟩ := hlf
    by_cases hcr : ['\r', '\n'] <:+ before ++ ['\n']
    · obtain ⟨before', hbefore⟩ := hcr
      exact ⟨['\r', '\n'], by simp [lineEnds], by rw [← hbefore, trimLast_crlf]⟩
    · exact ⟨['\n'], by simp [lineEnds], by rw [trimLast_lf hcr]⟩
  · exact ⟨[], by simp [lineEnds], by rw [trimLast_eq_self hlf, List.append_nil]⟩

theorem exists_append_trimContent (content : List Char) :
    ∃ lead ∈ lineEnds, ∃ trail ∈ lineEnds, content = lead ++ (trimContent content ++ trail) := by
  obtain ⟨lead, hlead, hcontent⟩ := exists_append_trimFirst content
  obtain ⟨trail, htrail, hfirst⟩ := exists_trimLast_append (trimFirst content)
  exact ⟨lead, hlead, trail, htrail, by rw [trimContent_eq, ← hfirst, ← hcontent]⟩

theorem trimFirst_eq_self_iff {content : List Char} :
    trimFirst content = content ↔ ¬ ['\r', '\n'] <+: content ∧ ¬ ['\n'] <+: content := by
  refine ⟨fun h => ⟨fun ⟨rest, hrest⟩ => ?_, fun ⟨rest, hrest⟩ => ?_⟩, fun h => trimFirst_eq_self h.1 h.2⟩
  · rw [← hrest, List.cons_append, List.cons_append, List.nil_append, trimFirst_crlf] at h
    have hlength := congrArg List.length h
    rw [List.length_cons, List.length_cons] at hlength
    omega
  · rw [← hrest, List.cons_append, List.nil_append, trimFirst_lf] at h
    simpa using congrArg List.length h

theorem trimLast_eq_self_iff {content : List Char} : trimLast content = content ↔ ¬ ['\n'] <:+ content := by
  refine ⟨fun h ⟨before, hbefore⟩ => ?_, trimLast_eq_self⟩
  by_cases hcr : ['\r', '\n'] <:+ content
  · obtain ⟨before', rfl⟩ := hcr
    rw [trimLast_crlf] at h
    simpa using congrArg List.length h
  · rw [← hbefore] at hcr
    rw [← hbefore, trimLast_lf hcr] at h
    simpa using congrArg List.length h

theorem trimContent_eq_self_iff {content : List Char} : trimContent content = content ↔ Trimmed content := by
  constructor
  · intro h
    obtain ⟨lead, -, hcontent⟩ := exists_append_trimFirst content
    obtain ⟨trail, -, hfirst⟩ := exists_trimLast_append (trimFirst content)
    rw [← trimContent_eq, h] at hfirst
    have hself : trimFirst content = content := by
      -- Neither step drops anything, as both together do not.
      have h₁ := congrArg List.length hcontent
      have h₂ := congrArg List.length hfirst
      simp only [List.length_append] at h₁ h₂
      obtain rfl : trail = [] := List.eq_nil_of_length_eq_zero (by omega)
      rw [hfirst, List.append_nil]
    rw [trimContent_eq, hself] at h
    have hfirst' := trimFirst_eq_self_iff.1 hself
    exact ⟨hfirst'.1, hfirst'.2, trimLast_eq_self_iff.1 h⟩
  · rintro ⟨hcr, hlf, hlast⟩
    rw [trimContent_eq, trimFirst_eq_self hcr hlf, trimLast_eq_self hlast]

/-! ## The call that a tag begins -/

theorem scanClose_closingTag {identifier : String} {inside : Nat} (rest : List Char) :
    scanClose identifier 0 0 inside (closingTag identifier.toList ++ rest) = some 0 := by
  have hnext : Search.next identifier ⟨0, 0, inside⟩ (closingTag identifier.toList ++ rest) = none :=
    Search.next_closing_zero (List.prefix_append _ _)
  rw [closingTag, openMark, List.cons_append, List.cons_append, List.cons_append] at hnext ⊢
  rw [Search.scanClose_cons ⟨0, 0, inside⟩, hnext]

section ReadCall

variable {chars rest content text : List Char} {tag : OpenTag} {inside : Nat}

theorem IsTag.readCall_selfClosing (h : IsTag chars tag) (hself : tag.selfClosing) (rest : List Char) :
    readCall (chars ++ rest) = .ok (some ⟨⟨tag.identifier, tag.parameters, none⟩, chars.length⟩) := by
  rw [readCall, h.readOpenTag_append, ← h.length]
  exact if_pos hself

theorem IsTag.readCall_eq (h : IsTag chars tag) (hself : tag.selfClosing = false) (rest : List Char) :
    readCall (chars ++ rest)
      = match scanClose tag.identifier 0 0 0 rest with
        | none => .error ⟨.neverClosed tag.identifier, ⟨0, Text.byteLength chars⟩⟩
        | some n => .ok (some ⟨⟨tag.identifier, tag.parameters, some (String.ofList (trimContent (rest.take n)))⟩,
            chars.length + n + (closingTag tag.identifier.toList).length⟩) := by
  rw [readCall, h.readOpenTag_append]
  refine (if_neg (by rw [hself]; exact Bool.false_ne_true)).trans ?_
  cases hscan : scanClose tag.identifier 0 0 0 rest with
  | none => simp only [h.length, List.drop_left, List.take_left, hscan]
  | some n => simp only [h.length, List.drop_left, hscan]

/-- A call is read when its content can be passed by a search that is in no open tag. -/
theorem IsTag.readCall_closed (h : IsTag chars tag) (hself : tag.selfClosing = false)
    (hrun : (Search.between 0).run tag.identifier content (closingTag tag.identifier.toList ++ rest)
      = some ⟨0, 0, inside⟩) :
    readCall (chars ++ (content ++ (closingTag tag.identifier.toList ++ rest)))
      = .ok (some ⟨⟨tag.identifier, tag.parameters, some (String.ofList (trimContent content))⟩,
          chars.length + content.length + (closingTag tag.identifier.toList).length⟩) := by
  have hscan : scanClose tag.identifier 0 0 0 (content ++ (closingTag tag.identifier.toList ++ rest))
      = some content.length := by
    refine (Search.scanClose_append hrun).trans ?_
    rw [scanClose_closingTag, Option.map_some, Nat.zero_add]
  rw [h.readCall_eq hself, hscan]
  dsimp only
  rw [List.take_left]

theorem exists_of_readCall {p : ReadCall} (h : readCall text = .ok (some p)) :
    ∃ chars tag rest, IsTag chars tag ∧ text = chars ++ rest
      ∧ (tag.selfClosing = true ∧ p = ⟨⟨tag.identifier, tag.parameters, none⟩, chars.length⟩
        ∨ tag.selfClosing = false ∧ ∃ content after inside,
            rest = content ++ (closingTag tag.identifier.toList ++ after)
            ∧ (Search.between 0).run tag.identifier content (closingTag tag.identifier.toList ++ after)
              = some ⟨0, 0, inside⟩
            ∧ p = ⟨⟨tag.identifier, tag.parameters, some (String.ofList (trimContent content))⟩,
                chars.length + content.length + (closingTag tag.identifier.toList).length⟩) := by
  cases hread : readOpenTag text with
  | error e => rw [readCall, hread] at h; cases h
  | ok tag? =>
    cases tag? with
    | none => rw [readCall, hread] at h; cases h
    | some tag =>
      obtain ⟨chars, rest, rfl, htag⟩ := exists_isTag hread
      refine ⟨chars, tag, rest, htag, rfl, ?_⟩
      cases hself : tag.selfClosing with
      | true =>
        rw [htag.readCall_selfClosing hself] at h
        exact .inl ⟨rfl, (Option.some.inj (Except.ok.inj h)).symm⟩
      | false =>
        rw [htag.readCall_eq hself] at h
        cases hscan : scanClose tag.identifier 0 0 0 rest with
        | none => rw [hscan] at h; cases h
        | some n =>
          rw [hscan] at h
          obtain ⟨content, after, s, rfl, rfl, hrun, hend⟩ := Search.scanClose_eq_some (s := .between 0) hscan
          obtain ⟨hwhole, hdepth, after, rfl⟩ := Search.next_eq_none_iff.1 hend
          obtain ⟨depth, whole, inside⟩ := s
          obtain ⟨rfl, rfl⟩ : whole = 0 ∧ depth = 0 := ⟨hwhole, hdepth⟩
          dsimp only at h
          rw [List.take_left] at h
          exact .inr ⟨rfl, content, after, inside, rfl, hrun, (Option.some.inj (Except.ok.inj h)).symm⟩

end ReadCall

instance decidableEqExcept {ε α : Type} [DecidableEq ε] [DecidableEq α] : DecidableEq (Except ε α)
  | .ok a, .ok b => decidable_of_iff (a = b) ⟨congrArg _, Except.ok.inj⟩
  | .error a, .error b => decidable_of_iff (a = b) ⟨congrArg _, Except.error.inj⟩
  | .ok _, .error _ => isFalse nofun
  | .error _, .ok _ => isFalse nofun

/-- The call is read at the start of a text, and takes up so many bytes of it. -/
def ReadsAs (text : List Char) (call : Call) (bytes : Nat) : Prop :=
  ∃ p, readCall text = .ok (some p) ∧ p.call = call ∧ Text.byteLength (text.take p.length) = bytes

theorem ReadsAs.of_append {written text : List Char} {call : Call}
    (h : readCall (written ++ text) = .ok (some ⟨call, written.length⟩)) :
    ReadsAs (written ++ text) call (Text.byteLength written) :=
  ⟨_, h, rfl, by rw [List.take_left]⟩

theorem ReadsAs.unique {text : List Char} {a b : Call} {m n : Nat} (ha : ReadsAs text a m) (hb : ReadsAs text b n) :
    a = b := by
  obtain ⟨p, hp, rfl, -⟩ := ha
  obtain ⟨q, hq, rfl, -⟩ := hb
  rw [hp] at hq
  rw [Option.some.inj (Except.ok.inj hq)]

end MacroDoc
