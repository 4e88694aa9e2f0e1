import MacroDoc.Proofs.Toml.Values
import MacroDoc.Toml.Document

/-!
# Line ends at the end of a document

Line ends after a document, and what is left of them when a line feed is dropped, say nothing: the document is the same
without them.

* `afterLine_append` : what is left after the end of a line;
* `readStatementsFrom_of_append`, `parse_of_append` : the document without the characters of line ends that come last.
-/

namespace MacroDoc.Toml

variable {text tail : List Char}

/-- After the end of a line the same is left before line ends, or line ends only. -/
theorem afterLine_append {left' : List Char} (h : EndsBefore text tail) (hafter : afterLine (text ++ tail) = some left') :
    ∃ left tail', afterLine text = some left ∧ left' = left ++ tail' ∧ EndsBefore left tail' ∧
      (left = [] ∨ left.length < text.length) := by
  have heq (text : List Char) : afterLine text =
      if (skipToLineEnd text).isEmpty then some [] else afterNewline (skipToLineEnd text) := rfl
  rw [heq, skipToLineEnd_append h] at hafter
  rw [heq]
  have hsuffix : skipToLineEnd text <:+ text := skipToLineEnd_suffix
  by_cases hnil : skipToLineEnd text = []
  · rw [hnil, List.nil_append] at hafter
    refine ⟨[], left', by rw [hnil]; rfl, rfl, h.tail_suffix ?_, .inl rfl⟩
    split at hafter
    · cases hafter
      exact List.nil_suffix
    · exact (afterNewline_suffix hafter).1
  · have hends := h.suffix hsuffix
    rw [if_neg (by simp [hnil]), afterNewline_append hends hnil] at hafter
    obtain ⟨left, hleft, rfl⟩ := Option.map_eq_some_iff.1 hafter
    obtain ⟨hrest, hless⟩ := afterNewline_suffix hleft
    rw [if_neg (by simp [hnil])]
    exact ⟨left, tail, hleft, rfl, hends.suffix hrest, .inr (Nat.lt_of_lt_of_le hless hsuffix.length_le)⟩

theorem readStatementsFrom_succ (fuel : Nat) : readStatementsFrom (fuel + 1) text =
    if skipBlank text.length text = [] then some []
    else readStatement (skipBlank text.length text) >>= fun p => afterLine p.2 >>= fun rest =>
      readStatementsFrom fuel rest >>= fun others => some (p.1 :: others) := by
  rw [readStatementsFrom]
  generalize skipBlank text.length text = left
  cases left <;> rfl

/-- Line ends after a document can be dropped. -/
theorem readStatementsFrom_of_append {fuel fuel' : Nat} (h : EndsBefore text tail) (hfuel : text.length < fuel)
    {statements : List Statement} (hread : readStatementsFrom fuel' (text ++ tail) = some statements) :
    readStatementsFrom fuel text = some statements := by
  induction fuel generalizing text tail fuel' statements with
  | zero => omega
  | succ fuel ih =>
    cases fuel' with
    | zero => cases hread
    | succ fuel' =>
      have hsuffix := skipsLines_skipBlank.suffix text.length text
      have hlength := hsuffix.length_le
      rw [readStatementsFrom_succ] at hread ⊢
      obtain ⟨hblank, hrest⟩ | ⟨hne, heq⟩ := skipsLines_skipBlank.append h (Nat.le_refl _) (Nat.le_refl _)
      · -- Nothing is left of the text, and line ends are no statement.
        rw [if_pos hblank]
        split at hread
        · exact hread
        · rw [isLocal_readStatement.lineEnds rfl (h.tail_suffix hrest)] at hread
          cases hread
      · rw [heq, if_neg (by simp [hne]), isLocal_readStatement.append (h.suffix hsuffix)] at hread
        rw [if_neg hne]
        obtain ⟨p, hp, hread⟩ := Option.bind_eq_some_iff.1 hread
        obtain ⟨⟨statement, after⟩, hstatement, rfl⟩ := Option.map_eq_some_iff.1 hp
        obtain ⟨left', hafter, hread⟩ := Option.bind_eq_some_iff.1 hread
        obtain ⟨others, hothers, hread⟩ := Option.bind_eq_some_iff.1 hread
        have hafterSuffix := isLocal_readStatement.suffix hstatement
        obtain ⟨left, tail', hleft, rfl, hends, hshorter⟩ :=
          afterLine_append (h.suffix (hafterSuffix.trans hsuffix)) hafter
        have hpos := List.length_pos_iff.2 hne
        have hless : left.length < fuel := by
          have hle := hafterSuffix.length_le
          obtain rfl | hshorter := hshorter
          · rw [List.length_nil]
            omega
          · omega
        rw [hstatement, Option.bind_eq_bind, Option.bind_some, hleft, Option.bind_eq_bind, Option.bind_some,
          ih hends hless hothers]
        rw [hothers] at hread
        exact hread

theorem dropMark_append (h : EndsBefore text tail) :
    ((Text.dropStart? ['\uFEFF'] (text ++ tail)).getD (text ++ tail) =
      (Text.dropStart? ['\uFEFF'] text).getD text ++ tail) ∧
      (Text.dropStart? ['\uFEFF'] text).getD text <:+ text := by
  unfold Text.dropStart?
  by_cases hmark : ['\uFEFF'] <+: text
  · obtain ⟨more, rfl⟩ := hmark
    simp
  · have hmark' : ¬ ['\uFEFF'] <+: text ++ tail := fun hstarts => hmark (h.prefix_of_append _ (by simp) hstarts)
    simp [hmark, hmark']

/-- The characters of line ends at the end of a document can be dropped. -/
theorem parse_of_append {entries : Entries} (h : EndsBefore text tail)
    (hparse : parse (String.ofList (text ++ tail)) = some entries) : parse (String.ofList text) = some entries := by
  obtain ⟨statements, hread, hadd⟩ := Option.bind_eq_some_iff.1 hparse
  refine Option.bind_eq_some_iff.2 ⟨statements, ?_, hadd⟩
  obtain ⟨heq, hsuffix⟩ := dropMark_append h
  rw [String.toList_ofList, readStatements, heq] at hread
  rw [String.toList_ofList, readStatements]
  exact readStatementsFrom_of_append (h.suffix hsuffix) (Nat.lt_succ_of_le hsuffix.length_le) hread

end MacroDoc.Toml
