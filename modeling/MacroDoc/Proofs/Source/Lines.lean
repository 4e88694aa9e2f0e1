import MacroDoc.Text.Scan

/-!
# Lines around a place

* `Text.lastLine`, `Text.firstLine` : what stands on the same line before a place, and after it;
* `Text.IsLine` : a line with the line feed that ends it, which only the last line of a text may lack;
* `Text.exists_isLine`, `Text.IsLine.take_lineLength` : the first line of a text.
-/

namespace MacroDoc.Text

def lastLine (text : List Char) : List Char :=
  (text.reverse.takeWhile (· != '\n')).reverse

def firstLine (text : List Char) : List Char :=
  text.takeWhile (· != '\n')

/-- With `after` behind it, `line` is a line: it ends with its only line feed, or it has none and is the last one. -/
def IsLine (line after : List Char) : Prop :=
  (∃ inner, line = inner ++ ['\n'] ∧ '\n' ∉ inner) ∨ '\n' ∉ line ∧ after = []

instance (line after : List Char) : Decidable (IsLine line after) :=
  decidable_of_iff (line.getLast? = some '\n' ∧ '\n' ∉ line.dropLast ∨ '\n' ∉ line ∧ after = []) <| by
    refine or_congr ⟨fun ⟨hlast, hmem⟩ => ?_, ?_⟩ .rfl
    · obtain ⟨inner, rfl⟩ := List.getLast?_eq_some_iff.1 hlast
      exact ⟨inner, rfl, by simpa using hmem⟩
    · rintro ⟨inner, rfl, hmem⟩
      simpa using hmem

/-! ## The line before a place -/

theorem all_ne_lineFeed {text : List Char} (h : '\n' ∉ text) : ∀ c ∈ text, (c != '\n') = true :=
  fun _ hc => bne_iff_ne.2 fun heq => h (heq ▸ hc)

theorem lastLine_append {text : List Char} (before : List Char) (h : '\n' ∉ text) :
    lastLine (before ++ text) = lastLine before ++ text := by
  have hall : ∀ c ∈ text.reverse, (c != '\n') = true := fun c hc => all_ne_lineFeed h c (List.mem_reverse.1 hc)
  rw [lastLine, List.reverse_append, List.takeWhile_append_of_pos hall, List.reverse_append, List.reverse_reverse]
  rfl

theorem lastLine_append_lineFeed (before : List Char) : lastLine (before ++ ['\n']) = [] := by
  simp [lastLine]

theorem isBlankText_append {a b : List Char} : isBlankText (a ++ b) = (isBlankText a && isBlankText b) := by
  rw [isBlankText, isBlankText, isBlankText, List.all_append]

theorem not_isBlankText_lastLine {c : Char} (before : List Char) (hc : isBlank c = false) :
    ¬ isBlankText (lastLine (before ++ [c])) := by
  have hne : '\n' ∉ [c] := fun h => by
    rw [← List.mem_singleton.1 h] at hc
    exact absurd hc (by decide)
  rw [lastLine_append before hne, isBlankText_append]
  simp [isBlankText, hc]

/-! ## Lines of a text -/

section Line

variable {line after before a b : List Char}

theorem exists_isLine (text : List Char) : ∃ line after, text = line ++ after ∧ IsLine line after := by
  induction text with
  | nil => exact ⟨[], [], rfl, .inr ⟨List.not_mem_nil, rfl⟩⟩
  | cons c cs ih =>
    by_cases hc : c = '\n'
    · exact ⟨[c], cs, rfl, .inl ⟨[], by rw [hc, List.nil_append], List.not_mem_nil⟩⟩
    · have hmem {text : List Char} (h : '\n' ∉ text) : '\n' ∉ c :: text := by simp [h, Ne.symm hc]
      obtain ⟨line, after, rfl, ⟨inner, rfl, hinner⟩ | ⟨hline, hafter⟩⟩ := ih
      · exact ⟨c :: (inner ++ ['\n']), after, rfl, .inl ⟨c :: inner, rfl, hmem hinner⟩⟩
      · exact ⟨c :: line, after, rfl, .inr ⟨hmem hline, hafter⟩⟩

theorem lineLength_of_not_mem (h : '\n' ∉ a) : lineLength (a ++ b) = a.length + lineLength b := by
  induction a with
  | nil => simp
  | cons c a ih =>
    obtain ⟨hc, ha⟩ := not_or.1 (mt List.mem_cons.2 h)
    rw [List.cons_append, lineLength, if_neg (Ne.symm hc), ih ha, List.length_cons]
    omega

theorem IsLine.lineLength (h : IsLine line after) : lineLength (line ++ after) = line.length := by
  rcases h with ⟨inner, rfl, hinner⟩ | ⟨hline, rfl⟩
  · rw [List.append_assoc, lineLength_of_not_mem hinner, List.length_append]
    rfl
  · rw [lineLength_of_not_mem hline]
    rfl

theorem IsLine.take_lineLength (h : IsLine line after) :
    (line ++ after).take (Text.lineLength (line ++ after)) = line := by
  rw [h.lineLength, List.take_left]

theorem IsLine.lineFeed_not_mem (h : IsLine (a ++ b) after) (hb : b ≠ []) : '\n' ∉ a := by
  rcases h with ⟨inner, hinner, hmem⟩ | ⟨hline, -⟩
  · obtain ⟨b, c, rfl⟩ := (List.eq_nil_or_concat b).resolve_left hb
    rw [List.concat_eq_append, ← List.append_assoc] at hinner
    obtain ⟨rfl, -⟩ := List.append_inj' hinner rfl
    exact fun ha => hmem (List.mem_append_left b ha)
  · exact fun ha => hline (List.mem_append_left b ha)

/-- A line begins after a line, if anything comes after it. -/
theorem IsLine.lastLine_append (h : IsLine line after) (hne : after ≠ []) : lastLine (before ++ line) = [] := by
  obtain ⟨inner, rfl, -⟩ := h.resolve_right fun h => hne h.2
  rw [← List.append_assoc, lastLine_append_lineFeed]

theorem IsLine.isBlankText_firstLine (h : IsLine line after) :
    isBlankText (firstLine (line ++ after)) = isBlankText line := by
  rcases h with ⟨inner, rfl, hinner⟩ | ⟨hline, rfl⟩
  · rw [firstLine, List.append_assoc, List.takeWhile_append_of_pos (all_ne_lineFeed hinner), isBlankText_append,
      isBlankText_append]
    rfl
  · rw [firstLine, List.takeWhile_append_of_pos (all_ne_lineFeed hline), List.takeWhile_nil, List.append_nil]

end Line

end MacroDoc.Text
