import MacroDoc.Call.Reader

/-!
# The values of a tag

A value between quotes ends at its own closing quote. A bare value ends where what comes after it says so, and the
reader looks up to three characters ahead to see that; in a tag these three stand before the end of the tag.

* `IsName` : what an identifier and the name of a parameter look like;
* `readQuoted_eq_some` : a quoted value is read from its own characters;
* `readValue_append_iff` : a value that stands before the end of a tag is read in the same way whatever comes after it.
-/

namespace MacroDoc

open Call (openMark closeMark selfCloseMark closingTag)

/-! ## Characters -/

def blankCodes : List Nat :=
  List.range' 0x09 5 ++ [0x20, 0x85, 0xA0, 0x1680] ++ List.range' 0x2000 11 ++ [0x2028, 0x2029, 0x202F, 0x205F, 0x3000]

theorem toNat_mem_blankCodes {c : Char} (h : Text.isBlank c) : c.toNat ∈ blankCodes := by
  simp only [Text.isBlank, Bool.or_eq_true, Bool.and_eq_true, decide_eq_true_eq, beq_iff_eq] at h
  simp only [blankCodes, List.mem_append, List.mem_range'_1, List.mem_cons, List.not_mem_nil, or_false]
  omega

theorem isIdentifierChar_of_mem_blankCodes : ∀ n ∈ blankCodes, isIdentifierChar (Char.ofNat n) = false := by
  decide +kernel

theorem isIdentifierChar_of_isBlank {c : Char} (h : Text.isBlank c) : isIdentifierChar c = false := by
  rw [← Char.ofNat_toNat c]
  exact isIdentifierChar_of_mem_blankCodes _ (toNat_mem_blankCodes h)

theorem isBlank_of_isIdentifierChar {c : Char} (h : isIdentifierChar c) : Text.isBlank c = false := by
  cases hc : Text.isBlank c with
  | false => rfl
  | true => rw [isIdentifierChar_of_isBlank hc] at h; exact absurd h Bool.false_ne_true

@[simp] theorem isIdentifierChar_openBrace : isIdentifierChar '{' = false := by decide

@[simp] theorem isIdentifierChar_closeBrace : isIdentifierChar '}' = false := by decide

@[simp] theorem isIdentifierChar_slash : isIdentifierChar '/' = false := by decide

@[simp] theorem isIdentifierChar_equals : isIdentifierChar '=' = false := by decide

def IsName (name : String) : Prop :=
  name ≠ "" ∧ ∀ c ∈ name.toList, isIdentifierChar c

theorem isName_iff {name : String} : IsName name ↔ name ≠ "" ∧ name.toList.all isIdentifierChar = true := by
  rw [IsName, List.all_eq_true]

instance (name : String) : Decidable (IsName name) :=
  decidable_of_iff _ isName_iff.symm

theorem isName_ofList {chars : List Char} (hchars : ∀ c ∈ chars, isIdentifierChar c) (hne : chars ≠ []) :
    IsName (String.ofList chars) := by
  refine ⟨fun h => hne ?_, by simpa using hchars⟩
  simpa using congrArg String.toList h

theorem IsName.toList_ne_nil {name : String} (h : IsName name) : name.toList ≠ [] :=
  fun hnil => h.1 (String.toList_inj.1 hnil)

/-! ## Values -/

theorem readQuoted_cons {c : Char} {rest : List Char} (hescape : c ≠ '\\') (hend : c ≠ '"') :
    readQuoted (c :: rest) = (readQuoted rest).map fun (value, after) => (c :: value, after) := by
  simp [readQuoted, hescape, hend]

theorem readQuoted_eq_some {text value after : List Char} (h : readQuoted text = some (value, after)) :
    ∃ quoted, text = quoted ++ after ∧ ∀ other, readQuoted (quoted ++ other) = some (value, other) := by
  fun_induction readQuoted text generalizing value with
  | case1 | case2 => simp at h
  | case3 c rest ih =>
    obtain ⟨⟨v, a⟩, hv, he⟩ := Option.map_eq_some_iff.1 h
    obtain ⟨rfl, rfl⟩ := Prod.mk.inj he
    obtain ⟨quoted, rfl, hquoted⟩ := ih hv
    exact ⟨'\\' :: c :: quoted, rfl, fun other => by simp [readQuoted, hquoted]⟩
  | case4 rest =>
    obtain ⟨rfl, rfl⟩ := Prod.mk.inj (Option.some.inj h)
    exact ⟨['"'], rfl, fun other => by simp [readQuoted]⟩
  | case5 c rest hlast hescape hend ih =>
    have hc : c ≠ '\\' := fun hc => by
      cases rest with
      | nil => exact hlast hc rfl
      | cons d ds => exact hescape d ds hc rfl
    obtain ⟨⟨v, a⟩, hv, he⟩ := Option.map_eq_some_iff.1 h
    obtain ⟨rfl, rfl⟩ := Prod.mk.inj he
    obtain ⟨quoted, rfl, hquoted⟩ := ih hv
    exact ⟨c :: quoted, rfl, fun other => by rw [List.cons_append, readQuoted_cons hc hend, hquoted]; rfl⟩

theorem readQuoted_append_iff {text value after : List Char} (other : List Char) :
    readQuoted (text ++ other) = some (value, after ++ other) ↔ readQuoted text = some (value, after) := by
  constructor
  · intro h
    obtain ⟨quoted, htext, hquoted⟩ := readQuoted_eq_some h
    rw [← List.append_assoc] at htext
    exact List.append_cancel_right htext ▸ hquoted after
  · intro h
    obtain ⟨quoted, rfl, hquoted⟩ := readQuoted_eq_some h
    rw [List.append_assoc]
    exact hquoted (after ++ other)

/-- The mark of a self-closing tag is looked for three characters ahead, and none of them stands after the end of a
tag. -/
theorem selfCloseMark_prefix_append_iff {text other : List Char} (hclose : closeMark <:+ text) :
    selfCloseMark <+: text ++ other ↔ selfCloseMark <+: text := by
  obtain ⟨before, rfl⟩ := hclose
  match before with
  | [] => simp [closeMark, selfCloseMark]
  | [a] => simp [closeMark, selfCloseMark]
  | [a, b] => simp [closeMark, selfCloseMark]
  | a :: b :: c :: cs => simp [selfCloseMark]

/-- Whether a bare value ends before `text`. -/
def endsBare : List Char → Bool
  | [] => true
  | c :: rest => Text.isBlank c || c == '}' || selfCloseMark.isPrefixOf (c :: rest)

theorem readBare_of_endsBare {text : List Char} (h : endsBare text) : readBare text = ([], text) := by
  cases text with
  | nil => rfl
  | cons c rest =>
    simp only [endsBare] at h
    rw [readBare, if_pos h]

theorem readBare_cons {c : Char} {rest : List Char} (h : endsBare (c :: rest) = false) :
    readBare (c :: rest) = (c :: (readBare rest).1, (readBare rest).2) := by
  simp only [endsBare] at h
  rw [readBare, if_neg (by rw [h]; exact Bool.false_ne_true)]

theorem endsBare_append {text : List Char} (other : List Char) (hclose : closeMark <:+ text) :
    endsBare (text ++ other) = endsBare text := by
  cases text with
  | nil => simp [closeMark] at hclose
  | cons c rest =>
    have hmark : selfCloseMark.isPrefixOf (c :: rest ++ other) = selfCloseMark.isPrefixOf (c :: rest) := by
      rw [Bool.eq_iff_iff, List.isPrefixOf_iff_prefix, List.isPrefixOf_iff_prefix]
      exact selfCloseMark_prefix_append_iff hclose
    simp only [List.cons_append, endsBare] at hmark ⊢
    rw [hmark]

theorem readBare_append {text : List Char} (other : List Char) (hclose : closeMark <:+ text) :
    readBare (text ++ other) = ((readBare text).1, (readBare text).2 ++ other) := by
  induction text with
  | nil => simp [closeMark] at hclose
  | cons c rest ih =>
    cases hends : endsBare (c :: rest) with
    | true =>
      have hends' := (endsBare_append other hclose).trans hends
      rw [readBare_of_endsBare hends, readBare_of_endsBare hends']
    | false =>
      have hends' := (endsBare_append other hclose).trans hends
      have hrest : closeMark <:+ rest := by
        refine (List.suffix_cons_iff.1 hclose).resolve_left fun h => ?_
        simp [endsBare, (List.cons.inj h).1.symm] at hends
      rw [readBare_cons hends, List.cons_append, @readBare_cons c (rest ++ other) hends', ih hrest]

theorem readValue_eq_readBare {text : List Char} (h : ∀ quoted, text ≠ '"' :: quoted) :
    readValue text = some (readBare text) := by
  unfold readValue
  split
  · next quoted => exact absurd rfl (h quoted)
  · rfl

theorem readValue_append_iff {text value after : List Char} (other : List Char) (hclose : closeMark <:+ text) :
    readValue (text ++ other) = some (value, after ++ other) ↔ readValue text = some (value, after) := by
  by_cases hquoted : ∃ quoted, text = '"' :: quoted
  · obtain ⟨quoted, rfl⟩ := hquoted
    exact readQuoted_append_iff other
  · have hbare : ∀ quoted, text ≠ '"' :: quoted := fun quoted h => hquoted ⟨quoted, h⟩
    have hbare' : ∀ quoted, text ++ other ≠ '"' :: quoted := by
      cases text with
      | nil => simp [closeMark] at hclose
      | cons c rest => exact fun quoted h => hbare rest (by rw [(List.cons.inj h).1])
    rw [readValue_eq_readBare hbare, readValue_eq_readBare hbare', readBare_append other hclose]
    simp only [Option.some.injEq, Prod.ext_iff, List.append_cancel_right_eq]

theorem readBare_fst_append_snd (text : List Char) : (readBare text).1 ++ (readBare text).2 = text := by
  induction text with
  | nil => rfl
  | cons c rest ih =>
    cases hends : endsBare (c :: rest) with
    | true => rw [readBare_of_endsBare hends, List.nil_append]
    | false => rw [readBare_cons hends, List.cons_append, ih]

theorem exists_append_of_readValue {text value after : List Char} (h : readValue text = some (value, after)) :
    ∃ written, text = written ++ after := by
  unfold readValue at h
  split at h
  · next quoted =>
    obtain ⟨q, hq, -⟩ := readQuoted_eq_some h
    exact ⟨'"' :: q, by rw [hq, List.cons_append]⟩
  · have hbare := readBare_fst_append_snd text
    rw [Option.some.inj h] at hbare
    exact ⟨value, hbare.symm⟩

end MacroDoc
