import MacroDoc.Proofs.Call.Value

/-!
# The grammar of tags

A tag is its identifier, then parameters with blank characters before them, then the mark that ends it. How far a
bare value goes depends on what stands after it, so the grammar reads each value in front of the rest of the tag, and
of nothing else.

* `TagTail` : what may stand in a tag after its identifier, and the parameters that it sets;
* `IsTag` : a text that is one tag;
* `readOpenTag_eq_ok_iff` : a tag is read where one stands, whatever comes after it;
* `nestedTag?_eq_some_iff`, `nestedTag?_append` : the same for the tags of one macro.
-/

namespace MacroDoc

open Call (openMark closeMark selfCloseMark closingTag)

/-! ## Tags -/

def endMark (selfClosing : Bool) : List Char :=
  if selfClosing then selfCloseMark else closeMark

theorem closeMark_suffix_endMark (selfClosing : Bool) : closeMark <:+ endMark selfClosing := by
  cases selfClosing with
  | false => exact List.suffix_rfl
  | true => exact ⟨['/'], rfl⟩

/-- What stands in a tag after its identifier: parameters that are set one by one, then the mark that ends the tag.
A value is read in front of the rest of the tag. -/
inductive TagTail : Parameters → List Char → Bool → Parameters → Prop
  | done (parameters : Parameters) {blanks : List Char} (selfClosing : Bool) (hblanks : ∀ c ∈ blanks, Text.isBlank c) :
    TagTail parameters (blanks ++ endMark selfClosing) selfClosing parameters
  | parameter {parameters result : Parameters} {blanks key written value tail : List Char} {selfClosing : Bool}
    (hblanks : ∀ c ∈ blanks, Text.isBlank c) (hkey : ∀ c ∈ key, isIdentifierChar c) (hne : key ≠ [])
    (hvalue : readValue (written ++ tail) = some (value, tail))
    (htail : TagTail (parameters.insert (String.ofList key) (String.ofList value)) tail selfClosing result) :
    TagTail parameters (blanks ++ (key ++ '=' :: (written ++ tail))) selfClosing result

theorem TagTail.endMark_suffix {parameters result : Parameters} {tail : List Char} {selfClosing : Bool}
    (h : TagTail parameters tail selfClosing result) : endMark selfClosing <:+ tail := by
  induction h with
  | done _ selfClosing _ => exact List.suffix_append _ _
  | @parameter _ _ blanks key written _ tail _ _ _ _ _ _ ih =>
    refine ih.trans ⟨blanks ++ (key ++ '=' :: written), ?_⟩
    simp only [List.append_assoc, List.cons_append]

theorem TagTail.closeMark_suffix {parameters result : Parameters} {tail : List Char} {selfClosing : Bool}
    (h : TagTail parameters tail selfClosing result) : closeMark <:+ tail :=
  (closeMark_suffix_endMark selfClosing).trans h.endMark_suffix

theorem trimStart_append {blanks text : List Char} (hblanks : ∀ c ∈ blanks, Text.isBlank c) :
    Text.trimStart (blanks ++ text) = Text.trimStart text :=
  List.dropWhile_append_of_pos hblanks

theorem trimStart_endMark (selfClosing : Bool) (after : List Char) :
    Text.trimStart (endMark selfClosing ++ after) = endMark selfClosing ++ after := by
  cases selfClosing <;> rfl

theorem trimStart_key {key : List Char} (after : List Char) (hkey : ∀ c ∈ key, isIdentifierChar c) (hne : key ≠ []) :
    Text.trimStart (key ++ after) = key ++ after := by
  obtain ⟨c, cs, rfl⟩ := List.exists_cons_of_ne_nil hne
  have hc := isBlank_of_isIdentifierChar (hkey c List.mem_cons_self)
  rw [Text.trimStart, List.cons_append, List.dropWhile_cons_of_neg (by rw [hc]; exact Bool.false_ne_true)]

theorem takeWhile_key {key : List Char} {c : Char} (after : List Char) (hkey : ∀ c ∈ key, isIdentifierChar c)
    (hc : isIdentifierChar c = false) : (key ++ c :: after).takeWhile isIdentifierChar = key := by
  rw [List.takeWhile_append_of_pos hkey, List.takeWhile_cons_of_neg (by simp [hc]), List.append_nil]

theorem dropWhile_key {key : List Char} {c : Char} (after : List Char) (hkey : ∀ c ∈ key, isIdentifierChar c)
    (hc : isIdentifierChar c = false) : (key ++ c :: after).dropWhile isIdentifierChar = c :: after := by
  rw [List.dropWhile_append_of_pos hkey, List.dropWhile_cons_of_neg (by simp [hc])]

theorem not_endMark_prefix_key {key after : List Char} (selfClosing : Bool) (hkey : ∀ c ∈ key, isIdentifierChar c)
    (hne : key ≠ []) : ¬ (endMark selfClosing).isPrefixOf (key ++ after) := by
  obtain ⟨c, cs, rfl⟩ := List.exists_cons_of_ne_nil hne
  have hc : isIdentifierChar c := hkey c List.mem_cons_self
  cases selfClosing with
  | false =>
    have : '}' ≠ c := fun h => by simp [← h] at hc
    simp [endMark, closeMark, List.isPrefixOf, this]
  | true =>
    have : '/' ≠ c := fun h => by simp [← h] at hc
    simp [endMark, selfCloseMark, List.isPrefixOf, this]

section ReadParameters

variable {text rest after blanks key value v : List Char} {identifier : String} {parameters : Parameters}

theorem readParameters_endMark {selfClosing : Bool} (hblanks : ∀ c ∈ blanks, Text.isBlank c) :
    readParameters text identifier parameters (blanks ++ (endMark selfClosing ++ after))
      = .ok ⟨identifier, parameters, selfClosing,
          text.length - (endMark selfClosing ++ after).length + (endMark selfClosing).length⟩ := by
  have hhere := (trimStart_append hblanks).trans (trimStart_endMark selfClosing after)
  rw [readParameters]
  cases selfClosing with
  | false =>
    rw [if_neg (by rw [hhere]; exact Bool.false_ne_true), if_pos (by rw [hhere]; rfl), hhere]
    rfl
  | true =>
    rw [if_pos (by rw [hhere]; rfl), hhere]
    rfl

theorem readParameters_parameter (hblanks : ∀ c ∈ blanks, Text.isBlank c) (hkey : ∀ c ∈ key, isIdentifierChar c)
    (hne : key ≠ []) (hvalue : readValue value = some (v, after)) :
    readParameters text identifier parameters (blanks ++ (key ++ '=' :: value))
      = readParameters text identifier (parameters.insert (String.ofList key) (String.ofList v)) after := by
  have hhere := (trimStart_append hblanks).trans (trimStart_key ('=' :: value) hkey hne)
  have htake := takeWhile_key value hkey isIdentifierChar_equals
  have hdrop := dropWhile_key value hkey isIdentifierChar_equals
  rw [← hhere] at htake hdrop
  have hself : ¬ selfCloseMark.isPrefixOf (Text.trimStart (blanks ++ (key ++ '=' :: value))) :=
    hhere.symm ▸ not_endMark_prefix_key true hkey hne
  have hclose : ¬ closeMark.isPrefixOf (Text.trimStart (blanks ++ (key ++ '=' :: value))) :=
    hhere.symm ▸ not_endMark_prefix_key false hkey hne
  rw [readParameters, if_neg hself, if_neg hclose]
  split
  · next hnil => simp [hhere] at hnil
  · rw [if_neg (by rw [htake]; simpa using hne)]
    split
    · next value' hafter =>
      obtain rfl : value = value' := by rw [hdrop] at hafter; exact (List.cons.inj hafter).2
      split
      · next hnone => rw [hvalue] at hnone; cases hnone
      · next v' after' hsome =>
        rw [hvalue] at hsome
        obtain ⟨rfl, rfl⟩ := Prod.mk.inj (Option.some.inj hsome)
        rw [htake]
    · next hother => exact absurd hdrop (hother value)

/-- What a tag that is read can go on with. -/
theorem readParameters_eq_ok {tag : OpenTag} (h : readParameters text identifier parameters rest = .ok tag) :
    (∃ blanks selfClosing after, (∀ c ∈ blanks, Text.isBlank c) ∧ rest = blanks ++ (endMark selfClosing ++ after))
      ∨ ∃ blanks key value v after, (∀ c ∈ blanks, Text.isBlank c) ∧ (∀ c ∈ key, isIdentifierChar c) ∧ key ≠ []
          ∧ readValue value = some (v, after) ∧ rest = blanks ++ (key ++ '=' :: value) := by
  have hblanks : ∀ c ∈ rest.takeWhile Text.isBlank, Text.isBlank c := List.all_eq_true.1 List.all_takeWhile
  have hrest : rest = rest.takeWhile Text.isBlank ++ Text.trimStart rest := List.takeWhile_append_dropWhile.symm
  have hmark {mark : List Char} (hm : mark.isPrefixOf (Text.trimStart rest)) :
      ∃ after, rest = rest.takeWhile Text.isBlank ++ (mark ++ after) := by
    obtain ⟨after, hafter⟩ := List.isPrefixOf_iff_prefix.1 hm
    exact ⟨after, hafter ▸ hrest⟩
  rw [readParameters] at h
  split at h
  · next hself =>
    obtain ⟨after, hafter⟩ := hmark hself
    exact .inl ⟨_, true, after, hblanks, hafter⟩
  split at h
  · next hclose =>
    obtain ⟨after, hafter⟩ := hmark hclose
    exact .inl ⟨_, false, after, hblanks, hafter⟩
  split at h
  · cases h
  dsimp only at h
  by_cases hne : ((Text.trimStart rest).takeWhile isIdentifierChar).isEmpty
  · rw [if_pos hne] at h
    cases h
  · rw [if_neg hne] at h
    split at h
    · next value hafter =>
      split at h
      · cases h
      · next v after hvalue =>
        have hhere : Text.trimStart rest = (Text.trimStart rest).takeWhile isIdentifierChar ++ '=' :: value := by
          rw [← hafter, List.takeWhile_append_dropWhile]
        exact .inr ⟨_, _, value, v, after, hblanks, List.all_eq_true.1 List.all_takeWhile, by simpa using hne, hvalue,
          hhere ▸ hrest⟩
    · cases h

end ReadParameters

theorem TagTail.readParameters_append {text tail : List Char} {identifier : String} {parameters result : Parameters}
    {selfClosing : Bool} (h : TagTail parameters tail selfClosing result) (after : List Char)
    (hlength : (tail ++ after).length ≤ text.length) :
    readParameters text identifier parameters (tail ++ after)
      = .ok ⟨identifier, result, selfClosing, text.length - (tail ++ after).length + tail.length⟩ := by
  induction h with
  | done parameters selfClosing hblanks =>
    rw [List.append_assoc, readParameters_endMark hblanks]
    simp only [List.length_append] at hlength ⊢
    congr 2
    omega
  | @parameter _ _ blanks key written value tail _ hblanks hkey hne hvalue htail ih =>
    -- The value was read in front of the rest of the tag; the text after the tag does not change that.
    have hclose := htail.closeMark_suffix.trans (List.suffix_append written tail)
    have hvalue' := (readValue_append_iff after hclose).2 hvalue
    simp only [List.append_assoc, List.cons_append, List.length_append, List.length_cons] at hvalue' hlength ⊢
    rw [readParameters_parameter hblanks hkey hne hvalue', ih (by rw [List.length_append]; omega), List.length_append]
    congr 2
    omega

theorem exists_tagTail {text rest : List Char} {identifier : String} {parameters : Parameters} {tag : OpenTag}
    (h : readParameters text identifier parameters rest = .ok tag) :
    ∃ tail after, rest = tail ++ after ∧ TagTail parameters tail tag.selfClosing tag.parameters := by
  -- By the length of what is left to read, as the reader goes on after the value of a parameter.
  induction hn : rest.length using Nat.strongRecOn generalizing rest parameters with
  | ind n ih =>
  rcases readParameters_eq_ok h with ⟨blanks, selfClosing, after, hblanks, rfl⟩
    | ⟨blanks, key, value, v, after, hblanks, hkey, hne, hvalue, rfl⟩
  · rw [readParameters_endMark hblanks] at h
    obtain rfl := Except.ok.inj h
    exact ⟨_, after, (List.append_assoc ..).symm, .done parameters selfClosing hblanks⟩
  · rw [readParameters_parameter hblanks hkey hne hvalue] at h
    have hlength := length_of_readValue hvalue
    obtain ⟨tail, after, rfl, htail⟩ := ih after.length (by simp at hn; omega) h rfl
    obtain ⟨written, rfl⟩ := exists_append_of_readValue hvalue
    rw [← List.append_assoc] at hvalue
    have hclose := htail.closeMark_suffix.trans (List.suffix_append written tail)
    refine ⟨_, after, ?_, .parameter hblanks hkey hne ((readValue_append_iff after hclose).1 hvalue) htail⟩
    simp only [List.append_assoc, List.cons_append]

/-- A text that is one tag: its identifier, which does not go on, and a tail. -/
inductive IsTag : List Char → OpenTag → Prop
  | intro {identifier tail : List Char} {parameters : Parameters} {selfClosing : Bool}
    (hidentifier : ∀ c ∈ identifier, isIdentifierChar c) (hne : identifier ≠ [])
    (hends : ∀ c ∈ tail.head?, isIdentifierChar c = false) (htail : TagTail .empty tail selfClosing parameters) :
    IsTag (openMark ++ (identifier ++ tail))
      ⟨String.ofList identifier, parameters, selfClosing, (openMark ++ (identifier ++ tail)).length⟩

theorem IsTag.length {chars : List Char} {tag : OpenTag} (h : IsTag chars tag) : tag.length = chars.length := by
  cases h
  rfl

theorem IsTag.endMark_suffix {chars : List Char} {tag : OpenTag} (h : IsTag chars tag) :
    endMark tag.selfClosing <:+ chars := by
  obtain ⟨-, -, -, htail⟩ := h
  exact htail.endMark_suffix.trans ((List.suffix_append _ _).trans (List.suffix_append _ _))

theorem IsTag.closeMark_suffix {chars : List Char} {tag : OpenTag} (h : IsTag chars tag) : closeMark <:+ chars :=
  (closeMark_suffix_endMark tag.selfClosing).trans h.endMark_suffix

theorem IsTag.isName_identifier {chars : List Char} {tag : OpenTag} (h : IsTag chars tag) : IsName tag.identifier := by
  obtain ⟨hidentifier, hne, -, -⟩ := h
  exact isName_ofList hidentifier hne

theorem TagTail.isName_of_mem {parameters result : Parameters} {tail : List Char} {selfClosing : Bool}
    (h : TagTail parameters tail selfClosing result) (hparameters : ∀ entry ∈ parameters.entries, IsName entry.1) :
    ∀ entry ∈ result.entries, IsName entry.1 := by
  induction h with
  | done => exact hparameters
  | parameter hblanks hkey hne hvalue htail ih =>
    refine ih fun entry hentry => ?_
    rcases mem_insertSorted hentry with rfl | hentry
    · exact isName_ofList hkey hne
    · exact hparameters entry hentry

theorem IsTag.isName_of_mem {chars : List Char} {tag : OpenTag} (h : IsTag chars tag) :
    ∀ entry ∈ tag.parameters.entries, IsName entry.1 := by
  obtain ⟨-, -, -, htail⟩ := h
  exact htail.isName_of_mem nofun

theorem readOpenTag_openMark (rest : List Char) :
    readOpenTag (openMark ++ rest)
      = if (rest.takeWhile isIdentifierChar).isEmpty then .ok none
        else (readParameters (openMark ++ rest) (String.ofList (rest.takeWhile isIdentifierChar)) .empty
          (rest.dropWhile isIdentifierChar)).map some := by
  rfl

theorem exists_openMark_append {text : List Char} {tag : OpenTag} (h : readOpenTag text = .ok (some tag)) :
    ∃ rest, text = openMark ++ rest := by
  unfold readOpenTag Text.dropStart? at h
  split at h
  · cases h
  · next hstart =>
    split at hstart
    · next hmark =>
      obtain ⟨rest, hrest⟩ := List.isPrefixOf_iff_prefix.1 hmark
      exact ⟨rest, hrest.symm⟩
    · cases hstart

theorem IsTag.readOpenTag_append {chars : List Char} {tag : OpenTag} (h : IsTag chars tag) (after : List Char) :
    readOpenTag (chars ++ after) = .ok (some tag) := by
  obtain @⟨identifier, tail, parameters, selfClosing, hidentifier, hne, hends, htail⟩ := h
  cases tail with
  | nil => simpa [closeMark] using htail.closeMark_suffix
  | cons c cs =>
    have hc := hends c rfl
    have htake := takeWhile_key (cs ++ after) hidentifier hc
    have hdrop := dropWhile_key (cs ++ after) hidentifier hc
    rw [← List.cons_append] at htake hdrop
    rw [List.append_assoc, readOpenTag_openMark, List.append_assoc, htake, hdrop, if_neg (by simpa using hne)]
    rw [htail.readParameters_append after (by simp only [List.length_append]; omega)]
    simp only [Except.map, List.length_append]
    congr 3
    omega

theorem exists_isTag {text : List Char} {tag : OpenTag} (h : readOpenTag text = .ok (some tag)) :
    ∃ chars after, text = chars ++ after ∧ IsTag chars tag := by
  obtain ⟨rest, rfl⟩ := exists_openMark_append h
  have hread := h
  rw [readOpenTag_openMark] at hread
  by_cases hne : (rest.takeWhile isIdentifierChar).isEmpty
  · rw [if_pos hne] at hread
    cases hread
  rw [if_neg hne] at hread
  cases hparameters : readParameters (openMark ++ rest) (String.ofList (rest.takeWhile isIdentifierChar)) .empty
      (rest.dropWhile isIdentifierChar) with
  | error e => rw [hparameters] at hread; cases hread
  | ok tag' =>
    obtain ⟨tail, after, hafter, htail⟩ := exists_tagTail hparameters
    have hends : ∀ c ∈ tail.head?, isIdentifierChar c = false := by
      intro c hc
      have hdrop := List.head?_dropWhile_not isIdentifierChar rest
      rw [hafter, List.head?_append, Option.mem_def.1 hc] at hdrop
      exact hdrop
    have htag := IsTag.intro (List.all_eq_true.1 List.all_takeWhile) (by simpa using hne) hends htail
    have htext : openMark ++ rest = openMark ++ (rest.takeWhile isIdentifierChar ++ tail) ++ after := by
      rw [List.append_assoc, List.append_assoc, ← hafter, List.takeWhile_append_dropWhile]
    -- The tag that stands there is the one that was read, as both are read.
    have hsame := htag.readOpenTag_append after
    rw [← htext, h] at hsame
    obtain rfl := Option.some.inj (Except.ok.inj hsame)
    exact ⟨_, after, htext, htag⟩

/-- A tag is read at the start of a text exactly if one stands there, whatever comes after it. -/
theorem readOpenTag_eq_ok_iff {text : List Char} {tag : OpenTag} :
    readOpenTag text = .ok (some tag) ↔ ∃ chars after, text = chars ++ after ∧ IsTag chars tag := by
  constructor
  · exact exists_isTag
  · rintro ⟨chars, after, rfl, h⟩
    exact h.readOpenTag_append after

theorem IsTag.of_readOpenTag {chars : List Char} {tag : OpenTag} (h : readOpenTag chars = .ok (some tag))
    (hlength : tag.length = chars.length) : IsTag chars tag := by
  obtain ⟨chars, after, rfl, htag⟩ := exists_isTag h
  rw [htag.length, List.length_append] at hlength
  obtain rfl : after = [] := List.eq_nil_of_length_eq_zero (by omega)
  rwa [List.append_nil]

/-! ## Tags of one macro -/

section NestedTag

variable {identifier : String} {text : List Char} {tag : OpenTag}

theorem nestedTag?_eq_some_iff :
    nestedTag? identifier text = some tag
      ↔ tag.identifier = identifier ∧ ∃ chars after, text = chars ++ after ∧ IsTag chars tag := by
  rw [← readOpenTag_eq_ok_iff]
  unfold nestedTag?
  split
  · next tag' hread =>
    rw [hread]
    split
    · next heq =>
      simp only [Option.some.injEq, Except.ok.injEq]
      exact ⟨fun h => h ▸ ⟨heq, rfl⟩, fun h => h.2⟩
    · next hne =>
      simp only [Option.some.injEq, Except.ok.injEq]
      exact ⟨nofun, fun h => absurd h.1 (h.2 ▸ hne)⟩
  · next hnone => exact ⟨nofun, fun h => absurd h.2 (hnone tag)⟩

theorem nestedTag?_append (h : nestedTag? identifier text = some tag) (other : List Char) :
    nestedTag? identifier (text ++ other) = some tag := by
  obtain ⟨hid, chars, after, rfl, htag⟩ := nestedTag?_eq_some_iff.1 h
  exact nestedTag?_eq_some_iff.2 ⟨hid, chars, after ++ other, List.append_assoc .., htag⟩

/-- A tag that does not go beyond `text` is read from `text`. -/
theorem nestedTag?_of_length_le {after : List Char} (h : nestedTag? identifier (text ++ after) = some tag)
    (hlength : tag.length ≤ text.length) : nestedTag? identifier text = some tag := by
  obtain ⟨hid, chars, rest, htext, htag⟩ := nestedTag?_eq_some_iff.1 h
  have hchars : chars <+: text :=
    List.prefix_of_prefix_length_le ⟨rest, htext.symm⟩ (List.prefix_append text after) (htag.length ▸ hlength)
  obtain ⟨rest', rfl⟩ := hchars
  exact nestedTag?_eq_some_iff.2 ⟨hid, chars, rest', rfl, htag⟩

theorem nestedTag?_eq_of_length_le {after : List Char}
    (h : ∀ tag, nestedTag? identifier (text ++ after) = some tag → tag.length ≤ text.length) :
    nestedTag? identifier (text ++ after) = nestedTag? identifier text :=
  Option.ext fun tag =>
    ⟨fun htag => nestedTag?_of_length_le htag (h tag htag), fun htag => nestedTag?_append htag after⟩

theorem exists_of_nestedTag? (h : nestedTag? identifier text = some tag) :
    ∃ c rest, text = openMark ++ (identifier.toList ++ c :: rest) ∧ isIdentifierChar c = false := by
  obtain ⟨rfl, chars, after, rfl, htag⟩ := nestedTag?_eq_some_iff.1 h
  obtain @⟨identifier, tail, _, _, -, -, hends, htail⟩ := htag
  cases tail with
  | nil => simpa [closeMark] using htail.closeMark_suffix
  | cons c rest => exact ⟨c, rest ++ after, by simp, hends c rfl⟩

theorem isName_of_nestedTag? (h : nestedTag? identifier text = some tag) : IsName identifier := by
  obtain ⟨rfl, _, _, _, htag⟩ := nestedTag?_eq_some_iff.1 h
  exact htag.isName_identifier

theorem nestedTag?_of_ne_openBrace {c : Char} (h : c ≠ '{') : nestedTag? identifier (c :: text) = none := by
  cases htag : nestedTag? identifier (c :: text) with
  | none => rfl
  | some tag =>
    obtain ⟨d, rest, htext, -⟩ := exists_of_nestedTag? htag
    exact absurd (List.cons.inj htext).1 h

theorem getElem?_of_nestedTag? {n : Nat} (h : nestedTag? identifier text = some tag) (hn : n + 1 = tag.length) :
    text[n]? = some '}' := by
  obtain ⟨-, chars, after, rfl, htag⟩ := nestedTag?_eq_some_iff.1 h
  obtain ⟨before, rfl⟩ := htag.closeMark_suffix
  have hn' : n = before.length + 1 := by rw [htag.length] at hn; simpa [closeMark] using hn
  simp [hn', closeMark]

end NestedTag

end MacroDoc
