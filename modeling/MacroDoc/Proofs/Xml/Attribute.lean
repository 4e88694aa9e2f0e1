import MacroDoc.Block.Markup
import MacroDoc.Xml.Attribute

/-!
# Attributes of written elements

The attributes of a written element are read as they are. A value may hold any characters: the two that would end it
early or begin a reference are written as references.

* `IsLetters` : names that need no care;
* `Xml.unescape_escapeAttribute` : a written value stands for the value;
* `Xml.readAttribute_written` : one attribute is read, whatever comes after it;
* `Xml.readAttributes_written` : so are all attributes of an element.
-/

namespace MacroDoc

/-! ## Where a run of characters ends -/

theorem takeWhile_append_stop {p : Char → Bool} {run rest : List Char} (hrun : ∀ c ∈ run, p c = true)
    (hstop : ∀ c ∈ rest.head?, p c = false) : (run ++ rest).takeWhile p = run := by
  rw [List.takeWhile_append_of_pos hrun]
  cases rest with
  | nil => rw [List.takeWhile_nil, List.append_nil]
  | cons c rest => rw [List.takeWhile_cons_of_neg (by simp [hstop c rfl]), List.append_nil]

theorem dropWhile_append_stop {p : Char → Bool} {run rest : List Char} (hrun : ∀ c ∈ run, p c = true)
    (hstop : ∀ c ∈ rest.head?, p c = false) : (run ++ rest).dropWhile p = rest := by
  rw [List.dropWhile_append_of_pos hrun]
  cases rest with
  | nil => rfl
  | cons c rest => rw [List.dropWhile_cons_of_neg (by simp [hstop c rfl])]

/-- A name that has only letters of ASCII. -/
def IsLetters (name : String) : Prop :=
  name ≠ "" ∧ ∀ c ∈ name.toList, c.isAlpha = true

instance (name : String) : Decidable (IsLetters name) :=
  decidable_of_iff (name ≠ "" ∧ name.toList.all Char.isAlpha = true) (by rw [IsLetters, List.all_eq_true])

theorem IsLetters.exists_cons {name : String} (h : IsLetters name) :
    ∃ c cs, name.toList = c :: cs ∧ c.isAlpha = true ∧ ∀ c ∈ cs, c.isAlpha = true := by
  obtain ⟨hne, hletters⟩ := h
  cases hname : name.toList with
  | nil => exact absurd (String.toList_eq_nil_iff.1 hname) hne
  | cons c cs =>
    rw [hname] at hletters
    exact ⟨c, cs, rfl, (List.forall_mem_cons.1 hletters).1, (List.forall_mem_cons.1 hletters).2⟩

theorem ne_of_isAlpha {c d : Char} (hc : c.isAlpha = true) (hd : d.isAlpha = false) : c ≠ d := by
  rintro rfl
  rw [hc] at hd
  cases hd

def writtenAttribute (entry : String × String) : List Char :=
  ' ' :: (entry.1.toList ++ '=' :: '"' :: (escapeAttribute entry.2.toList ++ ['"']))

theorem writtenTag_eq (name : String) (attributes : List (String × String)) :
    writtenTag name attributes = '<' :: (name.toList ++ attributes.flatMap writtenAttribute) := by
  simp [writtenTag]
  rfl

/-- The quote that ends a written value is its first one. -/
theorem ne_quote_of_mem_escapeAttribute {value : List Char} {c : Char} (hc : c ∈ escapeAttribute value) : c ≠ '"' := by
  obtain ⟨d, -, hd⟩ := List.mem_flatMap.1 hc
  split at hd
  · exact (by simp : ∀ c ∈ "&amp;".toList, c ≠ '"') c hd
  split at hd
  · exact (by simp : ∀ c ∈ "&quot;".toList, c ≠ '"') c hd
  · next hne => exact List.mem_singleton.1 hd ▸ hne

namespace Xml

theorem isBlank_of_isAlpha {c : Char} (h : c.isAlpha = true) : isBlank c = false := by
  have hne : ∀ d, d.isAlpha = false → c ≠ d := fun d => ne_of_isAlpha h
  simp [isBlank, hne]

/-! ## References in a written value -/

theorem unescapeFrom_cons {c : Char} (hc : c ≠ '&') (total place : Nat) (rest : List Char) :
    unescapeFrom total place (c :: rest) = (unescapeFrom total (place + c.utf8Size) rest).map (c :: ·) := by
  rw [unescapeFrom]
  simp [hc]

theorem unescapeFrom_reference {name : List Char} (hname : ∀ c ∈ name, isReferenceChar c = true) {place : Nat}
    {resolved : Char} (h : resolveReference (place + 1) name = .ok resolved) (total : Nat) (after : List Char) :
    unescapeFrom total place ('&' :: (name ++ ';' :: after))
      = (unescapeFrom total (place + Text.byteLength name + 2) after).map (resolved :: ·) := by
  have hstop : ∀ c ∈ (';' :: after).head?, isReferenceChar c = false := by simp [isReferenceChar]
  have hdrop := dropWhile_append_stop hname hstop
  have htake := takeWhile_append_stop hname hstop
  rw [unescapeFrom]
  simp only [if_true]
  split
  · next after' heq =>
    rw [hdrop] at heq
    obtain rfl := (List.cons.inj heq).2
    simp only [htake, h]
  · next hne => exact absurd hdrop (hne _)

theorem unescapeFrom_escapeAttribute (total place : Nat) (value : List Char) :
    unescapeFrom total place (escapeAttribute value) = .ok value := by
  induction value generalizing place with
  | nil => rw [escapeAttribute, List.flatMap_nil, unescapeFrom]
  | cons c value ih =>
    rw [escapeAttribute, List.flatMap_cons]
    change unescapeFrom total place (_ ++ escapeAttribute value) = _
    by_cases hamp : c = '&'
    · subst hamp
      have hchars : ∀ c ∈ ['a', 'm', 'p'], isReferenceChar c = true := by simp [isReferenceChar]
      have hresolve : resolveReference (place + 1) ['a', 'm', 'p'] = .ok '&' := rfl
      have h := unescapeFrom_reference hchars hresolve total (escapeAttribute value)
      rw [ih] at h
      exact h
    by_cases hquote : c = '"'
    · subst hquote
      have hchars : ∀ c ∈ ['q', 'u', 'o', 't'], isReferenceChar c = true := by simp [isReferenceChar]
      have hresolve : resolveReference (place + 1) ['q', 'u', 'o', 't'] = .ok '"' := rfl
      have h := unescapeFrom_reference hchars hresolve total (escapeAttribute value)
      rw [ih] at h
      exact h
    · rw [if_neg hamp, if_neg hquote, List.singleton_append, unescapeFrom_cons hamp, ih]
      rfl

theorem unescape_escapeAttribute (value : List Char) : unescape (escapeAttribute value) = .ok value :=
  unescapeFrom_escapeAttribute _ 0 value

/-! ## One attribute -/

theorem Placed.dropWhile_append_stop {p : Char → Bool} {run rest : List Char} (hrun : ∀ c ∈ run, p c = true)
    (hstop : ∀ c ∈ rest.head?, p c = false) (place : Nat) :
    (Placed.mk place (run ++ rest)).dropWhile p = ⟨place + Text.byteLength run, rest⟩ := by
  rw [Placed.dropWhile, MacroDoc.takeWhile_append_stop hrun hstop, MacroDoc.dropWhile_append_stop hrun hstop]

theorem Placed.dropWhile_of_stop {p : Char → Bool} {c : Char} (hstop : p c = false) (place : Nat) (rest : List Char) :
    (Placed.mk place (c :: rest)).dropWhile p = ⟨place, c :: rest⟩ :=
  @Placed.dropWhile_append_stop p [] (c :: rest) (List.forall_mem_nil _) (by simp [hstop]) place

theorem readName_written {name : String} (hname : IsLetters name) (place : Nat) (rest : List Char) :
    ∃ after, readName ⟨place, name.toList ++ '=' :: rest⟩ = .ok (⟨place, name.toList⟩, ⟨after, rest⟩) := by
  obtain ⟨c, cs, heq, -, hcs⟩ := hname.exists_cons
  have hinside : ∀ d ∈ cs, (d ≠ '=' && !isBlank d) = true := by
    intro d hd
    simp [ne_of_isAlpha (hcs d hd) (d := '=') rfl, isBlank_of_isAlpha (hcs d hd)]
  have hstop : ∀ d ∈ ('=' :: rest).head?, (d ≠ '=' && !isBlank d) = false := by simp
  have hdrop := Placed.dropWhile_append_stop hinside hstop (place + c.utf8Size)
  have htake := takeWhile_append_stop hinside hstop
  have hblank := Placed.dropWhile_of_stop (p := isBlank) (c := '=') rfl (place + c.utf8Size + Text.byteLength cs) rest
  simp only [readName, heq, List.cons_append, Placed.drop, hdrop, hblank, List.take_succ_cons, List.take_zero,
    List.drop_succ_cons, List.drop_zero, htake]
  exact ⟨_, rfl⟩

theorem readValue_written (value : List Char) (place : Nat) (rest : List Char) :
    ∃ after, readValue ⟨place, '"' :: (escapeAttribute value ++ '"' :: rest)⟩
      = .ok (escapeAttribute value, ⟨after, rest⟩) := by
  have hinside : ∀ c ∈ escapeAttribute value, decide (c ≠ '"') = true := by
    intro c hc
    simpa using ne_quote_of_mem_escapeAttribute hc
  have hstop : ∀ c ∈ ('"' :: rest).head?, decide (c ≠ '"') = false := by simp
  have hblank := Placed.dropWhile_of_stop (p := isBlank) (c := '"') rfl place (escapeAttribute value ++ '"' :: rest)
  have htake := takeWhile_append_stop hinside hstop
  have hdrop := Placed.dropWhile_append_stop hinside hstop (place + ('"' : Char).utf8Size)
  simp only [readValue, hblank, Placed.drop, htake, hdrop, decide_true, Bool.true_or, if_true]
  exact ⟨_, rfl⟩

/-- A written attribute is read as it is, unless there is one with its name before it. -/
theorem readAttribute_written {entry : String × String} (hname : IsLetters entry.1) {seen : List PlacedName}
    (hseen : ∀ earlier ∈ seen, earlier.name ≠ entry.1.toList) (place : Nat) (rest : List Char) :
    ∃ after, readAttribute seen ⟨place, (writtenAttribute entry).tail ++ rest⟩
      = .ok (⟨place, entry.1.toList⟩, entry.2.toList, ⟨after, rest⟩) := by
  obtain ⟨middle, hread⟩ := readName_written hname place ('"' :: (escapeAttribute entry.2.toList ++ '"' :: rest))
  obtain ⟨after, hvalue⟩ := readValue_written entry.2.toList middle rest
  have hnew : seen.find? (·.name = entry.1.toList) = none := by
    rw [List.find?_eq_none]
    intro earlier hearlier
    simpa using hseen earlier hearlier
  have htext : (writtenAttribute entry).tail ++ rest
      = entry.1.toList ++ '=' :: '"' :: (escapeAttribute entry.2.toList ++ '"' :: rest) := by
    simp [writtenAttribute]
  refine ⟨after, ?_⟩
  rw [readAttribute, htext, hread]
  simp only [bind, Except.bind, hnew, hvalue, unescape_escapeAttribute]

/-! ## All attributes -/

theorem Placed.dropWhile_writtenAttribute {entry : String × String} (hname : IsLetters entry.1) (place : Nat)
    (rest : List Char) :
    (Placed.mk place (writtenAttribute entry ++ rest)).dropWhile isBlank
      = ⟨place + 1, (writtenAttribute entry).tail ++ rest⟩ := by
  obtain ⟨c, cs, heq, hc, -⟩ := hname.exists_cons
  have hstop : ∀ d ∈ ((writtenAttribute entry).tail ++ rest).head?, isBlank d = false := by
    simp [writtenAttribute, heq, isBlank_of_isAlpha hc]
  have hrun : ∀ d ∈ [' '], isBlank d = true := by simp [isBlank]
  exact Placed.dropWhile_append_stop hrun hstop place

theorem readAttributesFrom_written {attributes : List (String × String)}
    (hnames : ∀ entry ∈ attributes, IsLetters entry.1) (hnodup : (attributes.map Prod.fst).Nodup)
    {seen : List PlacedName} (hseen : ∀ earlier ∈ seen, ∀ entry ∈ attributes, earlier.name ≠ entry.1.toList)
    {fuel : Nat} (hfuel : attributes.length ≤ fuel) (place : Nat) :
    readAttributesFrom seen fuel ⟨place, attributes.flatMap writtenAttribute⟩ = .ok attributes := by
  -- what carries the induction is that no name before an attribute is the name of one that is still to come
  induction attributes generalizing seen fuel place with
  | nil => cases fuel <;> rfl
  | cons entry attributes ih =>
    obtain ⟨hname, hnames⟩ := List.forall_mem_cons.1 hnames
    obtain ⟨hnew, hnodup⟩ := List.nodup_cons.1 hnodup
    obtain ⟨fuel, rfl⟩ := Nat.exists_eq_add_of_le' (Nat.le_trans (Nat.le_add_left 1 attributes.length) hfuel)
    obtain ⟨after, hread⟩ := readAttribute_written hname (fun earlier h => hseen earlier h entry List.mem_cons_self)
      (place + 1) (attributes.flatMap writtenAttribute)
    have hseen' : ∀ earlier ∈ seen ++ [⟨place + 1, entry.1.toList⟩], ∀ other ∈ attributes,
        earlier.name ≠ other.1.toList := by
      intro earlier hearlier other hother
      rcases List.mem_append.1 hearlier with hold | hlast
      · exact hseen earlier hold other (List.mem_cons_of_mem _ hother)
      · rw [List.mem_singleton.1 hlast]
        intro heq
        exact hnew (List.mem_map.2 ⟨other, hother, (String.toList_inj.1 heq).symm⟩)
    have hothers := ih hnames hnodup hseen' (Nat.le_of_succ_le_succ hfuel) after
    have hsome : ((writtenAttribute entry).tail ++ attributes.flatMap writtenAttribute).isEmpty = false := by
      simp [writtenAttribute]
    rw [readAttributesFrom, List.flatMap_cons, Placed.dropWhile_writtenAttribute hname]
    simp only [hsome, hread, hothers, bind, Except.bind, Bool.false_eq_true, if_false, String.ofList_toList]
    rfl

/-- The attributes of a written element are read as they are. -/
theorem readAttributes_written {attributes : List (String × String)} (hnames : ∀ entry ∈ attributes, IsLetters entry.1)
    (hnodup : (attributes.map Prod.fst).Nodup) (place : Nat) :
    readAttributes place (attributes.flatMap writtenAttribute) = .ok attributes := by
  refine readAttributesFrom_written hnames hnodup (List.forall_mem_nil _) ?_ place
  -- every attribute has at least the blank in front of it, so there is enough fuel
  clear hnames hnodup
  induction attributes with
  | nil => exact Nat.le_refl 0
  | cons entry attributes ih =>
    rw [List.flatMap_cons, List.length_append, List.length_cons, writtenAttribute, List.length_cons]
    omega

end Xml

end MacroDoc
