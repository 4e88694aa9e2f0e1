import Mathlib.Data.List.DropRight
import MacroDoc.Dialect

/-!
# Dialect ids, written and read

An id is cut at its first slash, both sides must hold something, and then they are trimmed. So a side of blank
characters only is taken for one that holds something, and the id that comes of it is none that can be read.

* `Text.Unpadded` : a text with no blank character at its ends, `Text.trim_eq_self_iff`;
* `Dialect.Canonical` : the dialects whose written id can be read, `Dialect.read_render_iff`;
* `Dialect.read_survives` : when an id that was read can be written and read again;
* `Dialect.not_read_survives` : an id that cannot.
-/

namespace MacroDoc

namespace Text

/-! ## Trimmed texts -/

/-- A text with no blank character at its ends. -/
def Unpadded (cs : List Char) : Prop :=
  (∀ c ∈ cs.head?, isBlank c = false) ∧ ∀ c ∈ cs.getLast?, isBlank c = false

instance (cs : List Char) : Decidable (Unpadded cs) := inferInstanceAs (Decidable (_ ∧ _))

variable {cs : List Char}

theorem trim_eq (cs : List Char) : trim cs = (cs.dropWhile isBlank).rdropWhile isBlank :=
  rfl

theorem trim_sublist (cs : List Char) : (trim cs).Sublist cs := by
  have hstart := List.rdropWhile_prefix isBlank (cs.dropWhile isBlank)
  exact hstart.sublist.trans (List.dropWhile_suffix isBlank).sublist

theorem trim_eq_nil_iff : trim cs = [] ↔ ∀ c ∈ cs, isBlank c = true := by
  rw [trim_eq, List.rdropWhile_eq_nil_iff]
  constructor
  · intro h c hc
    rw [← List.takeWhile_append_dropWhile (p := isBlank) (l := cs), List.mem_append] at hc
    rcases hc with hc | hc
    · exact List.mem_takeWhile_imp hc
    · exact h c hc
  · intro h c hc
    exact h c ((List.dropWhile_suffix isBlank).subset hc)

theorem unpadded_trim (cs : List Char) : Unpadded (trim cs) := by
  rw [trim_eq]
  constructor
  · intro c hc
    -- What is dropped from the end leaves the first character as it is.
    obtain ⟨rest, hrest⟩ := List.head?_eq_some_iff.1 hc
    obtain ⟨dropped, hdropped⟩ := List.rdropWhile_prefix isBlank (cs.dropWhile isBlank)
    rw [hrest, List.cons_append] at hdropped
    have hfirst := List.head?_dropWhile_not isBlank cs
    rw [← hdropped, List.head?_cons] at hfirst
    exact Bool.eq_false_iff.2 (by simpa using hfirst)
  · intro c hc
    obtain ⟨hne, rfl⟩ := List.mem_getLast?_eq_getLast hc
    exact Bool.eq_false_iff.2 (List.rdropWhile_last_not isBlank _ hne)

theorem trim_eq_self_iff : trim cs = cs ↔ Unpadded cs := by
  refine ⟨fun h => h ▸ unpadded_trim cs, fun ⟨hfirst, hlast⟩ => ?_⟩
  have hstart : cs.dropWhile isBlank = cs := by
    cases cs with
    | nil => rfl
    | cons c cs => rw [List.dropWhile_cons_of_neg (by simp [hfirst c rfl])]
  rw [trim_eq, hstart, List.rdropWhile_eq_self_iff]
  intro hne
  simp [hlast _ (List.getLast?_eq_some_getLast hne)]

end Text

/-! ## Ids -/

namespace Dialect

open Text (Unpadded isBlank trim)

/-- A dialect whose type and version hold something, without blank characters at their ends, and whose type has no
slash. -/
structure Canonical (d : Dialect) : Prop where
  kind_ne : d.kind ≠ ""
  version_ne : d.version ≠ ""
  kind_unpadded : Unpadded d.kind.toList
  version_unpadded : Unpadded d.version.toList
  noSlash : '/' ∉ d.kind.toList

variable {text : String} {d : Dialect} {kind version : List Char}

theorem toList_render (d : Dialect) : d.render.toList = d.kind.toList ++ '/' :: d.version.toList := by
  simp [render]

theorem read_eq_ok (htext : text.toList = kind ++ '/' :: version) (hslash : '/' ∉ kind) (hkind : kind ≠ [])
    (hversion : version ≠ []) : read text = .ok ⟨String.ofList (trim kind), String.ofList (trim version)⟩ := by
  rw [read, htext, Text.splitOnce?_append_cons hslash]
  simp [hkind, hversion]

theorem exists_of_read (h : read text = .ok d) : ∃ kind version, text.toList = kind ++ '/' :: version ∧ '/' ∉ kind ∧
    kind ≠ [] ∧ version ≠ [] ∧ d = ⟨String.ofList (trim kind), String.ofList (trim version)⟩ := by
  unfold read at h
  cases hsplit : Text.splitOnce? '/' text.toList with
  | none => simp [hsplit] at h
  | some sides =>
    obtain ⟨kind, version⟩ := sides
    simp only [hsplit, Bool.or_eq_true, List.isEmpty_iff] at h
    split at h
    · cases h
    · next hsides =>
      obtain ⟨hkind, hversion⟩ := not_or.1 hsides
      exact ⟨kind, version, Text.eq_append_of_splitOnce? hsplit, Text.not_mem_of_splitOnce? hsplit, hkind, hversion,
        (Except.ok.inj h).symm⟩

theorem sides_unique {kind' version' : List Char} (h : kind ++ '/' :: version = kind' ++ '/' :: version')
    (hkind : '/' ∉ kind) (hkind' : '/' ∉ kind') : kind = kind' ∧ version = version' := by
  have hsplit := Text.splitOnce?_append_cons hkind version
  rw [h, Text.splitOnce?_append_cons hkind'] at hsplit
  exact Prod.mk.inj (Option.some.inj hsplit.symm)

theorem read_render_of_canonical (h : d.Canonical) : read d.render = .ok d := by
  have hkind : d.kind.toList ≠ [] := fun hnil => h.kind_ne (String.toList_eq_nil_iff.1 hnil)
  have hversion : d.version.toList ≠ [] := fun hnil => h.version_ne (String.toList_eq_nil_iff.1 hnil)
  rw [read_eq_ok d.toList_render h.noSlash hkind hversion, Text.trim_eq_self_iff.2 h.kind_unpadded,
    Text.trim_eq_self_iff.2 h.version_unpadded, String.ofList_toList, String.ofList_toList]

/-- What is read is canonical but for a side that blank characters have left empty. -/
theorem canonical_of_read (h : read text = .ok d) (hkind : d.kind ≠ "") (hversion : d.version ≠ "") : d.Canonical := by
  obtain ⟨kind, version, -, hslash, -, -, rfl⟩ := exists_of_read h
  refine ⟨hkind, hversion, ?_, ?_, ?_⟩
  · rw [String.toList_ofList]
    exact Text.unpadded_trim kind
  · rw [String.toList_ofList]
    exact Text.unpadded_trim version
  · rw [String.toList_ofList]
    exact fun hmem => hslash ((Text.trim_sublist kind).subset hmem)

theorem read_render_iff : read d.render = .ok d ↔ d.Canonical := by
  refine ⟨fun h => ?_, read_render_of_canonical⟩
  obtain ⟨kind, version, htext, hslash, hkind, hversion, hd⟩ := exists_of_read h
  -- The type has come of the side before the first slash, so that is the slash the id was written with.
  have hnoSlash : '/' ∉ d.kind.toList := by
    rw [hd, String.toList_ofList]
    exact fun hmem => hslash ((Text.trim_sublist kind).subset hmem)
  obtain ⟨hk, hv⟩ := sides_unique (d.toList_render ▸ htext) hnoSlash hslash
  refine canonical_of_read h ?_ ?_
  · rintro hnil
    exact hkind (by rw [← hk, hnil]; rfl)
  · rintro hnil
    exact hversion (by rw [← hv, hnil]; rfl)

/-- An id that was read holds a type and a version and can be written and read again, unless blank characters are all
that stands before its first slash or after it. The dialects that can be written and read again are the canonical
ones. -/
theorem read_survives (text : String) (d : Dialect) :
    (read text = .ok d → ∀ kind version, text.toList = kind ++ '/' :: version → '/' ∉ kind →
      ((d.kind ≠ "" ∧ d.version ≠ "" ∧ read d.render = .ok d)
        ↔ (∃ c ∈ kind, isBlank c = false) ∧ ∃ c ∈ version, isBlank c = false)) ∧
    (read d.render = .ok d ↔ d.Canonical) := by
  refine ⟨fun h kind version htext hslash => ?_, read_render_iff⟩
  obtain ⟨kind', version', htext', hslash', -, -, rfl⟩ := exists_of_read h
  obtain ⟨rfl, rfl⟩ := sides_unique (htext ▸ htext') hslash hslash'
  have hside (side : List Char) : String.ofList (trim side) ≠ "" ↔ ∃ c ∈ side, isBlank c = false := by
    rw [ne_eq, ← String.toList_eq_nil_iff, String.toList_ofList, Text.trim_eq_nil_iff]
    simp
  rw [hside, hside]
  constructor
  · rintro ⟨hkind, hversion, -⟩
    exact ⟨hkind, hversion⟩
  · rintro ⟨hkind, hversion⟩
    exact ⟨hkind, hversion, read_render_of_canonical (canonical_of_read h ((hside _).2 hkind) ((hside _).2 hversion))⟩

/-- A version may hold slashes, and blank characters inside. -/
theorem read_survives_slashes :
    read " wiki /2.0 / beta\t" = .ok ⟨"wiki", "2.0 / beta"⟩ ∧
      read (render ⟨"wiki", "2.0 / beta"⟩) = .ok ⟨"wiki", "2.0 / beta"⟩ := by
  have hread : read " wiki /2.0 / beta\t" = .ok ⟨"wiki", "2.0 / beta"⟩ := by decide +kernel
  have hsides := (read_survives " wiki /2.0 / beta\t" ⟨"wiki", "2.0 / beta"⟩).1 hread " wiki ".toList
    "2.0 / beta\t".toList rfl (by decide)
  have hwords : (∃ c ∈ " wiki ".toList, isBlank c = false) ∧ ∃ c ∈ "2.0 / beta\t".toList, isBlank c = false :=
    ⟨⟨'w', by decide, by decide⟩, '2', by decide, by decide⟩
  exact ⟨hread, (hsides.2 hwords).2.2⟩

/-- Before the slash stands a blank character only, which is accepted as a type and trimmed to nothing. -/
theorem not_read_survives :
    ¬ ∀ text d, read text = .ok d → d.kind ≠ "" ∧ d.version ≠ "" ∧ read d.render = .ok d := by
  intro h
  have hread : read " /b" = .ok ⟨"", "b"⟩ := by decide +kernel
  exact (h _ _ hread).1 rfl

end Dialect

end MacroDoc
