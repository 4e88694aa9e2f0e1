import Mathlib.Data.List.Chain
import MacroDoc.Proofs.Call.Tag

/-!
# Layouts of a tag

A tag can be laid out in many ways: any blank characters may stand between its parameters, and a value may be written
between quotes, with a backslash before any of its characters, or bare. All layouts of a tag are read as the same tag.

* `ValueLayout`, `ParameterLayout`, `TagLayout` : how a tag is written, part by part;
* `TagLayout.WellFormed` : the rules of writing;
* `ValueLayout.readValue_append` : a value is read up to what may stand after it;
* `Parameters.get?_ofList` : of a repeated name the last value counts;
* `TagLayout.readOpenTag_written` : a tag that is well laid out is read, whatever comes after it.
-/

namespace MacroDoc

open Call (openMark closeMark selfCloseMark)

/-! ## Layouts -/

/-- How a value is written: between quotes, where a backslash may stand before a character, or bare. -/
inductive ValueLayout where
  | quoted (chars : List (Char × Bool))
  | bare (chars : List Char)
  deriving DecidableEq

/-- A parameter with the blank characters before it. -/
structure ParameterLayout where
  blanks : List Char
  key : String
  value : ValueLayout
  deriving DecidableEq

/-- A tag, with the blank characters before its end mark. -/
structure TagLayout where
  identifier : String
  parameters : List ParameterLayout
  blanks : List Char
  selfClosing : Bool
  deriving DecidableEq

def writtenQuoted (chars : List (Char × Bool)) : List Char :=
  chars.flatMap fun (c, escaped) => if escaped then ['\\', c] else [c]

namespace ValueLayout

def value : ValueLayout → List Char
  | quoted chars => chars.map Prod.fst
  | bare chars => chars

def written : ValueLayout → List Char
  | quoted chars => '"' :: (writtenQuoted chars ++ ['"'])
  | bare chars => chars

def isBare : ValueLayout → Bool
  | quoted _ => false
  | bare _ => true

/-- Between quotes, a quote or a backslash has a backslash before it. A bare value has no blank character and no closing
brace, and does not begin with a quote. -/
def Allowed : ValueLayout → Prop
  | quoted chars => ∀ p ∈ chars, p.1 = '"' ∨ p.1 = '\\' → p.2 = true
  | bare chars => (∀ c ∈ chars, Text.isBlank c = false ∧ c ≠ '}') ∧ ∀ c ∈ chars.head?, c ≠ '"'

theorem allowed_quoted_iff {chars : List (Char × Bool)} :
    (quoted chars).Allowed ↔ chars.all (fun (c, escaped) => escaped || c != '"' && c != '\\') := by
  rw [Allowed, List.all_eq_true]
  refine forall₂_congr fun ⟨c, escaped⟩ _ => ?_
  cases escaped <;> simp

theorem allowed_bare_iff {chars : List Char} :
    (bare chars).Allowed ↔ chars.all (fun c => !Text.isBlank c && c != '}') && chars.head? != some '"' := by
  rw [Allowed, Bool.and_eq_true, List.all_eq_true]
  refine and_congr (forall₂_congr fun c _ => by simp) ?_
  cases chars <;> simp

instance : (v : ValueLayout) → Decidable v.Allowed
  | quoted _ => decidable_of_iff _ allowed_quoted_iff.symm
  | bare _ => decidable_of_iff _ allowed_bare_iff.symm

end ValueLayout

def ParameterLayout.written (p : ParameterLayout) : List Char :=
  p.blanks ++ (p.key.toList ++ '=' :: p.value.written)

namespace TagLayout

variable (t : TagLayout)

/-- What stands after the identifier. -/
def writtenTail (t : TagLayout) : List Char :=
  t.parameters.flatMap ParameterLayout.written ++ (t.blanks ++ endMark t.selfClosing)

def written : List Char :=
  openMark ++ (t.identifier.toList ++ t.writtenTail)

/-- The parameters of the tag in the order in which they are written. -/
def pairs : List (String × String) :=
  t.parameters.map fun p => (p.key, String.ofList p.value.value)

/-- The rules of writing what stands after the identifier. Names are made of identifier characters. Blank characters
must stand before a name that comes after a bare value. A bare value right before two closing braces does not end with a
slash, which would be taken for a part of the end mark. -/
structure WellFormedTail : Prop where
  keys : ∀ p ∈ t.parameters, IsName p.key
  values : ∀ p ∈ t.parameters, p.value.Allowed
  blanks : ∀ p ∈ t.parameters, ∀ c ∈ p.blanks, Text.isBlank c
  lastBlanks : ∀ c ∈ t.blanks, Text.isBlank c
  apart : t.parameters.IsChain fun p q => p.value.isBare → q.blanks ≠ []
  last : ∀ p ∈ t.parameters.getLast?, p.value.isBare → t.blanks = [] → t.selfClosing = false →
    p.value.written.getLast? ≠ some '/'

/-- The rules of writing a tag. Blank characters must stand before the first parameter as well. -/
structure WellFormed : Prop extends t.WellFormedTail where
  identifier : IsName t.identifier
  first : ∀ p ∈ t.parameters.head?, p.blanks ≠ []

end TagLayout

/-! ## Values -/

theorem readQuoted_writtenQuoted {chars : List (Char × Bool)} (hchars : (ValueLayout.quoted chars).Allowed)
    (after : List Char) : readQuoted (writtenQuoted chars ++ '"' :: after) = some (chars.map Prod.fst, after) := by
  induction chars with
  | nil => simp [writtenQuoted, readQuoted]
  | cons p chars ih =>
    obtain ⟨c, escaped⟩ := p
    obtain ⟨hc, hrest⟩ := List.forall_mem_cons.1 hchars
    have hcons : writtenQuoted ((c, escaped) :: chars) = (if escaped then ['\\', c] else [c]) ++ writtenQuoted chars :=
      List.flatMap_cons ..
    rw [hcons, List.append_assoc]
    cases escaped with
    | true =>
      rw [if_pos rfl, List.cons_append, List.cons_append, List.nil_append, readQuoted, ih hrest]
      rfl
    | false =>
      obtain ⟨hend, hescape⟩ : c ≠ '"' ∧ c ≠ '\\' := not_or.1 fun h => Bool.false_ne_true (hc h)
      rw [if_neg Bool.false_ne_true, List.cons_append, List.nil_append, readQuoted_cons hescape hend, ih hrest]
      rfl

/-- A bare value goes up to a text that ends it, if it does not make the mark of a self-closing tag with it. -/
theorem readBare_append_of_endsBare {chars after : List Char} (hchars : ∀ c ∈ chars, Text.isBlank c = false ∧ c ≠ '}')
    (hafter : endsBare after) (hslash : closeMark <+: after → chars.getLast? ≠ some '/') :
    readBare (chars ++ after) = (chars, after) := by
  induction chars with
  | nil => exact readBare_of_endsBare hafter
  | cons c chars ih =>
    obtain ⟨⟨hblank, hbrace⟩, hchars⟩ := List.forall_mem_cons.1 hchars
    have hmark : ¬ selfCloseMark <+: c :: (chars ++ after) := by
      intro h
      obtain ⟨hc, hclose⟩ := List.cons_prefix_cons.1 h
      cases chars with
      | nil => exact hslash hclose (hc ▸ rfl)
      | cons d chars => exact (hchars d List.mem_cons_self).2 (List.cons_prefix_cons.1 hclose).1.symm
    have hends : endsBare (c :: (chars ++ after)) = false := by
      have hmark' : selfCloseMark.isPrefixOf (c :: (chars ++ after)) = false := by
        rwa [← Bool.not_eq_true, List.isPrefixOf_iff_prefix]
      simp only [endsBare, hblank, hmark', beq_eq_false_iff_ne.2 hbrace, Bool.or_self]
    have hslash' : closeMark <+: after → chars.getLast? ≠ some '/' := by
      intro hclose hlast
      refine hslash hclose ?_
      rw [List.getLast?_cons, hlast]
      rfl
    rw [List.cons_append, readBare_cons hends, ih hchars hslash']

/-- What may stand after a value: after a value between quotes anything, after a bare one what ends it. -/
def ValueLayout.GoesBefore (v : ValueLayout) (after : List Char) : Prop :=
  v.isBare → endsBare after ∧ (closeMark <+: after → v.written.getLast? ≠ some '/')

theorem ValueLayout.readValue_append {v : ValueLayout} {after : List Char} (hv : v.Allowed) (h : v.GoesBefore after) :
    readValue (v.written ++ after) = some (v.value, after) := by
  cases v with
  | quoted chars =>
    rw [written, List.cons_append, List.append_assoc]
    exact readQuoted_writtenQuoted hv after
  | bare chars =>
    obtain ⟨hchars, hhead⟩ := hv
    obtain ⟨hafter, hslash⟩ := h rfl
    have hquote : ∀ quoted, chars ++ after ≠ '"' :: quoted := by
      intro quoted heq
      cases chars with
      | nil =>
        rw [List.nil_append] at heq
        have hends : endsBare ('"' :: quoted) = false := by simp [endsBare, selfCloseMark, List.isPrefixOf]; decide
        rw [heq, hends] at hafter
        exact Bool.false_ne_true hafter
      | cons c chars => exact hhead c rfl (List.cons.inj heq).1
    rw [written, readValue_eq_readBare hquote, readBare_append_of_endsBare hchars hafter hslash]
    rfl

/-! ## Parameters -/

theorem lookup_cons_eq_ite (name value other : String) (l : List (String × String)) :
    ((name, value) :: l).lookup other = if other = name then some value else l.lookup other := by
  by_cases h : other = name
  · simp [h]
  · simp [List.lookup_cons, h, beq_eq_false_iff_ne.2 h]

theorem lookup_insertSorted (name value other : String) (l : List (String × String)) :
    (insertSorted name value l).lookup other = if other = name then some value else l.lookup other := by
  induction l with
  | nil => exact lookup_cons_eq_ite name value other []
  | cons p l ih =>
    obtain ⟨n, v⟩ := p
    rw [insertSorted]
    split
    · rw [lookup_cons_eq_ite name]
    split
    · next heq =>
      subst heq
      rw [lookup_cons_eq_ite, lookup_cons_eq_ite]
      split <;> rfl
    · next hne =>
      rw [lookup_cons_eq_ite, lookup_cons_eq_ite n, ih]
      by_cases hother : other = n
      · rw [if_pos hother, if_neg (hother ▸ Ne.symm hne), if_pos hother]
      · rw [if_neg hother, if_neg hother]

/-- Of the values that a name is given one after the other, the last one counts. -/
theorem Parameters.get?_ofList (pairs : List (String × String)) (name : String) :
    (Parameters.ofList pairs).get? name = pairs.reverse.lookup name := by
  induction pairs using List.reverseRecOn with
  | nil => rfl
  | append_singleton pairs pair ih =>
    obtain ⟨n, v⟩ := pair
    have hinsert : Parameters.ofList (pairs ++ [(n, v)]) = (Parameters.ofList pairs).insert n v :=
      List.foldl_append
    rw [hinsert, Parameters.get?, Parameters.insert, lookup_insertSorted, List.reverse_concat, lookup_cons_eq_ite, ← ih]
    rfl

/-! ## Tags -/

theorem isIdentifierChar_of_endsBare {c : Char} {rest : List Char} (h : endsBare (c :: rest)) :
    isIdentifierChar c = false := by
  simp only [endsBare, Bool.or_eq_true, beq_iff_eq, List.isPrefixOf_iff_prefix] at h
  rcases h with (hblank | rfl) | hmark
  · exact isIdentifierChar_of_isBlank hblank
  · decide
  · obtain rfl : '/' = c := (List.cons_prefix_cons.1 hmark).1
    decide

theorem endsBare_of_blanks {blanks : List Char} (after : List Char) (hblanks : ∀ c ∈ blanks, Text.isBlank c) (hne : blanks ≠ []) :
    endsBare (blanks ++ after) ∧ ¬ closeMark <+: blanks ++ after := by
  obtain ⟨c, blanks, rfl⟩ := List.exists_cons_of_ne_nil hne
  have hc := hblanks c List.mem_cons_self
  refine ⟨by simp [endsBare, hc], fun h => ?_⟩
  obtain rfl : '}' = c := (List.cons_prefix_cons.1 h).1
  exact absurd hc (by decide)

namespace TagLayout

variable {t : TagLayout} {p : ParameterLayout} {ps : List ParameterLayout}

theorem writtenTail_nil (h : t.parameters = []) : t.writtenTail = t.blanks ++ endMark t.selfClosing := by
  rw [writtenTail, h]
  rfl

theorem writtenTail_cons (h : t.parameters = p :: ps) :
    t.writtenTail = p.written ++ { t with parameters := ps }.writtenTail := by
  rw [writtenTail, h, List.flatMap_cons, List.append_assoc]
  rfl

theorem WellFormedTail.tail (h : t.WellFormedTail) (hparameters : t.parameters = p :: ps) :
    { t with parameters := ps }.WellFormedTail where
  keys q hq := h.keys q (hparameters ▸ List.mem_cons_of_mem p hq)
  values q hq := h.values q (hparameters ▸ List.mem_cons_of_mem p hq)
  blanks q hq := h.blanks q (hparameters ▸ List.mem_cons_of_mem p hq)
  lastBlanks := h.lastBlanks
  apart := (List.isChain_cons.1 (hparameters ▸ h.apart)).2
  last q hq := by
    refine h.last q ?_
    rw [hparameters, List.getLast?_cons, Option.mem_def.1 hq]
    rfl

/-- What begins with blank characters or with the end mark ends a bare value, and only one end mark can be taken for a part
of another. -/
theorem WellFormedTail.endsBare (h : t.WellFormedTail) (hfirst : ∀ p ∈ t.parameters.head?, p.blanks ≠ []) :
    endsBare t.writtenTail
      ∧ (closeMark <+: t.writtenTail → t.parameters = [] ∧ t.blanks = [] ∧ t.selfClosing = false) := by
  cases hps : t.parameters with
  | cons p ps =>
    have hne : p.blanks ≠ [] := hfirst p (by rw [hps]; rfl)
    have hblanks := h.blanks p (hps ▸ List.mem_cons_self)
    rw [writtenTail_cons hps, ParameterLayout.written, List.append_assoc]
    obtain ⟨hends, hclose⟩ := endsBare_of_blanks (p.key.toList ++ '=' :: p.value.written ++
      { t with parameters := ps }.writtenTail) hblanks hne
    exact ⟨hends, fun hmark => absurd hmark hclose⟩
  | nil =>
    rw [writtenTail_nil hps]
    by_cases hne : t.blanks = []
    · rw [hne, List.nil_append]
      cases t.selfClosing with
      | true => exact ⟨rfl, fun hclose => absurd hclose (by decide)⟩
      | false => exact ⟨rfl, fun _ => ⟨rfl, rfl, rfl⟩⟩
    · obtain ⟨hends, hclose⟩ := endsBare_of_blanks (endMark t.selfClosing) h.lastBlanks hne
      exact ⟨hends, fun hmark => absurd hmark hclose⟩

theorem WellFormedTail.goesBefore (h : t.WellFormedTail) (hps : t.parameters = p :: ps) :
    p.value.GoesBefore { t with parameters := ps }.writtenTail := by
  intro hbare
  have hchain := h.apart
  rw [hps] at hchain
  have hfirst : ∀ q ∈ ps.head?, q.blanks ≠ [] := fun q hq => (List.isChain_cons.1 hchain).1 q hq hbare
  obtain ⟨hends, hclose⟩ := (h.tail hps).endsBare hfirst
  refine ⟨hends, fun hmark => ?_⟩
  obtain ⟨rfl, hblanks, hself⟩ := hclose hmark
  exact h.last p (by rw [hps]; rfl) hbare hblanks hself

theorem WellFormedTail.tagTail (h : t.WellFormedTail) (parameters : Parameters) :
    TagTail parameters t.writtenTail t.selfClosing
      (t.pairs.foldl (fun ps (name, value) => ps.insert name value) parameters) := by
  induction hps : t.parameters generalizing t parameters with
  | nil =>
    rw [writtenTail_nil hps, pairs, hps]
    exact .done parameters t.selfClosing h.lastBlanks
  | cons p ps ih =>
    have hmem : p ∈ t.parameters := by simp [hps]
    have hkey := h.keys p hmem
    have hvalue := ValueLayout.readValue_append (h.values p hmem) (h.goesBefore hps)
    have htail := ih (h.tail hps) (parameters.insert p.key (String.ofList p.value.value)) rfl
    rw [← @String.ofList_toList p.key] at htail
    have hparameter := TagTail.parameter (h.blanks p hmem) hkey.2 hkey.toList_ne_nil hvalue htail
    rw [String.ofList_toList] at hparameter
    rw [writtenTail_cons hps, pairs, hps]
    simpa [ParameterLayout.written, pairs] using hparameter

theorem WellFormed.isTag (h : t.WellFormed) :
    IsTag t.written ⟨t.identifier, .ofList t.pairs, t.selfClosing, t.written.length⟩ := by
  have hends : ∀ c ∈ t.writtenTail.head?, isIdentifierChar c = false := by
    intro c hc
    obtain ⟨rest, hrest⟩ := List.head?_eq_some_iff.1 hc
    have hbare := (h.toWellFormedTail.endsBare h.first).1
    rw [hrest] at hbare
    exact isIdentifierChar_of_endsBare hbare
  have htag := IsTag.intro h.identifier.2 h.identifier.toList_ne_nil hends (h.tagTail .empty)
  rw [String.ofList_toList] at htag
  exact htag

/-- Every layout of a tag is read as the tag, whatever text comes after it: its identifier, its parameters set one after
the other, so that the last value of a name counts, whether it closes itself, and how many bytes it has. -/
theorem readOpenTag_written (t : TagLayout) (h : t.WellFormed) (after : List Char) :
    ∃ tag, readOpenTag (t.written ++ after) = .ok (some tag)
      ∧ tag.identifier = t.identifier
      ∧ tag.parameters = .ofList t.pairs
      ∧ (∀ name, tag.parameters.get? name = t.pairs.reverse.lookup name)
      ∧ tag.selfClosing = t.selfClosing
      ∧ Text.byteLength ((t.written ++ after).take tag.length) = Text.byteLength t.written :=
  ⟨_, h.isTag.readOpenTag_append after, rfl, rfl, Parameters.get?_ofList t.pairs, rfl, by rw [List.take_left]⟩

/-- Two blank characters before a value between quotes that holds braces, no blank character after it, bare values that
hold a quote and an equals sign and end with a slash, and a name that is set twice. -/
theorem readOpenTag_written_mixed :
    let title : ValueLayout := .quoted [('a', true), ('"', true), ('}', false), ('}', false), ('\\', true)]
    let t : TagLayout := ⟨"b.x", [⟨['\u2003', '\n'], "title", title⟩, ⟨[], "k", .bare ['a', '/', '"', '=']⟩,
      ⟨[' '], "k", .bare ['é', '/']⟩], [], true⟩
    t.WellFormed
      ∧ t.written = "\x7b\x7bb.x\u2003\ntitle=\"\\a\\\"\x7d\x7d\\\\\"k=a/\"= k=é//\x7d\x7d".toList
      ∧ ∃ tag, readOpenTag (t.written ++ "\x7d\x7d \"".toList) = .ok (some tag)
        ∧ tag.parameters.get? "title" = some "a\"\x7d\x7d\\" ∧ tag.parameters.get? "k" = some "é/"
        ∧ tag.selfClosing = true := by
  intro title t
  have hblanks : t.parameters.all fun p => Text.isBlankText p.blanks := by decide
  have h : t.WellFormed :=
    { keys := by decide +kernel
      values := by decide +kernel
      blanks := fun p hp => List.all_eq_true.1 (List.all_eq_true.1 hblanks p hp)
      lastBlanks := nofun
      apart := by decide +kernel
      last := by decide +kernel
      identifier := by decide +kernel
      first := by decide +kernel }
  obtain ⟨tag, hread, -, -, hget, hself, -⟩ := readOpenTag_written t h "\x7d\x7d \"".toList
  refine ⟨h, by decide +kernel, tag, hread, ?_, ?_, hself⟩
  · rw [hget]
    decide +kernel
  · rw [hget]
    decide +kernel

end TagLayout

end MacroDoc
