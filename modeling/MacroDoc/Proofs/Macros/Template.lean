import Mathlib.Data.List.Basic
import Mathlib.Data.List.Infix
import MacroDoc.Macros.Template

/-!
# What a template says

A template says literal texts with placeholders between them, and it says that by itself: which text is literal and
which is the name of a placeholder does not depend on what takes the place of the placeholders.

* `TemplateLayout` : literal texts and the names between them, as they are written;
* `TemplateLayout.Lawful` : every placeholder begins at the first mark there is, and ends at the first closing brace;
* `TemplateLayout.written_inj`, `exists_layout` : a template has exactly one lawful layout;
* `TemplateLayout.filled_congr` : a value counts only where it is named;
* `fillTemplate_literals` : what follows for filled templates.
-/

namespace MacroDoc.Macros

/-! ## Layouts -/

def holeMark : List Char := ['$', '{']

/-- A placeholder, with the literal text in front of it and its name as it is written. -/
structure Hole where
  literal : List Char
  name : List Char

/-- The placeholders of a template, and the literal text after the last one. -/
structure TemplateLayout where
  holes : List Hole
  rest : List Char

def Hole.written (h : Hole) : List Char :=
  h.literal ++ (holeMark ++ (h.name ++ ['}']))

def Hole.key (h : Hole) : String :=
  String.ofList (Text.trim h.name)

namespace TemplateLayout

def written (t : TemplateLayout) : List Char :=
  t.holes.flatMap Hole.written ++ t.rest

def keys (t : TemplateLayout) : List String :=
  t.holes.map Hole.key

/-- The literal texts, with a value in the place of each placeholder. -/
def filled (t : TemplateLayout) (value : String → String) : List Char :=
  t.holes.flatMap (fun h => h.literal ++ (value h.key).toList) ++ t.rest

/-- A placeholder begins at the first mark that opens one and ends at the first closing brace after that. A mark with no
closing brace after it opens nothing. -/
structure Lawful (t : TemplateLayout) : Prop where
  literals : ∀ h ∈ t.holes, ¬ holeMark <:+: h.literal
  names : ∀ h ∈ t.holes, '}' ∉ h.name
  rest : ∀ before after, t.rest = before ++ (holeMark ++ after) → '}' ∉ after

def consHole (h : Hole) (t : TemplateLayout) : TemplateLayout :=
  ⟨h :: t.holes, t.rest⟩

def consChar (c : Char) : TemplateLayout → TemplateLayout
  | ⟨[], rest⟩ => ⟨[], c :: rest⟩
  | ⟨h :: holes, rest⟩ => ⟨⟨c :: h.literal, h.name⟩ :: holes, rest⟩

variable {t : TemplateLayout} {h : Hole} {c : Char}

theorem written_consHole : (t.consHole h).written = h.written ++ t.written := by
  rw [consHole, written, List.flatMap_cons, List.append_assoc, ← written]

theorem filled_consHole (value : String → String) :
    (t.consHole h).filled value = h.literal ++ ((value h.key).toList ++ t.filled value) := by
  rw [consHole, filled, List.flatMap_cons, List.append_assoc, List.append_assoc, ← filled]

theorem written_consChar (c : Char) (t : TemplateLayout) : (t.consChar c).written = c :: t.written := by
  obtain ⟨holes, rest⟩ := t
  cases holes <;> rfl

theorem filled_consChar (c : Char) (t : TemplateLayout) (value : String → String) :
    (t.consChar c).filled value = c :: t.filled value := by
  obtain ⟨holes, rest⟩ := t
  cases holes <;> rfl

theorem lawful_consHole_iff :
    (t.consHole h).Lawful ↔ ¬ holeMark <:+: h.literal ∧ '}' ∉ h.name ∧ t.Lawful := by
  constructor
  · rintro ⟨hliterals, hnames, hrest⟩
    obtain ⟨hliteral, hliterals⟩ := List.forall_mem_cons.1 hliterals
    obtain ⟨hname, hnames⟩ := List.forall_mem_cons.1 hnames
    exact ⟨hliteral, hname, hliterals, hnames, hrest⟩
  · rintro ⟨hliteral, hname, hliterals, hnames, hrest⟩
    exact ⟨List.forall_mem_cons.2 ⟨hliteral, hliterals⟩, List.forall_mem_cons.2 ⟨hname, hnames⟩, hrest⟩

theorem Lawful.consChar (ht : t.Lawful) (hc : ¬ holeMark <+: c :: t.written) : (t.consChar c).Lawful := by
  obtain ⟨holes, rest⟩ := t
  cases holes with
  | nil =>
    refine ⟨List.forall_mem_nil _, List.forall_mem_nil _, fun before after heq => ?_⟩
    cases before with
    | nil => exact absurd ⟨after, heq.symm⟩ hc
    | cons d before => exact ht.rest before after (List.cons.inj heq).2
  | cons h holes =>
    obtain ⟨hliteral, hname, htail⟩ := lawful_consHole_iff (t := ⟨holes, rest⟩).1 ht
    have hliteral' : ¬ holeMark <:+: c :: h.literal := by
      rw [List.infix_cons_iff]
      rintro (hstart | hinside)
      · refine hc (hstart.trans ?_)
        rw [written, List.flatMap_cons, Hole.written, List.append_assoc, List.append_assoc, ← List.cons_append]
        exact List.prefix_append _ _
      · exact hliteral hinside
    exact lawful_consHole_iff (t := ⟨holes, rest⟩).2 ⟨hliteral', hname, htail⟩

/-! ## One layout for a template -/

/-- Two placeholders cannot begin at different places. -/
theorem eq_nil_of_holeMark_append {m x y : List Char} (hm : ¬ holeMark <:+: m)
    (heq : holeMark ++ x = m ++ (holeMark ++ y)) : m = [] := by
  match m, heq with
  | [], _ => rfl
  | [d], heq =>
    obtain ⟨rfl, hsecond⟩ := List.cons.inj heq
    exact absurd (List.cons.inj hsecond).1 (by decide)
  | d :: e :: m, heq =>
    obtain ⟨rfl, hsecond⟩ := List.cons.inj heq
    obtain ⟨rfl, -⟩ := List.cons.inj hsecond
    exact absurd (List.prefix_append holeMark m).isInfix hm

theorem eq_of_append_holeMark {l l' x x' : List Char} (hl : ¬ holeMark <:+: l) (hl' : ¬ holeMark <:+: l')
    (heq : l ++ (holeMark ++ x) = l' ++ (holeMark ++ x')) : l = l' ∧ x = x' := by
  have hl_eq : l = l' := by
    rcases List.append_eq_append_iff.1 heq with ⟨m, rfl, hm⟩ | ⟨m, rfl, hm⟩
    · rw [eq_nil_of_holeMark_append (fun h => hl' (h.trans (List.suffix_append l m).isInfix)) hm, List.append_nil]
    · rw [eq_nil_of_holeMark_append (fun h => hl (h.trans (List.suffix_append l' m).isInfix)) hm, List.append_nil]
  subst hl_eq
  exact ⟨rfl, List.append_cancel_left (List.append_cancel_left heq)⟩

theorem written_hole_append (h : Hole) (after : List Char) :
    h.written ++ after = h.literal ++ (holeMark ++ (h.name ++ '}' :: after)) := by
  simp only [Hole.written, List.append_assoc, List.singleton_append]

/-- A template has at most one lawful layout. -/
theorem written_inj {s t : TemplateLayout} (hs : s.Lawful) (ht : t.Lawful) (heq : s.written = t.written) : s = t := by
  obtain ⟨holes, rest⟩ := s
  obtain ⟨holes', rest'⟩ := t
  -- what is literal to the end in one layout cannot hold the placeholder that the other one begins with
  have hclash {h : Hole} {t : TemplateLayout} {rest : List Char} (hlaw : Lawful ⟨[], rest⟩)
      (heq : rest = (t.consHole h).written) : False := by
    rw [written_consHole, written_hole_append] at heq
    exact hlaw.rest _ _ heq (by simp)
  induction holes generalizing holes' with
  | nil =>
    cases holes' with
    | nil => rw [show rest = rest' from heq]
    | cons h' holes' => exact (hclash (t := ⟨holes', rest'⟩) hs heq).elim
  | cons h holes ih =>
    cases holes' with
    | nil => exact (hclash (t := ⟨holes, rest⟩) ht heq.symm).elim
    | cons h' holes' =>
      obtain ⟨hliteral, hname, hs⟩ := lawful_consHole_iff (t := ⟨holes, rest⟩).1 hs
      obtain ⟨hliteral', hname', ht⟩ := lawful_consHole_iff (t := ⟨holes', rest'⟩).1 ht
      have heq' : (consHole h ⟨holes, rest⟩).written = (consHole h' ⟨holes', rest'⟩).written := heq
      rw [written_consHole, written_consHole, written_hole_append, written_hole_append] at heq'
      obtain ⟨hliterals, hafter⟩ := eq_of_append_holeMark hliteral hliteral' heq'
      have hcuts := congrArg (Text.splitOnce? '}') hafter
      rw [Text.splitOnce?_append_cons hname, Text.splitOnce?_append_cons hname'] at hcuts
      obtain ⟨hnames, hwritten⟩ := Prod.mk.inj (Option.some.inj hcuts)
      obtain ⟨rfl, rfl⟩ := TemplateLayout.mk.inj (ih hs holes' ht hwritten)
      obtain ⟨literal, name⟩ := h
      obtain ⟨literal', name'⟩ := h'
      obtain ⟨rfl, rfl⟩ : literal = literal' ∧ name = name' := ⟨hliterals, hnames⟩
      rfl

/-- What takes the place of other placeholders makes no difference. -/
theorem filled_congr {value value' : String → String} (heq : ∀ key ∈ t.keys, value key = value' key) :
    t.filled value = t.filled value' := by
  rw [filled, filled]
  congr 1
  refine List.flatMap_congr fun h hmem => ?_
  rw [heq h.key (List.mem_map_of_mem hmem)]

end TemplateLayout

/-! ## Filling -/

/-- What takes the place of a placeholder: the content of the call for `content`, otherwise the parameter of that name;
nothing, if there is none. -/
def insertedText (parameters : Parameters) (content : Option String) (key : String) : String :=
  if key = "content" then content.getD "" else (parameters.get? key).getD ""

theorem fill_placeholder (parameters : Parameters) (content : Option String) (name : List Char) :
    TemplatePart.fill parameters content (.placeholder name)
      = (insertedText parameters content (String.ofList name)).toList := by
  rw [TemplatePart.fill, insertedText]
  by_cases hname : name = "content".toList
  · rw [if_pos hname, if_pos (by rw [hname, String.ofList_toList])]
  · rw [if_neg hname, if_neg fun h => hname (by rw [← h, String.toList_ofList])]

theorem flatMap_fill_consLiteral (parameters : Parameters) (content : Option String) (c : Char)
    (parts : List TemplatePart) :
    (consLiteral c parts).flatMap (TemplatePart.fill parameters content)
      = c :: parts.flatMap (TemplatePart.fill parameters content) := by
  unfold consLiteral
  split <;> simp [TemplatePart.fill]

/-- Every template has a lawful layout, and filling it puts values in the place of its placeholders. -/
theorem exists_layout (template : List Char) :
    ∃ t : TemplateLayout, t.Lawful ∧ t.written = template ∧
      ∀ parameters content, fillTemplate template parameters content = t.filled (insertedText parameters content) := by
  induction template using templateParts.induct with
  | case1 rest name after hcut _ ih =>
    obtain ⟨t, hlawful, hwritten, hfilled⟩ := ih
    have hname := Text.not_mem_of_splitOnce? hcut
    have hinside : ¬ holeMark <:+: [] := by decide
    refine ⟨t.consHole ⟨[], name⟩, TemplateLayout.lawful_consHole_iff.2 ⟨hinside, hname, hlawful⟩, ?_, ?_⟩
    · rw [TemplateLayout.written_consHole, TemplateLayout.written_hole_append, hwritten,
        Text.eq_append_of_splitOnce? hcut]
      rfl
    · intro parameters content
      have hparts : templateParts ('$' :: '{' :: rest) = .placeholder (Text.trim name) :: templateParts after := by
        rw [templateParts]
        split <;> simp_all
      rw [fillTemplate, hparts, List.flatMap_cons, fill_placeholder, ← fillTemplate, hfilled,
        TemplateLayout.filled_consHole]
      rfl
  | case2 rest hcut =>
    have hbrace : '}' ∉ rest := Text.splitOnce?_eq_none_iff.1 hcut
    refine ⟨⟨[], '$' :: '{' :: rest⟩, ⟨List.forall_mem_nil _, List.forall_mem_nil _, ?_⟩, rfl, ?_⟩
    · intro before after heq hmem
      have hmem' : '}' ∈ '$' :: '{' :: rest := by
        rw [show '$' :: '{' :: rest = before ++ (holeMark ++ after) from heq]
        exact List.mem_append_right _ (List.mem_append_right _ hmem)
      exact hbrace (by simpa using hmem')
    · intro parameters content
      have hparts : templateParts ('$' :: '{' :: rest) = [.literal ('$' :: '{' :: rest)] := by
        rw [templateParts]
        split <;> simp_all
      rw [fillTemplate, hparts, List.flatMap_singleton]
      rfl
  | case3 c rest hopen ih =>
    obtain ⟨t, hlawful, hwritten, hfilled⟩ := ih
    have hc : ¬ holeMark <+: c :: t.written := by
      rintro ⟨after, heq⟩
      obtain ⟨rfl, hrest⟩ := List.cons.inj heq
      exact hopen after rfl (by rw [← hwritten, ← hrest]; rfl)
    refine ⟨t.consChar c, hlawful.consChar hc, by rw [TemplateLayout.written_consChar, hwritten], ?_⟩
    intro parameters content
    have hparts : templateParts (c :: rest) = consLiteral c (templateParts rest) := by
      rw [templateParts]
      exact hopen
    rw [fillTemplate, hparts, flatMap_fill_consLiteral, ← fillTemplate, hfilled, TemplateLayout.filled_consChar]
  | case4 =>
    refine ⟨⟨[], []⟩, ⟨List.forall_mem_nil _, List.forall_mem_nil _, ?_⟩, rfl, fun parameters content => ?_⟩
    · intro before after heq
      exact absurd heq.symm (by simp [holeMark])
    · rw [fillTemplate, templateParts]
      rfl

/-- A template is literal texts and placeholders in one way only, and to fill it is to put a value in the place of each
placeholder: all else is as it was, whatever the values look like. Parameters that no placeholder names, and content
that none asks for, make no difference. -/
theorem fillTemplate_literals (template : List Char) :
    ∃ t : TemplateLayout, t.Lawful ∧ t.written = template
      ∧ (∀ t' : TemplateLayout, t'.Lawful → t'.written = template → t' = t)
      ∧ (∀ parameters content, fillTemplate template parameters content = t.filled (insertedText parameters content))
      ∧ ∀ parameters parameters' content content',
        (∀ key ∈ t.keys, key ≠ "content" → parameters.get? key = parameters'.get? key) →
        ("content" ∈ t.keys → content = content') →
        fillTemplate template parameters content = fillTemplate template parameters' content' := by
  obtain ⟨t, hlawful, hwritten, hfilled⟩ := exists_layout template
  refine ⟨t, hlawful, hwritten, fun t' hlawful' hwritten' => ?_, hfilled, ?_⟩
  · exact TemplateLayout.written_inj hlawful' hlawful (hwritten'.trans hwritten.symm)
  · intro parameters parameters' content content' hparameters hcontent
    rw [hfilled, hfilled]
    refine TemplateLayout.filled_congr fun key hkey => ?_
    rw [insertedText, insertedText]
    split
    · next heq => rw [hcontent (heq ▸ hkey)]
    · next hne => rw [hparameters key hkey hne]

/-- A value that looks like a placeholder itself, and a mark at the end that opens none. -/
theorem fillTemplate_literals_nested :
    let template := "$$\x7b a \x7d$\x7b".toList
    let layout : TemplateLayout := ⟨[⟨['$'], " a ".toList⟩], "$\x7b".toList⟩
    let parameters (b : String) := Parameters.ofList [("a", "$\x7bb\x7d"), ("b", b)]
    layout.Lawful ∧ layout.written = template ∧ fillTemplate template (parameters "1") none = "$$\x7bb\x7d$\x7b".toList
      ∧ fillTemplate template (parameters "1") none = fillTemplate template (parameters "2") (some "x") := by
  intro template layout parameters
  obtain ⟨t, -, -, hunique, hfilled, hsame⟩ := fillTemplate_literals template
  have hlawful : layout.Lawful := by
    refine ⟨by decide, by decide, fun before after heq hmem => ?_⟩
    have hmem' : '}' ∈ layout.rest := by
      rw [heq]
      exact List.mem_append_right _ (List.mem_append_right _ hmem)
    exact absurd hmem' (by decide)
  obtain rfl : layout = t := hunique layout hlawful (by decide)
  refine ⟨hlawful, by decide, ?_, hsame _ _ _ _ ?_ ?_⟩
  · rw [hfilled]
    decide +kernel
  · decide +kernel
  · decide +kernel

end MacroDoc.Macros
