import MacroDoc.Expansion.Pass
import MacroDoc.Macros.Standard

/-!
# Which calls a macro takes

A macro is run on a call if it may stand where the call does, and if parameters and content of the call are what its
descriptor asks for. The place is looked at first.

* `Descriptor.Admits`, `Descriptor.refusal?_eq_none` : which calls a macro takes, and where;
* `Expander.attempt_eq` : an attempt is a refusal, or what the expander does;
* `Expander.cause_of_attempt`, `Expander.kind_of_attempt` : where a fault comes from, and what kind it is of;
* `Macros.code_message_ne`, `Macros.xhtml_message_ne` : the checks keep calls without content from these macros.
-/

namespace MacroDoc

variable {σ : Type}

/-! ## Descriptors -/

/-- The call has content with a character that is not blank. -/
def Call.HasText (c : Call) : Prop :=
  ∃ content, c.content = some content ∧ ∃ char ∈ content.toList, Text.isBlank char = false

theorem Call.hasContent_iff {c : Call} : c.hasContent = true ↔ c.HasText := by
  unfold hasContent HasText
  cases c.content with
  | none => simp
  | some content => simp [Text.isBlankText]

theorem Parameters.contains_iff {ps : Parameters} {name : String} :
    ps.contains name = true ↔ ∃ value, (name, value) ∈ ps.entries := by
  rw [contains, get?, List.lookup_isSome_iff]
  constructor
  · rintro ⟨⟨other, value⟩, hmem, heq⟩
    exact ⟨value, eq_of_beq heq ▸ hmem⟩
  · rintro ⟨value, hmem⟩
    exact ⟨_, hmem, beq_self_eq_true name⟩

/-- A macro takes a call that stands at a place of this kind. -/
structure Descriptor.Admits (m : Descriptor) (placement : Placement) (call : Call) : Prop where
  place : placement = .block ∨ m.supportsInline = true
  parameters : ∀ p ∈ m.parameters, p.mandatory = true → ∃ value, (p.name, value) ∈ call.parameters.entries
  /-- Content that is mandatory is there. -/
  required : ∀ content, m.content = some content → content.mandatory = true → call.HasText
  /-- There is no content for a macro that takes none. -/
  refused : m.content = none → ¬ call.HasText

namespace Descriptor

variable {m : Descriptor} {placement : Placement} {call : Call} {fault : Fault}

/-- Why a macro does not take a call. Its place is looked at before the call is. -/
def refusal? (m : Descriptor) (placement : Placement) (call : Call) : Option Fault :=
  if placement = .inline ∧ m.supportsInline = false then some (.standaloneInline call.identifier)
  else match m.check call with
    | .error cause => some (.invalidCall cause)
    | .ok () => none

theorem missingParameter?_eq_none : m.missingParameter? call = none ↔
    ∀ p ∈ m.parameters, p.mandatory = true → ∃ value, (p.name, value) ∈ call.parameters.entries := by
  simp [missingParameter?, Parameters.contains_iff]

theorem check_eq_ok : m.check call = .ok () ↔
    m.missingParameter? call = none ∧
      (∀ content, m.content = some content → content.mandatory = true → call.HasText) ∧
      (m.content = none → ¬ call.HasText) := by
  unfold check
  rw [← Call.hasContent_iff]
  cases m.missingParameter? call with
  | some p => simp
  | none =>
    cases m.content with
    | none => cases call.hasContent <;> simp
    | some content => cases content.mandatory <;> cases call.hasContent <;> simp

theorem refusal?_eq_some : m.refusal? placement call = some fault ↔
    (placement = .inline ∧ m.supportsInline = false) ∧ fault = .standaloneInline call.identifier ∨
      ¬ (placement = .inline ∧ m.supportsInline = false) ∧
        ∃ cause, m.check call = .error cause ∧ fault = .invalidCall cause := by
  unfold refusal?
  split
  · next hplace => simp only [hplace, Option.some.injEq, eq_comm, and_self, true_and, not_true, false_and, or_false]
  · next hplace => cases m.check call <;> simp [hplace, eq_comm (a := fault)]

theorem stands_iff : ¬ (placement = .inline ∧ m.supportsInline = false) ↔
    placement = .block ∨ m.supportsInline = true := by
  cases placement <;> simp

theorem refusal?_eq_none : m.refusal? placement call = none ↔ m.Admits placement call := by
  have hrefusal : m.refusal? placement call = none ↔
      ¬ (placement = .inline ∧ m.supportsInline = false) ∧ m.check call = .ok () := by
    unfold refusal?
    split
    · next hinline => simp [hinline]
    · next hstands => cases m.check call <;> simp [hstands]
  rw [hrefusal, stands_iff, check_eq_ok, missingParameter?_eq_none]
  constructor
  · rintro ⟨hstands, hparameters, hrequired, hrefused⟩
    exact ⟨hstands, hparameters, hrequired, hrefused⟩
  · intro hadmits
    exact ⟨hadmits.place, hadmits.parameters, hadmits.required, hadmits.refused⟩

theorem exists_refusal (h : ¬ m.Admits placement call) : ∃ fault, m.refusal? placement call = some fault :=
  Option.ne_none_iff_exists'.1 (mt refusal?_eq_none.1 h)

end Descriptor

/-! ## Attempts -/

namespace Expander

def running (e : Expander σ) (expand : Context → σ → Except String (List Block) × σ) : Expander σ :=
  { e with expand := expand }

variable {e : Expander σ} {context : Context} {state next : σ} {fault : Fault}

theorem attempt_eq (e : Expander σ) (context : Context) (state : σ) :
    e.attempt context state = match e.descriptor.refusal? context.placement context.call with
      | some fault => (.error fault, state)
      | none => ((e.expand context state).1.mapError .failed, (e.expand context state).2) := by
  unfold attempt Descriptor.refusal?
  split
  · rfl
  · cases e.descriptor.check context.call <;> rfl

theorem attempt_of_refusal (h : e.descriptor.refusal? context.placement context.call = some fault) :
    e.attempt context state = (.error fault, state) := by
  rw [attempt_eq, h]

theorem attempt_of_admits (h : e.descriptor.Admits context.placement context.call) :
    e.attempt context state = ((e.expand context state).1.mapError .failed, (e.expand context state).2) := by
  rw [attempt_eq, Descriptor.refusal?_eq_none.2 h]

/-- What an expander does takes no part in an attempt of a call that it does not take. -/
theorem attempt_running (h : ¬ e.descriptor.Admits context.placement context.call)
    (expand : Context → σ → Except String (List Block) × σ) :
    (e.running expand).attempt context state = e.attempt context state := by
  obtain ⟨fault, hfault⟩ := Descriptor.exists_refusal h
  rw [attempt_of_refusal hfault]
  exact attempt_of_refusal hfault

/-- A fault is a refusal, or the error of what the expander does. -/
theorem cause_of_attempt (h : e.attempt context state = (.error fault, next)) :
    e.descriptor.refusal? context.placement context.call = some fault ∧ next = state ∨
      e.descriptor.Admits context.placement context.call ∧
        ∃ message, fault = .failed message ∧ e.expand context state = (.error message, next) := by
  cases hrefusal : e.descriptor.refusal? context.placement context.call with
  | some refusal =>
    rw [attempt_of_refusal hrefusal] at h
    cases h
    exact .inl ⟨rfl, rfl⟩
  | none =>
    have hadmits := Descriptor.refusal?_eq_none.1 hrefusal
    rw [attempt_of_admits hadmits] at h
    rcases hexpand : e.expand context state with ⟨message | blocks, after⟩
    · rw [hexpand] at h
      cases h
      exact .inr ⟨hadmits, message, rfl, rfl⟩
    · rw [hexpand] at h
      cases h

theorem kind_of_attempt (h : e.attempt context state = (.error fault, next)) :
    fault.kind =
      if context.placement = .inline ∧ e.descriptor.supportsInline = false then .placement else .macroExecution := by
  rcases cause_of_attempt h with ⟨hrefusal, -⟩ | ⟨hadmits, message, rfl, -⟩
  · rcases Descriptor.refusal?_eq_some.1 hrefusal with ⟨hplace, rfl⟩ | ⟨hplace, cause, -, rfl⟩
    · rw [if_pos hplace]
      rfl
    · rw [if_neg hplace]
      rfl
  · rw [if_neg (Descriptor.stands_iff.2 hadmits.place)]
    rfl

end Expander

/-! ## The wording of faults -/

theorem head?_toList_append {s : String} {c : Char} (h : s.toList.head? = some c) (t : String) :
    (s ++ t).toList.head? = some c := by
  rw [String.toList_append, List.head?_append, h]
  rfl

theorem head?_toList_append_ne {s : String} {c : Char} (h : s.toList.head? = some c) (hc : c ≠ 'n') (t : String) :
    (s ++ t).toList.head? ≠ some 'n' := by
  rw [head?_toList_append h]
  exact fun heq => hc (Option.some.inj heq)

/-- The wording of a refusal begins with "the" or "missing". -/
theorem Descriptor.head?_message_of_refusal {m : Descriptor} {placement : Placement} {call : Call} {fault : Fault}
    (h : m.refusal? placement call = some fault) : fault.message.toList.head? ≠ some 'n' := by
  rcases refusal?_eq_some.1 h with ⟨-, rfl⟩ | ⟨-, cause, -, rfl⟩
  · exact head?_toList_append_ne (head?_toList_append rfl _) (by decide) _
  · cases cause with
    | missingParameter name => exact head?_toList_append_ne (head?_toList_append rfl _) (by decide) _
    | contentRefused identifier => exact head?_toList_append_ne (head?_toList_append rfl _) (by decide) _
    | contentRequired identifier => exact head?_toList_append_ne (head?_toList_append rfl _) (by decide) _

namespace Macros

/-- The wording of a fault of XHTML begins with "invalid" or "cannot". -/
theorem XhtmlFault.head?_message (fault : XhtmlFault) : fault.message.toList.head? ≠ some 'n' := by
  cases fault with
  | xml fault => exact head?_toList_append_ne rfl (by decide) _
  | tag fault => exact head?_toList_append_ne rfl (by decide) _
  | reference fault => exact head?_toList_append_ne rfl (by decide) _
  | unexpectedEnd name => exact head?_toList_append_ne (head?_toList_append rfl _) (by decide) _
  | unclosed name => exact head?_toList_append_ne (head?_toList_append rfl _) (by decide) _
  | markup errors => exact head?_toList_append_ne rfl (by decide) _

variable {context : Context} {state : σ} {fault : Fault}

/-- The `code` macro is never run on a call without content. -/
theorem code_message_ne (h : ((code : Expander σ).attempt context state).1 = .error fault) :
    fault.message ≠ "no code given" := by
  intro hmessage
  rcases Expander.cause_of_attempt (Prod.ext h rfl) with ⟨hrefusal, -⟩ | ⟨hadmits, message, rfl, hexpand⟩
  · refine Descriptor.head?_message_of_refusal hrefusal ?_
    rw [hmessage]
    rfl
  · obtain ⟨content, hcontent, -⟩ := hadmits.required _ rfl rfl
    have hcode : expandCode context = .error message := congrArg Prod.fst hexpand
    simp only [expandCode, hcontent] at hcode
    cases hcode

theorem xhtml_message_ne (h : ((xhtml : Expander σ).attempt context state).1 = .error fault) :
    fault.message ≠ "no XHTML given" := by
  intro hmessage
  rcases Expander.cause_of_attempt (Prod.ext h rfl) with ⟨hrefusal, -⟩ | ⟨hadmits, message, rfl, hexpand⟩
  · refine Descriptor.head?_message_of_refusal hrefusal ?_
    rw [hmessage]
    rfl
  · obtain ⟨content, hcontent, -⟩ := hadmits.required _ rfl rfl
    have hxhtml : expandXhtml context = .error message := congrArg Prod.fst hexpand
    simp only [expandXhtml, hcontent] at hxhtml
    cases hparse : parseXhtml context.dialect content with
    | ok blocks =>
      rw [hparse] at hxhtml
      cases hxhtml
    | error fault =>
      rw [hparse] at hxhtml
      cases hxhtml
      have hxml : fault.message = "no XHTML given" := hmessage
      refine fault.head?_message ?_
      rw [hxml]
      rfl

end Macros

end MacroDoc
