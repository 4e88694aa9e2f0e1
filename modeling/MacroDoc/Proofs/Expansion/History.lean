import Mathlib.Data.List.Induction
import MacroDoc.Expansion.Registry

/-!
# The history of a registry

A registry is filled by registrations one after the other, and it answers by the last one that concerns the question.
A registration for a dialect comes before one for all dialects, whichever was made first.

* `Registration`, `Registry.recordAll` : registrations, and a registry after some of them;
* `Registry.answer_recordAll` : an answer by the last registration that concerns it;
* `Registry.mem_identifiers_recordAll`, `Registry.pairwise_identifiers` : its identifiers;
* `Registry.ofHistory_answers` : the same for a registry that was empty at first.
-/

namespace MacroDoc

variable {σ : Type}

/-- A registration of an expander, for one dialect or for all of them. -/
inductive Registration (σ : Type) where
  | forDialect (identifier : String) (dialect : Dialect) (expander : Expander σ)
  | forAll (identifier : String) (expander : Expander σ)

namespace Registration

def identifier : Registration σ → String
  | forDialect i _ _ => i
  | forAll i _ => i

/-- The expander that is registered for an identifier and one dialect, if that is what is done. -/
def specific? (identifier : String) (dialect : Dialect) : Registration σ → Option (Expander σ)
  | forDialect i d expander => if identifier = i ∧ dialect = d then some expander else none
  | forAll _ _ => none

def general? (identifier : String) : Registration σ → Option (Expander σ)
  | forDialect _ _ _ => none
  | forAll i expander => if identifier = i then some expander else none

end Registration

/-! ## Identifiers in order -/

theorem mem_insertIdentifier {identifier new : String} {l : List String} :
    identifier ∈ insertIdentifier new l ↔ identifier = new ∨ identifier ∈ l := by
  induction l with
  | nil => exact List.mem_cons
  | cons other rest ih =>
    rw [insertIdentifier]
    split
    · exact List.mem_cons
    split
    · next heq => rw [heq, List.mem_cons, or_self_left]
    · rw [List.mem_cons, ih, List.mem_cons, or_left_comm]

theorem pairwise_insertIdentifier {l : List String} (h : l.Pairwise (· < ·)) (new : String) :
    (insertIdentifier new l).Pairwise (· < ·) := by
  induction l with
  | nil => exact List.pairwise_singleton _ _
  | cons other rest ih =>
    obtain ⟨hother, hrest⟩ := List.pairwise_cons.1 h
    rw [insertIdentifier]
    split
    · next hlt =>
      refine List.pairwise_cons.2 ⟨List.forall_mem_cons.2 ⟨hlt, fun i hi => ?_⟩, h⟩
      exact String.lt_trans hlt (hother i hi)
    · next hge =>
      split
      · exact h
      · next hne =>
        refine List.pairwise_cons.2 ⟨fun i hi => ?_, ih hrest⟩
        rcases mem_insertIdentifier.1 hi with rfl | hi
        · exact Std.lt_of_le_of_ne (String.not_lt.1 hge) (Ne.symm hne)
        · exact hother i hi

namespace Registry

variable {r : Registry σ} {identifier : String} {dialect : Dialect}

theorem mem_identifiers :
    identifier ∈ r.identifiers ↔ identifier ∈ r.specific.map (·.1.1) ∨ identifier ∈ r.general.map (·.1) := by
  rw [identifiers, ← List.mem_append]
  induction r.specific.map (·.1.1) ++ r.general.map (·.1) with
  | nil => exact Iff.rfl
  | cons new rest ih => rw [List.foldr_cons, mem_insertIdentifier, ih, List.mem_cons]

theorem pairwise_identifiers (r : Registry σ) : r.identifiers.Pairwise (· < ·) := by
  rw [identifiers]
  induction r.specific.map (·.1.1) ++ r.general.map (·.1) with
  | nil => exact List.Pairwise.nil
  | cons new rest ih => exact pairwise_insertIdentifier ih new

theorem isEmpty_iff : r.isEmpty = true ↔ r.identifiers = [] := by
  rw [isEmpty, Bool.and_eq_true, List.isEmpty_iff, List.isEmpty_iff]
  constructor
  · rintro ⟨hspecific, hgeneral⟩
    rw [identifiers, hspecific, hgeneral]
    rfl
  · intro h
    have hnone (i : String) : i ∉ r.identifiers := by
      rw [h]
      exact List.not_mem_nil
    constructor
    · refine List.eq_nil_iff_forall_not_mem.2 fun entry hentry => hnone entry.1.1 ?_
      exact mem_identifiers.2 (.inl (List.mem_map_of_mem hentry))
    · refine List.eq_nil_iff_forall_not_mem.2 fun entry hentry => hnone entry.1 ?_
      exact mem_identifiers.2 (.inr (List.mem_map_of_mem hentry))

/-! ## One registration -/

def record (r : Registry σ) : Registration σ → Registry σ
  | .forDialect i d expander => r.register i d expander
  | .forAll i expander => r.registerForAll i expander

theorem lookup_specific_record (r : Registry σ) (new : Registration σ) (identifier : String) (dialect : Dialect) :
    (r.record new).specific.lookup (identifier, dialect)
      = (new.specific? identifier dialect).or (r.specific.lookup (identifier, dialect)) := by
  cases new with
  | forDialect i d expander =>
    rw [record, register, Registration.specific?, List.lookup_cons]
    by_cases h : identifier = i ∧ dialect = d
    · rw [if_pos h, beq_iff_eq.2 (Prod.mk.injEq .. ▸ h), Option.some_or]
    · rw [if_neg h, beq_eq_false_iff_ne.2 fun heq => h (Prod.mk.inj heq), Option.none_or]
  | forAll i expander => exact (Option.none_or).symm

theorem lookup_general_record (r : Registry σ) (new : Registration σ) (identifier : String) :
    (r.record new).general.lookup identifier = (new.general? identifier).or (r.general.lookup identifier) := by
  cases new with
  | forDialect i d expander => exact (Option.none_or).symm
  | forAll i expander =>
    rw [record, registerForAll, Registration.general?, List.lookup_cons]
    by_cases h : identifier = i
    · rw [if_pos h, beq_iff_eq.2 h, Option.some_or]
    · rw [if_neg h, beq_eq_false_iff_ne.2 h, Option.none_or]

theorem mem_identifiers_record {new : Registration σ} :
    identifier ∈ (r.record new).identifiers ↔ identifier = new.identifier ∨ identifier ∈ r.identifiers := by
  rw [mem_identifiers, mem_identifiers]
  cases new with
  | forDialect i d expander => rw [record, register, List.map_cons, List.mem_cons, or_assoc, Registration.identifier]
  | forAll i expander =>
    rw [record, registerForAll, List.map_cons, List.mem_cons, or_left_comm, Registration.identifier]

/-! ## Any number of registrations -/

/-- A registry after registrations, the first of them first. -/
def recordAll (r : Registry σ) (history : List (Registration σ)) : Registry σ :=
  history.foldl record r

/-- A registry that was empty at first. -/
def ofHistory (history : List (Registration σ)) : Registry σ :=
  empty.recordAll history

theorem recordAll_append_singleton (r : Registry σ) (history : List (Registration σ)) (new : Registration σ) :
    r.recordAll (history ++ [new]) = (r.recordAll history).record new := by
  rw [recordAll, List.foldl_append, List.foldl_cons, List.foldl_nil, ← recordAll]

/-- If a registration either answers a question anew or leaves the answer as it is, then the last one that answers it
counts, and what was there before only if none does. -/
theorem answer_recordAll {α : Type} (answer : Registry σ → Option α) (new? : Registration σ → Option α)
    (hrecord : ∀ r new, answer (r.record new) = (new? new).or (answer r)) (r : Registry σ)
    (history : List (Registration σ)) :
    answer (r.recordAll history) = (history.filterMap new?).getLast?.or (answer r) := by
  induction history using List.reverseRecOn with
  | nil => rfl
  | append_singleton history new ih =>
    rw [recordAll_append_singleton, hrecord, ih, List.filterMap_append, List.getLast?_append, Option.or_assoc]
    cases h : new? new <;> simp [h]

theorem lookup_specific_recordAll (r : Registry σ) (history : List (Registration σ)) (identifier : String)
    (dialect : Dialect) : (r.recordAll history).specific.lookup (identifier, dialect)
      = (history.filterMap (Registration.specific? identifier dialect)).getLast?.or
          (r.specific.lookup (identifier, dialect)) :=
  answer_recordAll (·.specific.lookup (identifier, dialect)) (Registration.specific? identifier dialect)
    (fun r new => lookup_specific_record r new identifier dialect) r history

theorem lookup_general_recordAll (r : Registry σ) (history : List (Registration σ)) (identifier : String) :
    (r.recordAll history).general.lookup identifier
      = (history.filterMap (Registration.general? identifier)).getLast?.or (r.general.lookup identifier) :=
  answer_recordAll (·.general.lookup identifier) (Registration.general? identifier)
    (fun r new => lookup_general_record r new identifier) r history

theorem mem_identifiers_recordAll {history : List (Registration σ)} : identifier ∈ (r.recordAll history).identifiers ↔
    (∃ new ∈ history, new.identifier = identifier) ∨ identifier ∈ r.identifiers := by
  induction history using List.reverseRecOn with
  | nil => simp [recordAll]
  | append_singleton history new ih =>
    rw [recordAll_append_singleton, mem_identifiers_record, ih, ← or_assoc]
    refine or_congr_left ?_
    constructor
    · rintro (rfl | ⟨other, hmem, hother⟩)
      · exact ⟨new, by simp, rfl⟩
      · exact ⟨other, List.mem_append_left _ hmem, hother⟩
    · rintro ⟨other, hmem, rfl⟩
      rcases List.mem_append.1 hmem with hmem | hmem
      · exact .inr ⟨other, hmem, rfl⟩
      · exact .inl (by rw [List.mem_singleton.1 hmem])

/-- A registry that was empty at first answers every lookup, by the last registration for the dialect, or else by the
last one for all dialects. Its identifiers are those of the registrations, each once and in increasing order, and it is
empty exactly if there are none. -/
theorem ofHistory_answers (history : List (Registration σ)) :
    (∀ identifier dialect, (ofHistory history).lookup identifier dialect
        = .ok ((history.filterMap (Registration.specific? identifier dialect)).getLast?.or
            (history.filterMap (Registration.general? identifier)).getLast?))
      ∧ (ofHistory history).identifiers.Pairwise (· < ·)
      ∧ (∀ identifier, identifier ∈ (ofHistory history).identifiers
        ↔ ∃ new ∈ history, new.identifier = identifier)
      ∧ ((ofHistory history).isEmpty = true ↔ (ofHistory history).identifiers = []) := by
  refine ⟨fun identifier dialect => ?_, pairwise_identifiers _, fun identifier => ?_, isEmpty_iff⟩
  · have hspecific := lookup_specific_recordAll empty history identifier dialect
    have hgeneral := lookup_general_recordAll empty history identifier
    rw [show (empty : Registry σ).specific.lookup (identifier, dialect) = none from rfl, Option.or_none] at hspecific
    rw [show (empty : Registry σ).general.lookup identifier = none from rfl, Option.or_none] at hgeneral
    rw [lookup, find?, ofHistory, hspecific, hgeneral]
  · rw [ofHistory, mem_identifiers_recordAll]
    exact or_iff_left (by simp [identifiers, empty])

end Registry

end MacroDoc
