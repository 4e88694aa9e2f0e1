import Mathlib.Data.List.Forall2
import MacroDoc.Macros.Definition
import MacroDoc.Proofs.Expansion.History

/-!
# Registering definitions

The macros of definitions are registered together or not at all. A definition counts for its id unless a later one has
the same id, and all of them stand behind what is registered for a dialect.

* `mapM_eq_error`, `mapM_eq_ok` : how a list of steps fails at the first that does, and how it does not;
* `registerAll_of_error`, `registerAll_of_ok` : the two outcomes of a registration;
* `Definition.expander?`, `lastDefined?` : the macro that a definition stands for, and the one of an id;
* `registerAll_allOrNothing` : the answer, and every lookup afterwards.
-/

namespace MacroDoc.Macros

/-! ## Steps that may fail -/

section Steps

variable {α β ε : Type} {f : α → Except ε β} {xs : List α}

theorem mapM_cons_error {x : α} {e : ε} (h : f x = .error e) (xs : List α) : (x :: xs).mapM f = .error e := by
  rw [List.mapM_cons, h]
  rfl

theorem mapM_cons_ok {x : α} {y : β} (h : f x = .ok y) (xs : List α) :
    (x :: xs).mapM f = (xs.mapM f).map (y :: ·) := by
  rw [List.mapM_cons, h]
  cases xs.mapM f <;> rfl

theorem mapM_eq_error (h : ∃ x ∈ xs, ∃ e, f x = .error e) :
    ∃ before x after e, xs = before ++ x :: after ∧ (∀ b ∈ before, ∃ y, f b = .ok y) ∧ f x = .error e
      ∧ xs.mapM f = .error e := by
  induction xs with
  | nil => simp at h
  | cons x xs ih =>
    cases hx : f x with
    | error e => exact ⟨[], x, xs, e, rfl, List.forall_mem_nil _, hx, mapM_cons_error hx xs⟩
    | ok y =>
      have hlater : ∃ x ∈ xs, ∃ e, f x = .error e := by
        obtain ⟨z, hz, e, hfail⟩ := h
        rcases List.mem_cons.1 hz with rfl | hz
        · rw [hx] at hfail
          cases hfail
        · exact ⟨z, hz, e, hfail⟩
      obtain ⟨before, z, after, e, rfl, hbefore, hz, hmap⟩ := ih hlater
      refine ⟨x :: before, z, after, e, rfl, List.forall_mem_cons.2 ⟨⟨y, hx⟩, hbefore⟩, hz, ?_⟩
      rw [mapM_cons_ok hx, hmap]
      rfl

theorem mapM_eq_ok (h : ∀ x ∈ xs, ∃ y, f x = .ok y) :
    ∃ ys, xs.mapM f = .ok ys ∧ List.Forall₂ (fun x y => f x = .ok y) xs ys := by
  induction xs with
  | nil => exact ⟨[], rfl, .nil⟩
  | cons x xs ih =>
    obtain ⟨⟨y, hx⟩, h⟩ := List.forall_mem_cons.1 h
    obtain ⟨ys, hmap, hall⟩ := ih h
    refine ⟨y :: ys, ?_, .cons hx hall⟩
    rw [mapM_cons_ok hx, hmap]
    rfl

end Steps

/-! ## Registrations -/

variable {σ : Type}

/-- The id of a definition without the blank characters around it. -/
def Definition.trimmedId (d : Definition) : String :=
  String.ofList (Text.trim d.id.toList)

/-- The macro that a definition stands for, if it defines one. -/
def Definition.expander? (d : Definition) : Option (Expander σ) :=
  match d.build with
  | .ok m => some m.expander
  | .error _ => none

def lastDefined? (identifier : String) (definitions : List Definition) : Option (Expander σ) :=
  (definitions.filter fun d => identifier = d.trimmedId).getLast?.bind Definition.expander?

def DefinedMacro.registration (m : DefinedMacro) : Registration σ :=
  .forAll m.id m.expander

variable {definitions : List Definition} {built : List DefinedMacro}

theorem Definition.id_of_build {d : Definition} {m : DefinedMacro} (h : d.build = .ok m) : m.id = d.trimmedId := by
  rw [Definition.build] at h
  split at h
  · cases h
  split at h
  · cases h
  split at h
  · cases h
  · obtain rfl := Except.ok.inj h
    rfl

theorem registerAll_of_error {e : DefinitionError} (h : definitions.mapM Definition.build = .error e) (r : Registry σ) :
    registerAll definitions r = (.error e, r) := by
  rw [registerAll, h]

theorem registerAll_of_ok (h : definitions.mapM Definition.build = .ok built) (r : Registry σ) :
    registerAll definitions r = (.ok built.length, r.recordAll (built.map DefinedMacro.registration)) := by
  rw [registerAll, h, Registry.recordAll, List.foldl_map]
  rfl

theorem filterMap_specific?_registration (identifier : String) (dialect : Dialect) (built : List DefinedMacro) :
    (built.map (DefinedMacro.registration (σ := σ))).filterMap (Registration.specific? identifier dialect) = [] := by
  rw [List.filterMap_map]
  exact List.filterMap_eq_nil_iff.2 fun m _ => rfl

theorem Definition.expander?_of_build {d : Definition} {m : DefinedMacro} (h : d.build = .ok m) :
    d.expander? = some (m.expander (σ := σ)) := by
  rw [Definition.expander?, h]

/-- What is registered for an id are the macros of the definitions of that id. -/
theorem filterMap_general?_registration
    (hbuilt : List.Forall₂ (fun d m => Definition.build d = .ok m) definitions built) (identifier : String) :
    (built.map DefinedMacro.registration).filterMap (Registration.general? identifier)
      = (definitions.filter fun d => identifier = d.trimmedId).filterMap (Definition.expander? (σ := σ)) := by
  induction hbuilt with
  | nil => rfl
  | @cons d m definitions built hd _ ih =>
    have hhead : (DefinedMacro.registration m).general? identifier
        = if identifier = d.trimmedId then some (m.expander (σ := σ)) else none := by
      rw [← Definition.id_of_build hd]
      rfl
    rw [List.map_cons, List.filterMap_cons, hhead, List.filter_cons]
    by_cases h : identifier = d.trimmedId
    · rw [if_pos h, if_pos (decide_eq_true h), List.filterMap_cons, Definition.expander?_of_build hd, ih]
    · rw [if_neg h, if_neg (by simpa using h), ih]

/-- The last macro that is registered for an id is that of the last definition. -/
theorem getLast?_filterMap_expander? (h : ∀ d ∈ definitions, ∃ m, d.build = .ok m) :
    (definitions.filterMap (Definition.expander? (σ := σ))).getLast?
      = definitions.getLast?.bind Definition.expander? := by
  rcases definitions.eq_nil_or_concat' with rfl | ⟨definitions, d, rfl⟩
  · rfl
  · obtain ⟨m, hm⟩ := h d (by simp)
    rw [List.filterMap_append, List.filterMap_cons, Definition.expander?_of_build hm, List.filterMap_nil,
      List.getLast?_concat, List.getLast?_concat, Option.bind_some, Definition.expander?_of_build hm]

/-- If a definition defines no macro, the error of the first such is the answer, and the registry is as it was. If all
of them define one, their number is the answer; afterwards a lookup finds what was registered for the dialect, or else
the macro of the last definition of that id, or else what it found before. -/
theorem registerAll_allOrNothing (definitions : List Definition) (r : Registry σ) :
    ((∃ d ∈ definitions, ∃ e, d.build = .error e) →
        ∃ before d after e, definitions = before ++ d :: after ∧ (∀ b ∈ before, ∃ m, b.build = .ok m)
          ∧ d.build = .error e ∧ registerAll definitions r = (.error e, r))
      ∧ ((∀ d ∈ definitions, ∃ m, d.build = .ok m) →
        (registerAll definitions r).1 = .ok definitions.length
          ∧ ∀ identifier dialect, (registerAll definitions r).2.lookup identifier dialect
            = .ok ((r.specific.lookup (identifier, dialect)).or
                ((lastDefined? identifier definitions).or (r.find? identifier dialect)))) := by
  constructor
  · intro hfails
    obtain ⟨before, d, after, e, hsplit, hbefore, hd, hmap⟩ := mapM_eq_error hfails
    exact ⟨before, d, after, e, hsplit, hbefore, hd, registerAll_of_error hmap r⟩
  · intro hall
    obtain ⟨built, hmap, hbuilt⟩ := mapM_eq_ok hall
    rw [registerAll_of_ok hmap]
    refine ⟨congrArg Except.ok hbuilt.length_eq.symm, fun identifier dialect => ?_⟩
    have hnamed : ∀ d ∈ definitions.filter (fun d => identifier = d.trimmedId), ∃ m, d.build = .ok m :=
      fun d hd => hall d (List.mem_of_mem_filter hd)
    have hspecific := Registry.lookup_specific_recordAll r (built.map DefinedMacro.registration) identifier dialect
    have hgeneral := Registry.lookup_general_recordAll r (built.map DefinedMacro.registration) identifier
    rw [filterMap_specific?_registration, List.getLast?_nil, Option.none_or] at hspecific
    rw [filterMap_general?_registration hbuilt, getLast?_filterMap_expander? hnamed] at hgeneral
    rw [Registry.lookup, Registry.find?, hspecific, hgeneral, ← lastDefined?, Registry.find?]
    cases r.specific.lookup (identifier, dialect) <;> simp

theorem Definition.exists_build {d : Definition} (h : d.build.toOption.isSome) : ∃ m, d.build = .ok m := by
  cases hbuild : d.build with
  | ok m => exact ⟨m, rfl⟩
  | error e =>
    rw [hbuild] at h
    cases h

/-- Two definitions whose ids are the same without blank characters, with one between them that defines no macro, and
without that one. -/
theorem registerAll_allOrNothing_sameId :
    let first : Definition := ⟨" greet ", "", "", none, false, "Optional", 1000, "Hi", []⟩
    let second : Definition := { first with id := "greet", code := "Bye" }
    let unknown : Definition := { first with contentType := "Sometimes" }
    let r : Registry Unit := .empty
    (∃ e, registerAll [first, unknown, second] r = (.error e, r)) ∧ (registerAll [first, second] r).1 = .ok 2
      ∧ ∃ m, second.build = .ok m
        ∧ (registerAll [first, second] r).2.lookup "greet" .default = .ok (some m.expander) := by
  intro first second unknown r
  have hfirst : ∃ m, first.build = .ok m := Definition.exists_build (by decide +kernel)
  have hsecond : ∃ m, second.build = .ok m := Definition.exists_build (by decide +kernel)
  have hunknown : ∃ e, unknown.build = .error e := by
    have hnone : unknown.build.toOption = none := by decide +kernel
    cases hbuild : unknown.build with
    | error e => exact ⟨e, rfl⟩
    | ok m =>
      rw [hbuild] at hnone
      cases hnone
  obtain ⟨hfails, -⟩ := registerAll_allOrNothing [first, unknown, second] r
  obtain ⟨-, hregisters⟩ := registerAll_allOrNothing [first, second] r
  obtain ⟨hcount, hlookup⟩ := hregisters (by simpa using ⟨hfirst, hsecond⟩)
  refine ⟨?_, hcount, ?_⟩
  · obtain ⟨-, -, -, e, -, -, -, heq⟩ := hfails ⟨unknown, by simp, hunknown⟩
    exact ⟨e, heq⟩
  · obtain ⟨m, hm⟩ := hsecond
    have hlast : lastDefined? "greet" [first, second] = some (m.expander (σ := Unit)) := by
      have hnamed : ([first, second].filter fun d => "greet" = d.trimmedId) = [first, second] := by decide +kernel
      rw [lastDefined?, hnamed, List.getLast?_cons_cons, List.getLast?_singleton, Option.bind_some,
        Definition.expander?_of_build hm]
    have hnone : r.specific.lookup ("greet", .default) = none := rfl
    refine ⟨m, hm, (hlookup "greet" .default).trans ?_⟩
    rw [hnone, hlast, Option.none_or, Option.some_or]

end MacroDoc.Macros
