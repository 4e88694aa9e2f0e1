import MacroDoc.Expansion.Resolution
import MacroDoc.Proofs.Forest.Marking

/-!
# The answers of a registry

A resolution asks the registry about every invocation of a document, in document order.

* `Resolver.answers` : the invocations with the answers to them;
* `resolveFrom_eq_ok`, `resolveFrom_eq_error` : a resolution succeeds with what was found, or fails at the first
  answer that is an error;
* `Resolver.Answers` : the answers of a registry depend on nothing but identifier and dialect;
* `Resolver.resolve_*` : what a successful resolution of a document says about its invocations.
-/

namespace MacroDoc

variable {τ σ : Type}

/-- Invocations with the answers of a registry to them, which is asked one after the other. -/
def Resolver.answers (resolver : Resolver τ σ) (dialect : Dialect) :
    List PlacedInvocation → τ → List (PlacedInvocation × Except RegistryError (Option (Expander σ)))
  | [], _ => []
  | i :: rest, state =>
    let (answer, state) := resolver i.invocation.identifier dialect state
    (i, answer) :: answers resolver dialect rest state

def isFailure (a : PlacedInvocation × Except RegistryError (Option (Expander σ))) : Bool :=
  match a.2 with
  | .error _ => true
  | .ok _ => false

@[simp] theorem isFailure_error (i : PlacedInvocation) (cause : RegistryError) :
    isFailure (i, (.error cause : Except RegistryError (Option (Expander σ)))) = true := rfl

@[simp] theorem isFailure_ok (i : PlacedInvocation) (e? : Option (Expander σ)) : isFailure (i, .ok e?) = false := rfl

/-- What is kept of an invocation of a document, if its macro is not known. -/
def PlacedInvocation.unresolved (i : PlacedInvocation) : UnresolvedInvocation :=
  ⟨i.path, i.invocation.identifier, i.invocation.span⟩

/-- The resolution of invocations for which expanders were found or not. The first of them has number `position`. -/
def Resolution.ofFound (position : Nat) (found : List (PlacedInvocation × Option (Expander σ))) : Resolution σ where
  resolved := (found.zipIdx position).filterMap fun f =>
    f.1.2.map fun expander => ⟨f.1.1.path, f.2, f.1.1.placement, expander⟩
  unresolved := found.filterMap fun f =>
    if f.2.isNone then some f.1.unresolved else none

theorem Resolution.ofFound_cons (position : Nat) (i : PlacedInvocation) (e? : Option (Expander σ))
    (found : List (PlacedInvocation × Option (Expander σ))) :
    Resolution.ofFound position ((i, e?) :: found) = .cons position i e? (.ofFound (position + 1) found) := by
  cases e? <;> simp [ofFound, Resolution.cons, PlacedInvocation.unresolved]

/-- Whether a lookup was answered with "there is no such macro". -/
def isUnknown (a : PlacedInvocation × Except RegistryError (Option (Expander σ))) : Bool :=
  match a.2 with
  | .ok none => true
  | _ => false

/-! ## Success and failure -/

/-- A resolution succeeds if every lookup is answered, with what was found. -/
theorem resolveFrom_eq_ok (resolver : Resolver τ σ) (dialect : Dialect) (position : Nat)
    (invocations : List PlacedInvocation) (state : τ) (resolution : Resolution σ) :
    (resolveFrom resolver dialect position invocations state).1 = .ok resolution ↔
      ∃ found, resolver.answers dialect invocations state = found.map (fun f => (f.1, .ok f.2)) ∧
        resolution = .ofFound position found := by
  induction invocations generalizing position state resolution with
  | nil =>
    simp only [resolveFrom, Resolver.answers, Except.ok.injEq]
    constructor
    · rintro rfl
      exact ⟨[], rfl, rfl⟩
    · rintro ⟨found, hfound, rfl⟩
      rw [List.map_eq_nil_iff.1 hfound.symm]
      rfl
  | cons i rest ih =>
    rcases hask : resolver i.invocation.identifier dialect state with ⟨_ | e?, next⟩
    · simp only [resolveFrom, Resolver.answers, hask, reduceCtorEq, false_iff]
      rintro ⟨_ | ⟨f, found⟩, hfound, -⟩ <;> simp at hfound
    · simp only [resolveFrom, Resolver.answers, hask]
      constructor
      · intro h
        cases hrest : (resolveFrom resolver dialect (position + 1) rest next).1 with
        | error e => simp [hrest, Except.map] at h
        | ok others =>
          obtain ⟨found, hfound, rfl⟩ := (ih _ _ _).1 hrest
          refine ⟨(i, e?) :: found, by rw [hfound]; rfl, ?_⟩
          rw [Resolution.ofFound_cons]
          simpa [hrest, Except.map, eq_comm] using h
      · rintro ⟨_ | ⟨f, found⟩, hfound, rfl⟩
        · simp at hfound
        · obtain ⟨hhead, htail⟩ := List.cons.inj hfound
          obtain ⟨rfl, rfl⟩ : i = f.1 ∧ e? = f.2 := by simpa using hhead
          rw [(ih _ _ _).2 ⟨found, htail, rfl⟩, Except.map, ← Resolution.ofFound_cons]

/-- A resolution fails at the first lookup that is not answered. -/
theorem resolveFrom_eq_error (resolver : Resolver τ σ) (dialect : Dialect) (position : Nat)
    (invocations : List PlacedInvocation) (state : τ) (e : ExpansionError) :
    (resolveFrom resolver dialect position invocations state).1 = .error e ↔
      ∃ i cause, (resolver.answers dialect invocations state).find? isFailure = some (i, .error cause) ∧
        e = .registryUnavailable i.invocation.identifier dialect cause := by
  induction invocations generalizing position state with
  | nil => simp [resolveFrom, Resolver.answers]
  | cons i rest ih =>
    rcases hask : resolver i.invocation.identifier dialect state with ⟨cause | e?, next⟩
    · simp only [resolveFrom, Resolver.answers, hask, Except.error.injEq]
      constructor
      · rintro rfl
        exact ⟨i, cause, rfl, rfl⟩
      · rintro ⟨j, other, hj, rfl⟩
        obtain ⟨rfl, rfl⟩ : i = j ∧ cause = other := by simpa using hj
        rfl
    · simp only [resolveFrom, Resolver.answers, hask, isFailure_ok, Bool.false_eq_true, not_false_eq_true,
        List.find?_cons_of_neg]
      rw [← ih (position + 1) next]
      cases (resolveFrom resolver dialect (position + 1) rest next).1 <;> simp [Except.map]

theorem Resolver.map_fst_answers (resolver : Resolver τ σ) (dialect : Dialect) (invocations : List PlacedInvocation)
    (state : τ) : (resolver.answers dialect invocations state).map (·.1) = invocations := by
  induction invocations generalizing state with
  | nil => rfl
  | cons i rest ih => simp [answers, ih]

theorem Resolver.mem_answers {resolver : Resolver τ σ} {dialect : Dialect} {invocations : List PlacedInvocation}
    {state : τ} {a : PlacedInvocation × Except RegistryError (Option (Expander σ))}
    (h : a ∈ resolver.answers dialect invocations state) :
    ∃ state', a.2 = (resolver a.1.invocation.identifier dialect state').1 := by
  induction invocations generalizing state with
  | nil => cases h
  | cons i rest ih =>
    rcases List.mem_cons.1 h with rfl | h
    · exact ⟨state, rfl⟩
    · exact ih h

theorem Resolver.answers_of_unknown {resolver : Resolver τ σ} {dialect : Dialect}
    {invocations : List PlacedInvocation}
    (h : ∀ i ∈ invocations, ∀ state, (resolver i.invocation.identifier dialect state).1 = .ok none) (state : τ) :
    resolver.answers dialect invocations state = invocations.map fun i => (i, .ok none) := by
  induction invocations generalizing state with
  | nil => rfl
  | cons i rest ih =>
    have hrest := ih fun j hj => h j (List.mem_cons_of_mem _ hj)
    simp only [answers, h i List.mem_cons_self, hrest, List.map_cons]

/-! ## Registries that answer by a lookup -/

/-- The answers of a registry depend on identifier and dialect alone: they are those of a lookup. -/
def Resolver.Answers (resolver : Resolver τ σ) (lookup : Lookup σ) : Prop :=
  ∀ identifier dialect state, (resolver identifier dialect state).1 = lookup identifier dialect

theorem Lookup.answers_resolver (lookup : Lookup σ) : (lookup.resolver : Resolver τ σ).Answers lookup :=
  fun _ _ _ => rfl

theorem Resolver.Answers.answers_eq {resolver : Resolver τ σ} {lookup : Lookup σ} (h : resolver.Answers lookup)
    (dialect : Dialect) (invocations : List PlacedInvocation) (state : τ) :
    resolver.answers dialect invocations state =
      invocations.map fun i => (i, lookup i.invocation.identifier dialect) := by
  induction invocations generalizing state with
  | nil => rfl
  | cons i rest ih => simp [Resolver.answers, h _ _ _, ih]

/-! ## What was found -/

namespace Resolution

variable {position : Nat} {found : List (PlacedInvocation × Option (Expander σ))}

theorem mem_resolved_ofFound {r : ResolvedInvocation σ} (h : r ∈ (ofFound position found).resolved) :
    ∃ i, (i, some r.expander) ∈ found ∧ r.path = i.path ∧ r.placement = i.placement := by
  obtain ⟨⟨⟨i, e?⟩, n⟩, hmem, hr⟩ := List.mem_filterMap.1 h
  obtain ⟨expander, rfl, rfl⟩ := Option.map_eq_some_iff.1 hr
  exact ⟨i, List.fst_mem_of_mem_zipIdx hmem, rfl, rfl⟩

theorem mem_unresolved_ofFound {u : UnresolvedInvocation} :
    u ∈ (ofFound position found).unresolved ↔
      ∃ i, (i, none) ∈ found ∧ u = i.unresolved := by
  simp only [ofFound, List.mem_filterMap, Prod.exists]
  constructor
  · rintro ⟨i, _ | expander, hmem, hu⟩
    · exact ⟨i, hmem, by simpa using hu.symm⟩
    · simp at hu
  · rintro ⟨i, hmem, rfl⟩
    exact ⟨i, none, hmem, rfl⟩

/-- The first unresolved invocation is that of the first answer that there is no such macro. -/
theorem unresolved_ofFound_eq_cons {u : UnresolvedInvocation} {others : List UnresolvedInvocation}
    (h : (ofFound position found).unresolved = u :: others) :
    ∃ i, (found.map fun f => (f.1, (.ok f.2 : Except RegistryError _))).find? isUnknown = some (i, .ok none) ∧
      u = i.unresolved := by
  induction found generalizing position with
  | nil => cases h
  | cons f found ih =>
    obtain ⟨i, _ | expander⟩ := f
    · rw [ofFound_cons] at h
      cases h
      exact ⟨i, rfl, rfl⟩
    · rw [ofFound_cons] at h
      have hrest : (ofFound (position + 1) found).unresolved = u :: others := h
      exact ih hrest

theorem path_mem_resolved_ofFound {i : PlacedInvocation} {expander : Expander σ}
    (h : (i, some expander) ∈ found) : i.path ∈ (ofFound position found).resolved.map (·.path) := by
  obtain ⟨n, hn⟩ := List.getElem?_of_mem h
  refine List.mem_map.2 ⟨⟨i.path, position + n, i.placement, expander⟩, ?_, rfl⟩
  exact List.mem_filterMap.2 ⟨_, List.mk_add_mem_zipIdx_iff_getElem?.2 hn, rfl⟩

theorem sublist_paths_resolved (position : Nat) (found : List (PlacedInvocation × Option (Expander σ))) :
    ((ofFound position found).resolved.map (·.path)).Sublist (found.map (·.1.path)) := by
  induction found generalizing position with
  | nil => exact List.Sublist.refl _
  | cons f found ih =>
    obtain ⟨i, _ | expander⟩ := f
    · simpa [ofFound_cons, cons] using (ih (position + 1)).cons i.path
    · simpa [ofFound_cons, cons] using ih (position + 1)

theorem sublist_paths_unresolved (position : Nat) (found : List (PlacedInvocation × Option (Expander σ))) :
    ((ofFound position found).unresolved.map (·.path)).Sublist (found.map (·.1.path)) := by
  induction found generalizing position with
  | nil => exact List.Sublist.refl _
  | cons f found ih =>
    obtain ⟨i, _ | expander⟩ := f
    · simpa [ofFound_cons, cons] using ih (position + 1)
    · simpa [ofFound_cons, cons] using (ih (position + 1)).cons i.path

end Resolution

namespace Resolver

variable {resolver : Resolver τ σ} {dialect : Dialect} {d : Document} {state : τ} {resolution : Resolution σ}

theorem resolve_eq_ok (h : (resolver.resolve dialect d state).1 = .ok resolution) :
    ∃ found, found.map (·.1) = d.invocations ∧
      resolver.answers dialect d.invocations state = found.map (fun f => (f.1, .ok f.2)) ∧
      resolution = .ofFound 0 found := by
  obtain ⟨found, hfound, rfl⟩ := (resolveFrom_eq_ok resolver dialect 0 d.invocations state resolution).1 h
  refine ⟨found, ?_, hfound, rfl⟩
  rw [← resolver.map_fst_answers dialect d.invocations state, hfound, List.map_map]
  rfl

theorem invokes_of_mem_resolved (h : (resolver.resolve dialect d state).1 = .ok resolution)
    {r : ResolvedInvocation σ} (hr : r ∈ resolution.resolved) : d.Invokes r.path := by
  obtain ⟨found, hfst, -, rfl⟩ := resolve_eq_ok h
  obtain ⟨i, hi, hpath, -⟩ := Resolution.mem_resolved_ofFound hr
  rw [hpath]
  exact Document.invokes_of_mem (hfst ▸ List.mem_map_of_mem hi)

theorem nodup_paths_resolved (h : (resolver.resolve dialect d state).1 = .ok resolution) :
    (resolution.resolved.map (·.path)).Nodup := by
  obtain ⟨found, hfst, -, rfl⟩ := resolve_eq_ok h
  have hnodup : (found.map (·.1.path)).Nodup := by
    simpa [← hfst, Function.comp_def] using d.nodup_invocations
  exact (Resolution.sublist_paths_resolved 0 found).nodup hnodup

theorem nodup_paths_unresolved (h : (resolver.resolve dialect d state).1 = .ok resolution) :
    (resolution.unresolved.map (·.path)).Nodup := by
  obtain ⟨found, hfst, -, rfl⟩ := resolve_eq_ok h
  have hnodup : (found.map (·.1.path)).Nodup := by
    simpa [← hfst, Function.comp_def] using d.nodup_invocations
  exact (Resolution.sublist_paths_unresolved 0 found).nodup hnodup

theorem answer_of_mem_resolved (h : (resolver.resolve dialect d state).1 = .ok resolution)
    {r : ResolvedInvocation σ} (hr : r ∈ resolution.resolved) {i : Invocation}
    (hi : d.get? r.path = some (.leaf (.invocation i))) :
    ∃ state', (resolver i.identifier dialect state').1 = .ok (some r.expander) := by
  obtain ⟨found, hfst, hfound, rfl⟩ := resolve_eq_ok h
  obtain ⟨j, hj, hpath, -⟩ := Resolution.mem_resolved_ofFound hr
  have hmem : (j, .ok (some r.expander)) ∈ resolver.answers dialect d.invocations state := by
    rw [hfound]
    exact List.mem_map.2 ⟨(j, some r.expander), hj, rfl⟩
  obtain ⟨state', hstate⟩ := mem_answers hmem
  have hget := (Document.mem_invocations.1 (hfst ▸ List.mem_map_of_mem hj)).1
  rw [← hpath, hi] at hget
  obtain rfl : i = j.invocation := by simpa using hget
  exact ⟨state', hstate.symm⟩

theorem exists_answer_of_mem_resolved (h : (resolver.resolve dialect d state).1 = .ok resolution)
    {r : ResolvedInvocation σ} (hr : r ∈ resolution.resolved) :
    ∃ identifier state', (resolver identifier dialect state').1 = .ok (some r.expander) := by
  obtain ⟨i, hi⟩ := invokes_of_mem_resolved h hr
  exact ⟨i.identifier, answer_of_mem_resolved h hr hi⟩

theorem resolved_or_unresolved (h : (resolver.resolve dialect d state).1 = .ok resolution) {i : PlacedInvocation}
    (hi : i ∈ d.invocations) :
    i.path ∈ resolution.resolved.map (·.path) ∨
      i.unresolved ∈ resolution.unresolved := by
  obtain ⟨found, hfst, -, rfl⟩ := resolve_eq_ok h
  obtain ⟨⟨j, _ | expander⟩, hj, rfl⟩ := List.mem_map.1 (hfst ▸ hi)
  · exact .inr (Resolution.mem_unresolved_ofFound.2 ⟨j, hj, rfl⟩)
  · exact .inl (Resolution.path_mem_resolved_ofFound hj)

theorem exists_of_mem_unresolved (h : (resolver.resolve dialect d state).1 = .ok resolution)
    {u : UnresolvedInvocation} (hu : u ∈ resolution.unresolved) : ∃ i ∈ d.invocations, u = i.unresolved := by
  obtain ⟨found, hfst, -, rfl⟩ := resolve_eq_ok h
  obtain ⟨i, hi, rfl⟩ := Resolution.mem_unresolved_ofFound.1 hu
  exact ⟨i, hfst ▸ List.mem_map_of_mem hi, rfl⟩

/-- The registry answered, about what is unresolved, that there is no such macro. -/
theorem exists_answer_of_mem_unresolved (h : (resolver.resolve dialect d state).1 = .ok resolution)
    {u : UnresolvedInvocation} (hu : u ∈ resolution.unresolved) :
    ∃ state', (resolver u.identifier dialect state').1 = .ok none := by
  obtain ⟨found, -, hfound, rfl⟩ := resolve_eq_ok h
  obtain ⟨i, hi, rfl⟩ := Resolution.mem_unresolved_ofFound.1 hu
  have hmem : (i, .ok none) ∈ resolver.answers dialect d.invocations state := by
    rw [hfound]
    exact List.mem_map.2 ⟨(i, none), hi, rfl⟩
  obtain ⟨state', hstate⟩ := mem_answers hmem
  exact ⟨state', hstate.symm⟩

theorem Answers.lookup_of_mem {lookup : Lookup σ} (ha : resolver.Answers lookup)
    {invocations : List PlacedInvocation} {found : List (PlacedInvocation × Option (Expander σ))}
    (hfound : resolver.answers dialect invocations state = found.map (fun f => (f.1, .ok f.2)))
    {i : PlacedInvocation} {e? : Option (Expander σ)} (hi : (i, e?) ∈ found) :
    lookup i.invocation.identifier dialect = .ok e? := by
  have hmem : (i, .ok e?) ∈ resolver.answers dialect invocations state := by
    rw [hfound]
    exact List.mem_map.2 ⟨(i, e?), hi, rfl⟩
  rw [ha.answers_eq] at hmem
  obtain ⟨j, -, hj⟩ := List.mem_map.1 hmem
  obtain ⟨rfl, hlookup⟩ := Prod.mk.inj hj
  exact hlookup

theorem lookup_of_mem_resolved {lookup : Lookup σ} (ha : resolver.Answers lookup)
    (h : (resolver.resolve dialect d state).1 = .ok resolution) {r : ResolvedInvocation σ}
    (hr : r ∈ resolution.resolved) {i : Invocation} (hi : d.get? r.path = some (.leaf (.invocation i))) :
    lookup i.identifier dialect = .ok (some r.expander) := by
  obtain ⟨state', hstate⟩ := answer_of_mem_resolved h hr hi
  rw [← ha i.identifier dialect state', hstate]

theorem lookup_of_mem_unresolved {lookup : Lookup σ} (ha : resolver.Answers lookup)
    (h : (resolver.resolve dialect d state).1 = .ok resolution) {u : UnresolvedInvocation}
    (hu : u ∈ resolution.unresolved) : lookup u.identifier dialect = .ok none := by
  obtain ⟨found, -, hfound, rfl⟩ := resolve_eq_ok h
  obtain ⟨j, hj, rfl⟩ := Resolution.mem_unresolved_ofFound.1 hu
  exact ha.lookup_of_mem hfound hj

end Resolver

end MacroDoc
