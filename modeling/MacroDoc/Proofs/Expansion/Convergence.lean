import MacroDoc.Expansion.Registry
import MacroDoc.Proofs.Expansion.RunSteps

/-!
# Runs converge

A run that succeeds leaves only invocations of macros that the registry does not know, so that another run has
nothing to do.

* `Document.Converged` : no invocation of the document can be expanded;
* `Progress.Step.covered` : after a pass, an invocation stands below a marker of that pass, or is unknown;
* `Progress.Ends.settled` : a run that succeeds leaves only unknown invocations;
* `Resolver.expandDocument_of_converged` : a run over such a document reports them and changes nothing;
* `Resolver.expandDocument_converges` : all of it for a whole run.
-/

namespace MacroDoc

open Progress

variable {σ : Type}

/-- No invocation of the document can be expanded: the lookup answers that there is no such macro. -/
def Document.Converged (lookup : Lookup σ) (dialect : Dialect) (d : Document) : Prop :=
  ∀ i ∈ d.invocations, lookup i.invocation.identifier dialect = .ok none

theorem Document.Converged.lookup_eq {lookup : Lookup σ} {dialect : Dialect} {d : Document}
    (h : d.Converged lookup dialect) {path : Path} {i : Invocation}
    (hi : d.get? path = some (.leaf (.invocation i))) : lookup i.identifier dialect = .ok none :=
  h _ (Document.mem_invocations_of_get? hi)

/-- The report of a run that reports every invocation of the document as unknown and does nothing else. -/
def Document.idleReport (dialect : Dialect) (d : Document) : Report :=
  ⟨0, 0, d.invocations.map fun i => unresolvedDiagnostic dialect 1 d.sourceId i.unresolved⟩

/-! ## What is left after a run -/

section Settled

variable {resolver : Resolver σ σ} {lookup : Lookup σ} {config : Config} {dialect : Dialect} {p q : Progress σ}

/-- An invocation may stay in the document: the run is not strict, and the macro is unknown. -/
def Invocation.Settled (lookup : Lookup σ) (config : Config) (dialect : Dialect) (i : Invocation) : Prop :=
  config.strict = false ∧ lookup i.identifier dialect = .ok none

/-- Every invocation of the document stands below a marker of the last pass, or may stay. -/
def Progress.Covered (lookup : Lookup σ) (config : Config) (dialect : Dialect) (q : Progress σ) : Prop :=
  ∀ i ∈ q.document.invocations,
    (∃ m ∈ q.markers, m.isAncestorOf i.path = true) ∨ i.invocation.Settled lookup config dialect

/-- An invocation that a lookup of the document does not find may stay. -/
theorem Resolver.settled_of_unresolved (ha : resolver.Answers lookup) {d : Document} {state : σ}
    {resolution : Resolution σ} (hlookups : (resolver.resolve dialect d state).1 = .ok resolution)
    (hlenient : config.strict = true → resolution.unresolved = []) {i : PlacedInvocation}
    (hi : i.unresolved ∈ resolution.unresolved) : i.invocation.Settled lookup config dialect := by
  constructor
  · rw [Bool.eq_false_iff]
    intro hstrict
    rw [hlenient hstrict] at hi
    cases hi
  · exact lookup_of_mem_unresolved ha hlookups hi

/-- What a pass leaves stands below its markers, or was there before and was not found. -/
theorem Progress.Step.left (h : Step resolver config dialect p q) :
    ∃ resolution, (resolver.resolve dialect p.document p.state).1 = .ok resolution ∧
      (config.strict = true → resolution.unresolved = []) ∧
      ∀ i ∈ q.document.invocations, (∃ m ∈ q.markers, m.isAncestorOf i.path = true) ∨
        i.unresolved ∈ resolution.unresolved := by
  obtain ⟨resolution, hlookups, hlenient, hmarkers, hmarked⟩ := h.effect
  refine ⟨resolution, hlookups, hlenient, ?_⟩
  intro i hi
  have hget := (Document.mem_invocations.1 hi).1
  rcases hmarked.eq_invocation (fun m hm => h.invokes hm) h.nodup hget with ⟨hpath, hbefore⟩ | ⟨m, hm, hanc, -⟩
  · right
    rcases Resolver.resolved_or_unresolved hlookups (Document.mem_invocations_of_get? hbefore) with
      hresolved | hunresolved
    · exact absurd (hmarkers.mem_iff.2 hresolved) hpath
    · exact hunresolved
  · exact .inl ⟨m, hm, hanc⟩

theorem Progress.Step.covered (ha : resolver.Answers lookup) (h : Step resolver config dialect p q) :
    q.Covered lookup config dialect := by
  obtain ⟨resolution, hlookups, hlenient, hleft⟩ := h.left
  intro i hi
  rcases hleft i hi with hbelow | hunresolved
  · exact .inl hbelow
  · exact .inr (Resolver.settled_of_unresolved ha hlookups hlenient hunresolved)

/-- All that is left after a run that succeeds may stay. -/
theorem Progress.Ends.settled (ha : resolver.Answers lookup) (hconfig : config.maxDepth ≠ 0) {k : Nat}
    (hsteps : Steps resolver config dialect p k q) {run : Run σ} (h : Ends resolver config dialect k q run)
    {report : Report} (hok : run.result = .ok report) :
    ∀ i ∈ run.document.invocations, i.invocation.Settled lookup config dialect := by
  intro i hi
  cases h with
  | unavailable => cases hok
  | unknown => cases hok
  | @converged resolution state _ lookups lenient idle =>
    have hlookups : (resolver.resolve dialect q.document q.state).1 = .ok resolution := by rw [lookups]
    rcases Resolver.resolved_or_unresolved hlookups hi with hresolved | hunresolved
    · rw [idle] at hresolved
      cases hresolved
    · exact Resolver.settled_of_unresolved ha hlookups lenient hunresolved
  | stopped full =>
    -- There was at least one pass, and the freeze catches what stands below the markers of the last one.
    have hcovered : q.Covered lookup config dialect :=
      hsteps.established (fun _ _ hstep => hstep.covered ha) (full ▸ hconfig)
    obtain ⟨hbefore, huncovered⟩ := get?_freeze_eq_invocation (Document.mem_invocations.1 hi).1
    rcases hcovered _ (Document.mem_invocations_of_get? hbefore) with ⟨m, hm, hanc⟩ | hsettled
    · rw [huncovered m hm] at hanc
      cases hanc
    · exact hsettled

theorem Progress.Ends.passes {k : Nat} {run : Run σ} {report : Report}
    (h : Ends resolver config dialect k q run) (hok : run.result = .ok report) :
    report.passes = q.report.passes := by
  cases h with
  | unavailable => cases hok
  | unknown => cases hok
  | converged => cases hok; rfl
  | stopped => cases hok; rfl

end Settled

/-! ## Runs that do nothing -/

theorem Resolution.ofFound_map_none (position : Nat) (invocations : List PlacedInvocation) :
    (ofFound position (invocations.map fun i => (i, none)) : Resolution σ) =
      ⟨[], invocations.map PlacedInvocation.unresolved⟩ := by
  induction invocations generalizing position with
  | nil => rfl
  | cons i rest ih =>
    rw [List.map_cons, ofFound_cons, ih (position + 1)]
    rfl

/-- The resolution of a document finds nothing if all its macros are unknown, whatever the state of the registry. -/
theorem Resolver.resolve_of_unknown {τ : Type} {resolver : Resolver τ σ} {dialect : Dialect} {d : Document}
    (hd : ∀ i ∈ d.invocations, ∀ state, (resolver i.invocation.identifier dialect state).1 = .ok none) (state : τ) :
    (resolver.resolve dialect d state).1 = .ok ⟨[], d.invocations.map PlacedInvocation.unresolved⟩ := by
  refine (resolveFrom_eq_ok _ _ _ _ _ _).2 ⟨d.invocations.map fun i => (i, none), ?_, ?_⟩
  · rw [answers_of_unknown hd, List.map_map]
    rfl
  · exact (Resolution.ofFound_map_none 0 _).symm

theorem Resolver.resolve_of_converged {τ : Type} {resolver : Resolver τ σ} {lookup : Lookup σ}
    (ha : resolver.Answers lookup) {dialect : Dialect} {d : Document} (hd : d.Converged lookup dialect) (state : τ) :
    (resolver.resolve dialect d state).1 = .ok ⟨[], d.invocations.map PlacedInvocation.unresolved⟩ :=
  resolve_of_unknown (fun i hi state => by rw [ha, hd i hi]) state

/-- A run over a converged document reports what is left in it, in document order, and changes nothing. -/
theorem Resolver.expandDocument_of_converged {resolver : Resolver σ σ} {lookup : Lookup σ}
    (ha : resolver.Answers lookup) {config : Config} (hconfig : config.maxDepth ≠ 0)
    (hlenient : config.strict = false) {dialect : Dialect} {d : Document} (hd : d.Converged lookup dialect)
    (state : σ) :
    (resolver.expandDocument config dialect d state).document = d ∧
      (resolver.expandDocument config dialect d state).result = .ok (d.idleReport dialect) := by
  obtain ⟨limit, hlimit⟩ := Nat.exists_eq_succ_of_ne_zero hconfig
  have hlookups := resolve_of_converged ha hd state
  rcases hresolve : resolver.resolve dialect d state with ⟨answer, next⟩
  rw [hresolve] at hlookups
  simp only at hlookups
  subst hlookups
  have hstart : resolver.resolve dialect (start d state).document (start d state).state = _ := hresolve
  rw [expandDocument_of_ne_zero resolver hconfig, hlimit, runPasses_of_lenient hstart (by simp [hlenient])]
  refine ⟨rfl, ?_⟩
  -- Nothing is reported yet, so that every invocation is met for the first time.
  simp only [finish, reportUnresolved]
  rw [List.filter_eq_self.2 (by simp [Progress.start]), List.map_map]
  rfl

/-! ## Whole runs -/

/-- For a registry that answers by a lookup, and for any macros: a run takes no more passes than it may, and if it
succeeds, every invocation that it leaves is unknown, and in strict mode none is left. A second run over what is left
that is not strict reports each invocation once, in document order, and changes nothing. -/
theorem Resolver.expandDocument_converges {resolver : Resolver σ σ} {lookup : Lookup σ}
    (ha : resolver.Answers lookup) {config : Config} (hconfig : config.maxDepth ≠ 0) (dialect : Dialect)
    (d : Document) (state : σ) :
    let run := resolver.expandDocument config dialect d state
    ∃ passes ≤ config.maxDepth, ∃ last,
      Steps resolver config dialect (.start d state) passes last ∧ Ends resolver config dialect passes last run ∧
      ∀ report, run.result = .ok report →
        report.passes = passes ∧ run.document.Converged lookup dialect ∧
        (config.strict = true → run.document.invocations = []) ∧
        ∀ (config' : Config) (state' : σ), config'.maxDepth ≠ 0 → config'.strict = false →
          (resolver.expandDocument config' dialect run.document state').document = run.document ∧
          (resolver.expandDocument config' dialect run.document state').result =
            .ok (run.document.idleReport dialect) := by
  intro run
  obtain ⟨passes, last, hsteps, hends⟩ := resolver.exists_ends hconfig dialect d state
  refine ⟨passes, hends.le, last, hsteps, hends, ?_⟩
  intro report hok
  have hsettled : ∀ i ∈ run.document.invocations, i.invocation.Settled lookup config dialect :=
    hends.settled ha hconfig hsteps hok
  have hconverged : run.document.Converged lookup dialect := fun i hi => (hsettled i hi).2
  refine ⟨?_, hconverged, fun hstrict => ?_, fun config' state' hconfig' hlenient' => ?_⟩
  · rw [hends.passes hok, hsteps.passes]
    exact Nat.zero_add passes
  · rw [List.eq_nil_iff_forall_not_mem]
    intro i hi
    have hlenient := (hsettled i hi).1
    rw [hstrict] at hlenient
    cases hlenient
  · exact expandDocument_of_converged ha hconfig' hlenient' hconverged state'

/-! ## A macro that calls itself -/

/-- A call of a macro by its name alone, in the dialect of documents. -/
def bareCall (identifier : String) : Block :=
  .leaf (.invocation ⟨⟨identifier, .empty, none⟩, .default, none⟩)

/-- A macro that expands to its own call, and a call of the macro `other`. -/
def echo : Expander Unit :=
  .stateless ⟨"Echo", "", none, true, none, [], Descriptor.defaultPriority⟩ fun context =>
    .ok [bareCall context.call.identifier, bareCall "other"]

def echoRegistry : Registry Unit :=
  Registry.empty.registerForAll "echo" echo

def echoDocument : Document :=
  ⟨[bareCall "echo", bareCall "other"], 0⟩

def echoRun : Run Unit :=
  echoRegistry.lookup.resolver.expandDocument ⟨2, false, .ascending⟩ .default echoDocument ()

theorem echoRun_isOk : ∃ report, echoRun.result = .ok report :=
  Run.error?_eq_none.1 (by decide +kernel)

/-- Two passes leave no call of `echo`, and the calls of `other` that were met before the last. -/
theorem Resolver.expandDocument_converges_echo :
    let again := echoRegistry.lookup.resolver.expandDocument ⟨1, false, .descending⟩ .default echoRun.document ()
    echoRun.document.Converged echoRegistry.lookup .default ∧
      echoRun.document.invocations.map (·.invocation.identifier) = ["other", "other"] ∧
      again.document = echoRun.document ∧ again.result = .ok (echoRun.document.idleReport .default) := by
  have hlookup : (echoRegistry.lookup.resolver : Resolver Unit Unit).Answers echoRegistry.lookup :=
    Lookup.answers_resolver _
  have hconfig : Config.maxDepth ⟨2, false, .ascending⟩ ≠ 0 := by decide
  obtain ⟨report, hok⟩ := echoRun_isOk
  obtain ⟨_, _, _, _, _, h⟩ := expandDocument_converges hlookup hconfig .default echoDocument ()
  obtain ⟨_, hconverged, _, hagain⟩ := h report hok
  exact ⟨hconverged, by decide +kernel, hagain ⟨1, false, .descending⟩ () (by decide) rfl⟩

end MacroDoc
