import MacroDoc.Proofs.Expansion.Convergence
import MacroDoc.Proofs.Expansion.PassOrder

/-!
# Priorities do not matter to macros that do not look at the document

Two registries that differ only in the priorities of their macros resolve a document alike, and each pass of the one
is a permutation of a pass of the other.

* `Resolver.unranked` : the registry with all priorities forgotten;
* `Progress.Same` : two runs that are equal up to the order of markers and diagnostics, which every pass keeps;
* `Resolver.expandDocument_reorder` : both runs end alike.
-/

namespace MacroDoc

open Progress

variable {τ σ : Type}

/-! ## Without priorities -/

def Expander.unranked (e : Expander σ) : Expander σ :=
  { e with descriptor := { e.descriptor with priority := 0 } }

/-- The registry with the priorities of its macros forgotten. -/
def Resolver.unranked (resolver : Resolver τ σ) : Resolver τ σ := fun identifier dialect state =>
  ((resolver identifier dialect state).1.map (Option.map Expander.unranked), (resolver identifier dialect state).2)

def ResolvedInvocation.unranked (r : ResolvedInvocation σ) : ResolvedInvocation σ :=
  { r with expander := r.expander.unranked }

def Resolution.unranked (r : Resolution σ) : Resolution σ :=
  { r with resolved := r.resolved.map ResolvedInvocation.unranked }

theorem Resolution.unranked_cons (position : Nat) (i : PlacedInvocation) (e? : Option (Expander σ))
    (others : Resolution σ) :
    (cons position i e? others).unranked = cons position i (e?.map Expander.unranked) others.unranked := by
  cases e? <;> rfl

theorem resolveFrom_unranked (resolver : Resolver τ σ) (dialect : Dialect) (position : Nat)
    (invocations : List PlacedInvocation) (state : τ) :
    resolveFrom resolver.unranked dialect position invocations state =
      ((resolveFrom resolver dialect position invocations state).1.map Resolution.unranked,
        (resolveFrom resolver dialect position invocations state).2) := by
  induction invocations generalizing position state with
  | nil => rfl
  | cons i rest ih =>
    rcases hask : resolver i.invocation.identifier dialect state with ⟨cause | e?, next⟩
    · simp only [resolveFrom, Resolver.unranked, hask, Except.map]
    · simp only [resolveFrom, Resolver.unranked, hask, Except.map]
      rw [ih (position + 1) next]
      cases (resolveFrom resolver dialect (position + 1) rest next).1 with
      | error e => rfl
      | ok others => simp only [Except.map, Resolution.unranked_cons]

theorem executeOne_unranked (dialect : Dialect) (pass : Nat) (r : ResolvedInvocation σ) (d : Document) (state : σ) :
    executeOne dialect pass r.unranked d state = executeOne dialect pass r d state := rfl

/-- Once a pass is scheduled, priorities do not take part in it. -/
theorem executePass_unranked (dialect : Dialect) (pass : Nat) (scheduled : List (ResolvedInvocation σ))
    (d : Document) (state : σ) :
    executePass dialect pass (scheduled.map ResolvedInvocation.unranked) d state =
      executePass dialect pass scheduled d state := by
  induction scheduled generalizing d state with
  | nil => rfl
  | cons r rest ih =>
    rw [List.map_cons, executePass, executePass, executeOne_unranked]
    cases executeOne dialect pass r d state with
    | none => exact ih d state
    | some e => simp only [ih]; rfl

/-- The answers of a registry are macros that do not look at the document. -/
def Resolver.IgnoresDocument (resolver : Resolver τ σ) : Prop :=
  ∀ identifier dialect state e, (resolver identifier dialect state).1 = .ok (some e) → e.IgnoresDocument

/-- The passes of two resolutions that differ only in priorities. -/
theorem executePass_reorder {resolver : Resolver τ σ} (hresolver : resolver.IgnoresDocument) {dialect : Dialect}
    {d : Document} {before : τ} {resolution resolution' : Resolution σ}
    (hlookups : (resolver.resolve dialect d before).1 = .ok resolution)
    (hsame : resolution.unranked = resolution'.unranked) (order order' : PriorityOrder) (pass : Nat) (state : σ) :
    (executePass dialect pass (schedule order resolution.resolved) d state).Same
      (executePass dialect pass (schedule order' resolution'.resolved) d state) := by
  have hperm := (schedule_perm order resolution.resolved).map ResolvedInvocation.unranked
  have hperm' := (schedule_perm order' resolution'.resolved).map ResolvedInvocation.unranked
  have hresolved : resolution.resolved.map ResolvedInvocation.unranked =
      resolution'.resolved.map ResolvedInvocation.unranked := congrArg Resolution.resolved hsame
  have hmem : ∀ r ∈ (schedule order resolution.resolved).map ResolvedInvocation.unranked,
      ∃ r' ∈ resolution.resolved, r'.unranked = r := fun r hr => List.mem_map.1 (hperm.mem_iff.1 hr)
  rw [← executePass_unranked, ← executePass_unranked dialect pass (schedule order' resolution'.resolved)]
  apply executePass_perm dialect pass (hperm.trans (hresolved ▸ hperm'.symm))
  · intro r hr
    obtain ⟨r', hr', rfl⟩ := hmem r hr
    obtain ⟨identifier, state', hanswer⟩ := Resolver.exists_answer_of_mem_resolved hlookups hr'
    exact hresolver identifier dialect state' r'.expander hanswer
  · intro r hr
    obtain ⟨r', hr', rfl⟩ := hmem r hr
    show d.Invokes r'.path
    exact Resolver.invokes_of_mem_resolved hlookups hr'
  · rw [(hperm.map _).nodup_iff, List.map_map]
    exact Resolver.nodup_paths_resolved hlookups

/-! ## Runs that are equal up to the order of a pass -/

/-- Two reports that count the same, with the same diagnostics of each pass up to their order. -/
structure Report.Same (a b : Report) : Prop where
  passes : a.passes = b.passes
  expansions : a.expansions = b.expansions
  diagnostics : ∀ n, (a.diagnostics.filter (·.pass = n)).Perm (b.diagnostics.filter (·.pass = n))

/-- Two results that are the same report up to the order of the diagnostics of each pass, or the same error. -/
inductive SameResult : Except ExpansionError Report → Except ExpansionError Report → Prop where
  | ok {a b : Report} (report : a.Same b) : SameResult (.ok a) (.ok b)
  | error (e : ExpansionError) : SameResult (.error e) (.error e)

/-- Two runs that left the same document and the same shared state, with the same result. -/
structure Run.Same (a b : Run σ) : Prop where
  result : SameResult a.result b.result
  document : a.document = b.document
  state : a.state = b.state

/-- Two runs that have done the same so far. -/
structure Progress.Same (p q : Progress σ) : Prop where
  document : p.document = q.document
  state : p.state = q.state
  reported : p.reported = q.reported
  markers : p.markers.Perm q.markers
  report : p.report.Same q.report

theorem Report.Same.refl (a : Report) : a.Same a :=
  ⟨rfl, rfl, fun _ => .refl _⟩

theorem Report.Same.append {a b : Report} (h : a.Same b) {found found' : List Diagnostic} (hfound : found.Perm found')
    (n : Nat) :
    ((a.diagnostics ++ found).filter (·.pass = n)).Perm ((b.diagnostics ++ found').filter (·.pass = n)) := by
  rw [List.filter_append, List.filter_append]
  exact (h.diagnostics n).append (hfound.filter _)

namespace Progress.Same

variable {p q : Progress σ}

theorem refl (p : Progress σ) : p.Same p :=
  ⟨rfl, rfl, rfl, .refl _, .refl _⟩

theorem next (h : p.Same q) (state : σ) : { p with state := state }.Same { q with state := state } :=
  ⟨h.document, rfl, h.reported, h.markers, h.report⟩

theorem reportUnresolved (h : p.Same q) (dialect : Dialect) (unresolved : List UnresolvedInvocation) :
    (p.reportUnresolved dialect unresolved).Same (q.reportUnresolved dialect unresolved) where
  document := h.document
  state := h.state
  reported := by simp only [Progress.reportUnresolved, h.reported]
  markers := h.markers
  report := by
    refine ⟨h.report.passes, h.report.expansions, ?_⟩
    unfold Progress.reportUnresolved
    rw [h.reported, h.report.passes, h.document]
    exact h.report.append (.refl _)

theorem pass (h : p.Same q) {dialect : Dialect} {scheduled scheduled' : List (ResolvedInvocation σ)}
    (ho : (executePass dialect (p.report.passes + 1) scheduled p.document p.state).Same
      (executePass dialect (p.report.passes + 1) scheduled' p.document p.state)) :
    (p.pass dialect scheduled).Same (q.pass dialect scheduled') := by
  unfold Progress.pass
  rw [← h.document, ← h.state, ← h.report.passes]
  refine ⟨ho.document, ho.state, h.reported, ho.markers, rfl, ?_, h.report.append ho.diagnostics⟩
  simp only [h.report.expansions, ho.executed]

theorem fail (h : p.Same q) (e : ExpansionError) : (p.fail e).Same (q.fail e) :=
  ⟨.error e, h.document, h.state⟩

theorem finish (h : p.Same q) : p.finish.Same q.finish :=
  ⟨.ok h.report, h.document, h.state⟩

theorem stop (h : p.Same q) (limit : Nat) : (p.stop limit).Same (q.stop limit) where
  result := by
    refine .ok ⟨h.report.passes, h.report.expansions, ?_⟩
    rw [h.document, h.report.passes, pendingBelow_perm h.markers]
    exact h.report.append (.refl _)
  document := by
    show freeze p.markers p.document = freeze q.markers q.document
    rw [h.document, freeze_perm h.markers]
  state := h.state

end Progress.Same

/-! ## Whole runs -/

theorem Resolver.resolve_congr {resolver resolver' : Resolver τ σ} (h : resolver.unranked = resolver'.unranked)
    (dialect : Dialect) (d : Document) (state : τ) :
    (resolver.resolve dialect d state).1.map Resolution.unranked =
        (resolver'.resolve dialect d state).1.map Resolution.unranked ∧
      (resolver.resolve dialect d state).2 = (resolver'.resolve dialect d state).2 := by
  have hleft := resolveFrom_unranked resolver dialect 0 d.invocations state
  have hright := resolveFrom_unranked resolver' dialect 0 d.invocations state
  rw [h] at hleft
  exact Prod.mk.inj (hleft.symm.trans hright)

/-- Runs that have done the same so far end alike, if their registries differ only in priorities. -/
theorem runPasses_reorder {resolver resolver' : Resolver σ σ} (hresolver : resolver.IgnoresDocument)
    (hsame : resolver.unranked = resolver'.unranked) (config : Config) (order : PriorityOrder) (dialect : Dialect)
    (remaining : Nat) {p q : Progress σ} (hpq : p.Same q) :
    (runPasses resolver config dialect remaining p).Same
      (runPasses resolver' { config with order := order } dialect remaining q) := by
  induction remaining generalizing p q with
  | zero => exact hpq.stop config.maxDepth
  | succ remaining ih =>
    obtain ⟨hanswer, hstate⟩ := Resolver.resolve_congr hsame dialect p.document p.state
    rcases hlookups : resolver.resolve dialect p.document p.state with ⟨answer, state⟩
    rcases hlookups' : resolver'.resolve dialect p.document p.state with ⟨answer', state'⟩
    simp only [hlookups, hlookups'] at hanswer hstate
    subst hstate
    rw [hpq.document, hpq.state] at hlookups'
    cases answer with
    | error e =>
      cases answer' with
      | error e' =>
        obtain rfl : e = e' := Except.error.inj hanswer
        rw [runPasses_of_unavailable hlookups, runPasses_of_unavailable hlookups']
        exact (hpq.next state).fail e
      | ok resolution' => cases hanswer
    | ok resolution =>
      cases answer' with
      | error e' => cases hanswer
      | ok resolution' =>
        have hresolution : resolution.unranked = resolution'.unranked := Except.ok.inj hanswer
        have hunresolved : resolution.unresolved = resolution'.unresolved := (Resolution.mk.inj hresolution).2
        by_cases hlenient : config.strict = true → resolution.unresolved = []
        · have hidle : resolution.resolved.isEmpty = resolution'.resolved.isEmpty := by
            simpa [Resolution.unranked] using congrArg (·.resolved.isEmpty) hresolution
          have hreported := (hpq.next state).reportUnresolved dialect resolution.unresolved
          rw [runPasses_of_lenient hlookups hlenient, runPasses_of_lenient hlookups' (hunresolved ▸ hlenient),
            ← hidle, ← hunresolved]
          by_cases hwork : resolution.resolved.isEmpty = true
          · rw [if_pos hwork, if_pos hwork]
            exact hreported.finish
          · rw [if_neg hwork, if_neg hwork]
            exact ih (hreported.pass
              (executePass_reorder hresolver (congrArg Prod.fst hlookups) hresolution config.order order _ state))
        · obtain ⟨hstrict, hsome⟩ := Classical.not_imp.1 hlenient
          obtain ⟨u, others, hu⟩ := List.exists_cons_of_ne_nil hsome
          have hstrict' : ({ config with order := order } : Config).strict = true := hstrict
          rw [runPasses_of_unknown hlookups hstrict hu, runPasses_of_unknown hlookups' hstrict' (hunresolved ▸ hu)]
          exact (hpq.next state).fail _

/-- The macros of the library do not look at the document. If no macro of a registry does, then two runs that differ
only in the priorities of the macros, and in which end of the scale comes first, leave the same document with the same
result. -/
theorem Resolver.expandDocument_reorder :
    ((Macros.code : Expander σ).IgnoresDocument ∧ (Macros.box : Expander σ).IgnoresDocument ∧
      (Macros.xhtml : Expander σ).IgnoresDocument ∧
      ∀ m : Macros.DefinedMacro, (m.expander : Expander σ).IgnoresDocument) ∧
    ∀ resolver resolver' : Resolver σ σ, resolver.IgnoresDocument → resolver.unranked = resolver'.unranked →
      ∀ (config : Config) (order : PriorityOrder) (dialect : Dialect) (d : Document) (state : σ),
        (resolver.expandDocument config dialect d state).Same
          (resolver'.expandDocument { config with order := order } dialect d state) := by
  refine ⟨⟨Macros.code_ignoresDocument, Macros.box_ignoresDocument, Macros.xhtml_ignoresDocument,
    Macros.DefinedMacro.expander_ignoresDocument⟩, ?_⟩
  intro resolver resolver' hresolver hsame config order dialect d state
  by_cases hconfig : config.maxDepth = 0
  · have hconfig' : ({ config with order := order } : Config).maxDepth = 0 := hconfig
    rw [expandDocument_of_zero resolver hconfig, expandDocument_of_zero resolver' hconfig']
    exact (Same.refl _).fail _
  · have hconfig' : ({ config with order := order } : Config).maxDepth ≠ 0 := hconfig
    rw [expandDocument_of_ne_zero resolver hconfig, expandDocument_of_ne_zero resolver' hconfig']
    exact runPasses_reorder hresolver hsame config order dialect config.maxDepth (Same.refl _)

def hello (priority : Int) : Expander Unit :=
  .stateless ⟨"Hello", "", none, true, none, [], priority⟩ fun _ => .ok [.leaf (.word "hello")]

def helloRegistry (priority : Int) : Registry Unit :=
  echoRegistry.registerForAll "hello" (hello priority)

theorem helloRegistry_find? {priority : Int} {identifier : String} {dialect : Dialect} {e : Expander Unit}
    (h : (helloRegistry priority).find? identifier dialect = some e) : e = hello priority ∨ e = echo := by
  have hfind : [("hello", hello priority), ("echo", echo)].lookup identifier = some e := h
  rw [List.lookup_cons, List.lookup_cons, List.lookup_nil] at hfind
  split at hfind
  · exact .inl (Option.some.inj hfind).symm
  · split at hfind
    · exact .inr (Option.some.inj hfind).symm
    · cases hfind

theorem helloRegistry_ignoresDocument (priority : Int) :
    ((helloRegistry priority).lookup.resolver : Resolver Unit Unit).IgnoresDocument := by
  intro identifier dialect state e he
  rcases helloRegistry_find? (Except.ok.inj he) with rfl | rfl
  · exact Expander.stateless_ignoresDocument fun _ _ => rfl
  · exact Expander.stateless_ignoresDocument fun _ _ => rfl

/-- A call of `hello` after one of `echo`, of which now the one runs first and now the other. -/
theorem Resolver.expandDocument_reorder_hello :
    ((helloRegistry 5).lookup.resolver.expandDocument ⟨2, false, .ascending⟩ .default
        ⟨[bareCall "echo", bareCall "hello"], 0⟩ ()).Same
      ((helloRegistry 2000).lookup.resolver.expandDocument ⟨2, false, .ascending⟩ .default
        ⟨[bareCall "echo", bareCall "hello"], 0⟩ ()) := by
  have hsame : ((helloRegistry 5).lookup.resolver : Resolver Unit Unit).unranked =
      ((helloRegistry 2000).lookup.resolver : Resolver Unit Unit).unranked := by
    funext identifier dialect state
    by_cases h : identifier = "hello"
    · subst h
      rfl
    · have hne : (identifier == "hello") = false := beq_eq_false_iff_ne.2 h
      simp [unranked, Lookup.resolver, Registry.lookup, Registry.find?, helloRegistry, Registry.registerForAll,
        List.lookup_cons, hne]
  exact expandDocument_reorder.2 _ _ (helloRegistry_ignoresDocument 5) hsame ⟨2, false, .ascending⟩ .ascending
    .default ⟨[bareCall "echo", bareCall "hello"], 0⟩ ()

end MacroDoc
