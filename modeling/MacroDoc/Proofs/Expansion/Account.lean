import MacroDoc.Proofs.Expansion.Reported
import MacroDoc.Proofs.Forest.MarkerCount

/-!
# A report accounts for its document

What a run reports and what it leaves in the document are two views of the same events: attempts that wrote markers,
invocations that the limit of passes froze, and invocations of unknown macros that are left.

* `Progress.stopped` : the invocations that a run froze;
* `Accounts` : the balance of a report, a document and the events of a run;
* `Progress.Follows` : the invariant of a run about the attempts that it has made so far;
* `Resolver.expandDocument_accounts` : the balance of every run that succeeds.
-/

namespace MacroDoc

open Progress

variable {σ : Type}

/-- The macro did not yield a marker. -/
def Attempt.Unmarked (a : Attempt) : Prop :=
  ∀ blocks, a.result = .ok blocks → markersIn blocks = []

def Document.stop (d : Document) (i : PlacedInvocation) : Document :=
  d.set i.path (frozen i.invocation.call)

/-- The invocations that are frozen if a run ends here: none, unless its passes are used up. -/
def Progress.stopped (config : Config) (q : Progress σ) : List PlacedInvocation :=
  if q.report.passes = config.maxDepth then pendingBelow q.markers q.document else []

/-- A report about a run over the document `d` that left the document `d'`. The run made the attempts `log`, and then
froze the invocations `stopped`. -/
structure Accounts (config : Config) (d d' : Document) (log : List Attempt) (stopped : List PlacedInvocation)
    (report : Report) : Prop where
  /-- The run wrote a marker for each attempt, and one for each invocation that it froze. -/
  document : d' = stopped.foldl Document.stop (log.foldl Document.write d)
  attempted : ∀ a ∈ log, ∃ children, d'.get? a.path = some (.node (.marker a.invocation.call) children)
  frozen : ∀ i ∈ stopped, d'.get? i.path = some (frozen i.invocation.call)
  /-- No two of these markers are at one path. -/
  distinct : (log.map (·.path) ++ stopped.map (·.path)).Nodup
  /-- Expansions are attempts, and the errors are those of the attempts that failed. -/
  expansions : report.expansions = log.length
  errors : report.errors = log.filterMap (Attempt.diagnostic? d.sourceId)
  /-- The warnings about the limit are those of the invocations that were frozen. -/
  limits : report.ofKind .recursionLimitExceeded = stopped.map fun i =>
    limitDiagnostic config.maxDepth report.passes d.sourceId i.invocation
  /-- The warnings about unknown macros are those of the invocations that are left. -/
  unknown : ((report.ofKind .unresolvedMacro).map Diagnostic.label).Perm (d'.invocations.map (·.invocation.label))
  /-- If no macro yields a marker, then there are no other new markers. -/
  markers : (∀ a ∈ log, a.Unmarked) →
    d'.markers.length = d.markers.length + report.expansions + (report.ofKind .recursionLimitExceeded).length
  passes_le_maxDepth : report.passes ≤ config.maxDepth
  passes_le_expansions : report.passes ≤ report.expansions

/-- The errors are the diagnostics about a macro or its place. -/
def DiagnosticKind.isError : DiagnosticKind → Bool
  | macroExecution | placement => true
  | unresolvedMacro | recursionLimitExceeded => false

theorem Report.errors_eq_select (r : Report) : r.errors = r.select DiagnosticKind.isError := by
  refine List.filter_congr fun g _ => ?_
  unfold Diagnostic.isWarning DiagnosticKind.isError
  cases g.kind <;> rfl

/-- Below the marker of an attempt stand no markers but those that the macro yields. -/
theorem Attempt.Unmarked.markerCount_children {a : Attempt} (h : a.Unmarked) : markerCount a.children = 0 := by
  unfold Attempt.children
  cases hresult : a.result with
  | ok blocks =>
    show markerCount (forgetSpans blocks) = 0
    rw [markerCount_forgetSpans, ← length_markersIn, h blocks hresult, List.length_nil]
  | error fault => simp [Fault.notice]

theorem length_markers_freeze (markers : List Path) (d : Document) :
    (freeze markers d).markers.length = d.markers.length + (pendingBelow markers d).length := by
  have hfrozen := (freeze_marked markers d).length_markers (by
    rintro _ i children hchildren
    obtain rfl : children = _ := hchildren
    simp)
  rwa [List.length_map] at hfrozen

namespace Progress

variable {resolver : Resolver σ σ} {lookup : Lookup σ} {config : Config} {dialect : Dialect} {d : Document}
  {p q : Progress σ} {k : Nat} {log : List Attempt} {report : Report}

/-- The attempts so far account for the document and for the report, but for the warnings about unknown macros. -/
structure Follows (d : Document) (log : List Attempt) (q : Progress σ) : Prop where
  document : q.document = log.foldl Document.write d
  attempted : ∀ a ∈ log, ∃ children, q.document.get? a.path = some (.node (.marker a.invocation.call) children)
  distinct : (log.map (·.path)).Nodup
  expansions : q.report.expansions = log.length
  errors : q.report.errors = log.filterMap (Attempt.diagnostic? d.sourceId)
  limits : q.report.ofKind .recursionLimitExceeded = []
  markers : (∀ a ∈ log, a.Unmarked) → q.document.markers.length = d.markers.length + log.length
  passes : q.report.passes ≤ log.length

theorem Follows.start (d : Document) (state : σ) : Follows d [] (.start d state) where
  document := rfl
  attempted := nofun
  distinct := List.nodup_nil
  expansions := rfl
  errors := rfl
  limits := rfl
  markers _ := rfl
  passes := Nat.le_refl 0

theorem Follows.sourceId (h : Follows d log q) : q.document.sourceId = d.sourceId := by
  rw [h.document, Document.sourceId_foldl_write]

/-- There are markers at the paths of the attempts, so that no invocation is at one of these. -/
theorem Follows.nodup_append (h : Follows d log q) {paths : List Path} (hnodup : paths.Nodup)
    (hinv : ∀ path ∈ paths, q.document.Invokes path) : (log.map (·.path) ++ paths).Nodup := by
  rw [List.nodup_append]
  refine ⟨h.distinct, hnodup, ?_⟩
  rintro path hold _ hnew rfl
  obtain ⟨a, ha, rfl⟩ := List.mem_map.1 hold
  obtain ⟨children, hmarker⟩ := h.attempted a ha
  obtain ⟨i, hinvocation⟩ := hinv _ hnew
  rw [hmarker] at hinvocation
  cases hinvocation

theorem Follows.step (h : Follows d log p) (hstep : Step resolver config dialect p q) :
    Follows d (log ++ resolver.attempts config dialect (p.report.passes + 1) (p.document, p.state)) q := by
  obtain ⟨resolution, -, -, -, hadds⟩ := hstep.adds
  have hnodup := hstep.nodup
  have hwork := hstep.markers_ne_nil
  have hmarked := hstep.marked_attempts
  rw [hadds.markers] at hnodup hwork hmarked
  constructor
  case document =>
    rw [hadds.document, h.document, List.foldl_append]
  case attempted =>
    intro a ha
    rcases List.mem_append.1 ha with hold | hnew
    · obtain ⟨children, hmarker⟩ := h.attempted a hold
      exact hstep.extends.marker hmarker
    · exact hstep.exists_marker hnew
  case distinct =>
    rw [List.map_append]
    exact h.nodup_append hnodup fun path hpath => hstep.invokes (hadds.markers ▸ hpath)
  case expansions =>
    rw [hadds.expansions, h.expansions, List.length_append]
  case errors =>
    rw [Report.errors_eq_select, hadds.select rfl, select_reportUnresolved, ← Report.errors_eq_select, h.errors,
      h.sourceId]
    simp [DiagnosticKind.isError]
  case limits =>
    rw [Report.ofKind_eq_select, hadds.select rfl, select_reportUnresolved, ← Report.ofKind_eq_select, h.limits]
    rfl
  case markers =>
    intro hunmarked
    have hbefore := h.markers fun a ha => hunmarked a (List.mem_append_left _ ha)
    have hpass := hmarked.length_markers (by
      rintro _ _ _ ⟨a, ha, -, -, rfl⟩
      exact (hunmarked a (List.mem_append_right _ ha)).markerCount_children)
    rw [hpass, hbefore, List.length_map, List.length_append, Nat.add_assoc]
  case passes =>
    have hpos := List.length_pos_iff.2 hwork
    rw [List.length_map] at hpos
    have hpasses := h.passes
    rw [hadds.passes, List.length_append]
    omega

theorem Steps.follows {state : σ} (h : Steps resolver config dialect (.start d state) k q) :
    Follows d (resolver.history config dialect (d, state) k) q :=
  h.preserves_history (fun log q => Follows d log q) (.start d state) fun _ _ _ hstep hp => hp.step hstep

/-! ## How a run ends -/

theorem stopped_of_lt (h : q.report.passes < config.maxDepth) : q.stopped config = [] :=
  if_neg (Nat.ne_of_lt h)

theorem stopped_of_eq (h : q.report.passes = config.maxDepth) :
    q.stopped config = pendingBelow q.markers q.document :=
  if_pos h

/-- A run that ends because its passes are used up freezes what is pending. -/
theorem Follows.stop (h : Follows d log q) (hok : (q.stop config.maxDepth).result = .ok report)
    (hunknown : ((report.ofKind .unresolvedMacro).map Diagnostic.label).Perm
      ((freeze q.markers q.document).invocations.map (·.invocation.label)))
    (hfull : q.report.passes = config.maxDepth) :
    Accounts config d (freeze q.markers q.document) log (pendingBelow q.markers q.document) report := by
  have hpasses : report.passes = q.report.passes := by cases hok; rfl
  have hexpansions : report.expansions = q.report.expansions := by cases hok; rfl
  have hlimits : report.ofKind .recursionLimitExceeded = (pendingBelow q.markers q.document).map fun i =>
      limitDiagnostic config.maxDepth report.passes d.sourceId i.invocation := by
    rw [Report.ofKind_eq_select, select_stop hok, ← Report.ofKind_eq_select, h.limits, h.sourceId, hpasses]
    rfl
  have hextends := (freeze_marked q.markers q.document).extends
  constructor
  case document =>
    rw [← h.document]
    rfl
  case attempted =>
    intro a ha
    obtain ⟨children, hmarker⟩ := h.attempted a ha
    exact hextends.marker hmarker
  case frozen =>
    exact fun i hi => get?_freeze hi
  case distinct =>
    exact h.nodup_append (nodup_paths_pendingBelow _ _) (invokes_of_mem_pendingBelow _ _)
  case expansions =>
    rw [hexpansions, h.expansions]
  case errors =>
    rw [Report.errors_eq_select, select_stop hok, ← Report.errors_eq_select, h.errors]
    exact List.append_nil _
  case limits =>
    exact hlimits
  case unknown =>
    exact hunknown
  case markers =>
    intro hunmarked
    rw [length_markers_freeze, h.markers hunmarked, hexpansions, h.expansions, hlimits, List.length_map]
  case passes_le_maxDepth =>
    exact Nat.le_of_eq (hpasses.trans hfull)
  case passes_le_expansions =>
    rw [hpasses, hexpansions, h.expansions]
    exact h.passes

theorem Follows.finish (h : Follows d log q) (unresolved : List UnresolvedInvocation)
    (hunknown : (((q.reportUnresolved dialect unresolved).report.ofKind .unresolvedMacro).map Diagnostic.label).Perm
      (q.document.invocations.map (·.invocation.label)))
    (hearly : q.report.passes < config.maxDepth) :
    Accounts config d q.document log [] (q.reportUnresolved dialect unresolved).report := by
  have hlimits : (q.reportUnresolved dialect unresolved).report.ofKind .recursionLimitExceeded = [] := by
    rw [Report.ofKind_eq_select, select_reportUnresolved, ← Report.ofKind_eq_select, h.limits]
    rfl
  constructor
  case document =>
    exact h.document
  case attempted =>
    exact h.attempted
  case frozen =>
    nofun
  case distinct =>
    rw [List.map_nil, List.append_nil]
    exact h.distinct
  case expansions =>
    exact h.expansions
  case errors =>
    rw [Report.errors_eq_select, select_reportUnresolved, ← Report.errors_eq_select, h.errors]
    exact List.append_nil _
  case limits =>
    exact hlimits
  case unknown =>
    exact hunknown
  case markers =>
    intro hunmarked
    rw [hlimits, h.markers hunmarked, ← h.expansions]
    rfl
  case passes_le_maxDepth =>
    exact Nat.le_of_lt hearly
  case passes_le_expansions =>
    exact h.expansions ▸ h.passes

end Progress

/-! ## Whole runs -/

/-- For a registry that answers by a lookup, and for any macros: the report of a run that succeeds accounts for what it
leaves. The events are the attempts of its passes, and the invocations that it froze after the last of them. -/
theorem Resolver.expandDocument_accounts {resolver : Resolver σ σ} {lookup : Lookup σ} (ha : resolver.Answers lookup)
    {config : Config} {dialect : Dialect} {d : Document} {state : σ} {report : Report}
    (hok : (resolver.expandDocument config dialect d state).result = .ok report) :
    ∃ last, Steps resolver config dialect (.start d state) report.passes last ∧
      Accounts config d (resolver.expandDocument config dialect d state).document
        (resolver.history config dialect (d, state) report.passes) (last.stopped config) report := by
  have hconfig : config.maxDepth ≠ 0 := maxDepth_of_ok hok
  obtain ⟨k, q, hsteps, hends⟩ := resolver.exists_ends hconfig dialect d state
  have hnumber : q.report.passes = k := by
    rw [hsteps.passes]
    exact Nat.zero_add k
  have hpasses : report.passes = k := (hends.passes hok).trans hnumber
  have hunknown := hends.warnings_perm ha hconfig hsteps hok
  have hfollows := hsteps.follows
  rw [hpasses]
  refine ⟨q, hsteps, ?_⟩
  generalize resolver.expandDocument config dialect d state = run at hends hok hunknown ⊢
  cases hends with
  | unavailable => cases hok
  | unknown => cases hok
  | converged early _ _ idle =>
    cases hok
    rw [stopped_of_lt (hnumber ▸ early)]
    exact hfollows.finish _ hunknown (hnumber ▸ early)
  | stopped full =>
    rw [stopped_of_eq (hnumber.trans full)]
    exact hfollows.stop hok hunknown (hnumber.trans full)

/-- Two passes over a call of `echo` and one of `other` write two markers, and both calls below the second are frozen.
The calls of `other` at the top and below the first are left. -/
theorem Resolver.expandDocument_accounts_echo :
    ∃ report last, echoRun.result = .ok report ∧ report.passes = 2 ∧ report.expansions = 2 ∧
      report.diagnostics.map (·.kind) =
        [.unresolvedMacro, .unresolvedMacro, .recursionLimitExceeded, .recursionLimitExceeded] ∧
      Steps echoRegistry.lookup.resolver ⟨2, false, .ascending⟩ .default (.start echoDocument ()) report.passes last ∧
      Accounts ⟨2, false, .ascending⟩ echoDocument echoRun.document
        (echoRegistry.lookup.resolver.history ⟨2, false, .ascending⟩ .default (echoDocument, ()) report.passes)
        (last.stopped ⟨2, false, .ascending⟩) report := by
  have hlookup : (echoRegistry.lookup.resolver : Resolver Unit Unit).Answers echoRegistry.lookup :=
    Lookup.answers_resolver _
  obtain ⟨report, hok⟩ := echoRun_isOk
  have hreport : echoRun.result.toOption.map (fun report =>
      (report.passes, report.expansions, report.diagnostics.map (·.kind))) =
        some (2, 2, [.unresolvedMacro, .unresolvedMacro, .recursionLimitExceeded, .recursionLimitExceeded]) := by
    decide +kernel
  rw [hok] at hreport
  obtain ⟨hpasses, hcounts⟩ := Prod.mk.inj (Option.some.inj hreport)
  obtain ⟨hexpansions, hdiagnostics⟩ := Prod.mk.inj hcounts
  obtain ⟨last, hsteps, haccounts⟩ := expandDocument_accounts hlookup hok
  exact ⟨report, last, hok, hpasses, hexpansions, hdiagnostics, hsteps, haccounts⟩

end MacroDoc
