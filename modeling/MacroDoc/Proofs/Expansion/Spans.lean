import MacroDoc.Proofs.Expansion.Attempts
import MacroDoc.Proofs.Expansion.Frame

/-!
# Spans point into the source of the document

A span is a range of the text that the document was read from. What macros yield was read from other texts, so it has
no spans, and whatever is reported with a span is an invocation that the document had at the start.

* `Block.descend?_forgetSpans`, `Produced.span_eq_none` : no span stands below a marker;
* `Diagnostic.PointsInto` : the span of a diagnostic is that of an invocation of a document;
* `Progress.Sourced` : the invariant of a run: an invocation with a span is one of those at the start, where it was;
* `Resolver.expandDocument_spans` : all of it for a whole run.
-/

namespace MacroDoc

open Progress

variable {σ : Type}

/-! ## Blocks without spans -/

theorem forgetSpans_eq_map (blocks : List Block) : forgetSpans blocks = blocks.map Block.forgetSpans := by
  induction blocks with
  | nil => rfl
  | cons b blocks ih => rw [forgetSpans, ih, List.map_cons]

/-- What stands at a path is the same but for its spans. -/
theorem Block.descend?_forgetSpans (b : Block) (path : List Nat) :
    b.forgetSpans.descend? path = (b.descend? path).map Block.forgetSpans := by
  induction path generalizing b with
  | nil => rfl
  | cons j path ih =>
    cases b with
    | leaf l => cases l <;> rfl
    | node c children =>
      rw [Block.forgetSpans, forgetSpans_eq_map, descend?_node_cons, descend?_node_cons, List.getElem?_map]
      cases children[j]? with
      | none => rfl
      | some child => exact ih child

theorem Block.span_eq_none_of_forgetSpans {b : Block} {i : Invocation}
    (h : b.forgetSpans = .leaf (.invocation i)) : i.span = none := by
  cases b with
  | leaf l =>
    cases l with
    | invocation j =>
      cases h
      rfl
    | _ => cases h
  | node c children => cases h

theorem Produced.span_eq_none {path : Path} {i j : Invocation} {children : List Block} (h : Produced path i children)
    {call : Call} {r : List Nat}
    (hr : (Block.node (.marker call) children).descend? r = some (.leaf (.invocation j))) : j.span = none := by
  rcases h with ⟨blocks, rfl⟩ | ⟨fault, rfl⟩
  · have hmarker : (Block.node (.marker call) (forgetSpans blocks)) = (Block.node (.marker call) blocks).forgetSpans :=
      rfl
    rw [hmarker, Block.descend?_forgetSpans] at hr
    obtain ⟨b, -, hb⟩ := Option.map_eq_some_iff.1 hr
    exact Block.span_eq_none_of_forgetSpans hb
  · -- The notice is the only block below the marker.
    match r with
    | [] => simp at hr
    | [0] => simp [Fault.notice] at hr
    | 0 :: k :: r => simp [Fault.notice] at hr
    | (k + 1) :: r => simp at hr

/-! ## What a run reports -/

/-- The span is that of an invocation of the document that calls the macro. -/
def Document.HasSpan (d : Document) (identifier : String) (span : Span) : Prop :=
  ∃ i ∈ d.invocations, i.invocation.identifier = identifier ∧ i.invocation.span = some span

/-- The diagnostic is about the source of the document, and its span, if it has one, is that of an invocation of the
document that calls its macro. -/
def Diagnostic.PointsInto (g : Diagnostic) (d : Document) : Prop :=
  g.sourceId = d.sourceId ∧ ∀ span, g.span = some span → d.HasSpan g.identifier span

namespace Progress

variable {resolver : Resolver σ σ} {config : Config} {dialect : Dialect} {d : Document} {p q : Progress σ} {k : Nat}

/-- What holds of spans during a run that started with `d`. -/
structure Sourced (d : Document) (q : Progress σ) : Prop where
  frame : d.Extends q.document
  /-- An invocation with a span is one of those at the start, where it was. -/
  spans : ∀ path i, q.document.get? path = some (.leaf (.invocation i)) →
    i.span = none ∨ d.get? path = some (.leaf (.invocation i))
  diagnostics : ∀ g ∈ q.report.diagnostics, g.PointsInto d ∧ g.kind ≠ .recursionLimitExceeded

theorem Sourced.start (d : Document) (state : σ) : Sourced d (.start d state) where
  frame := .refl d
  spans _ _ hi := .inr hi
  diagnostics g hg := by cases hg

theorem Sourced.hasSpan (h : Sourced d q) {path : Path} {i : Invocation}
    (hi : q.document.get? path = some (.leaf (.invocation i))) {span : Span} (hspan : i.span = some span) :
    d.HasSpan i.identifier span := by
  rcases h.spans path i hi with hnone | hstart
  · rw [hnone] at hspan
    cases hspan
  · exact ⟨_, Document.mem_invocations_of_get? hstart, rfl, hspan⟩

theorem Sourced.hasSpan_of_unresolved (h : Sourced d q) {resolution : Resolution σ}
    (hlookups : (resolver.resolve dialect q.document q.state).1 = .ok resolution) {u : UnresolvedInvocation}
    (hu : u ∈ resolution.unresolved) {span : Span} (hspan : u.span = some span) : d.HasSpan u.identifier span := by
  obtain ⟨i, hi, rfl⟩ := Resolver.exists_of_mem_unresolved hlookups hu
  exact h.hasSpan (Document.mem_invocations.1 hi).1 hspan

theorem Sourced.pointsInto_of_fresh (h : Sourced d q) {resolution : Resolution σ}
    (hlookups : (resolver.resolve dialect q.document q.state).1 = .ok resolution) {number : Nat} {g : Diagnostic}
    (hg : g ∈ (q.fresh resolution.unresolved).map (unresolvedDiagnostic dialect number q.document.sourceId)) :
    g.PointsInto d ∧ g.kind ≠ .recursionLimitExceeded := by
  obtain ⟨u, hu, rfl⟩ := List.mem_map.1 hg
  exact ⟨⟨h.frame.sourceId, fun span hspan => h.hasSpan_of_unresolved hlookups (List.mem_filter.1 hu).1 hspan⟩,
    by simp [unresolvedDiagnostic]⟩

theorem Sourced.pointsInto_of_attempt (h : Sourced d q) {a : Attempt}
    (ha : q.document.get? a.path = some (.leaf (.invocation a.invocation))) {g : Diagnostic}
    (hg : a.diagnostic? q.document.sourceId = some g) : g.PointsInto d ∧ g.kind ≠ .recursionLimitExceeded := by
  obtain ⟨fault, -, rfl⟩ := Attempt.diagnostic?_eq_some.1 hg
  refine ⟨⟨h.frame.sourceId, fun span hspan => h.hasSpan ha hspan⟩, ?_⟩
  rcases fault.kind_eq with hkind | hkind <;> simp [hkind]

theorem Step.sourced (h : Step resolver config dialect p q) (hp : Sourced d p) : Sourced d q where
  frame := hp.frame.trans h.extends
  spans path i hi := by
    rcases h.marked.eq_invocation (fun m hm => h.invokes hm) h.nodup hi with
      ⟨-, hbefore⟩ | ⟨m, -, -, j, children, r, hproduced, -, hr⟩
    · exact hp.spans path i hbefore
    · exact .inl (hproduced.span_eq_none hr)
  diagnostics g hg := by
    obtain ⟨resolution, hlookups, -, -, hadds⟩ := h.adds
    rw [hadds.diagnostics, List.mem_append, List.mem_append] at hg
    rcases hg with (hg | hg) | hg
    · exact hp.diagnostics g hg
    · exact hp.pointsInto_of_fresh hlookups hg
    · obtain ⟨a, ha, hga⟩ := List.mem_filterMap.1 hg
      exact hp.pointsInto_of_attempt (Resolver.get?_of_mem_attempts ha) hga

/-- No invocation below a marker that the run wrote has a span. -/
def Spanless (log : List Attempt) (q : Progress σ) : Prop :=
  ∀ a ∈ log, ∀ i ∈ q.document.invocations, a.path.isAncestorOf i.path = true → i.invocation.span = none

/-- A marker that a run wrote is above no path of the document at its start. -/
theorem Sourced.spanless (h : Sourced d q) {log : List Attempt}
    (hlog : ∀ a ∈ log, ∀ path, (d.get? path).isSome → a.path.isAncestorOf path = false) : Spanless log q := by
  intro a ha i hi hanc
  rcases h.spans i.path i.invocation (Document.mem_invocations.1 hi).1 with hnone | hstart
  · exact hnone
  · rw [hlog a ha i.path (by simp [hstart])] at hanc
    cases hanc

theorem Steps.sourced {state : σ} (h : Steps resolver config dialect (.start d state) k q) :
    Sourced d q ∧ Spanless (resolver.history config dialect (d, state) k) q := by
  have hinv : Sourced d q ∧ ∀ a ∈ resolver.history config dialect (d, state) k, ∀ path, (d.get? path).isSome →
      a.path.isAncestorOf path = false := by
    apply h.preserves_history fun log q =>
      Sourced d q ∧ ∀ a ∈ log, ∀ path, (d.get? path).isSome → a.path.isAncestorOf path = false
    · exact ⟨.start d state, fun a ha => by cases ha⟩
    · rintro log p q hstep ⟨hp, hlog⟩
      refine ⟨hstep.sourced hp, fun a ha path hpath => ?_⟩
      rcases List.mem_append.1 ha with ha | ha
      · exact hlog a ha path hpath
      · have hinvokes : p.document.Invokes a.path := ⟨_, Resolver.get?_of_mem_attempts ha⟩
        exact hinvokes.isAncestorOf_eq_false (hp.frame.isSome_get? hpath)
  exact ⟨hinv.1, hinv.1.spanless hinv.2⟩

theorem Ends.sourced {state : σ} (hsteps : Steps resolver config dialect (.start d state) k q) {run : Run σ}
    (h : Ends resolver config dialect k q run) :
    (∀ report, run.result = .ok report → ∀ g ∈ report.diagnostics,
      g.PointsInto d ∧ (g.kind = .recursionLimitExceeded → g.span = none)) ∧
    ∀ identifier target span, run.result = .error (.unresolvedMacro identifier target (some span)) →
      d.HasSpan identifier span := by
  obtain ⟨hq, hspanless⟩ := hsteps.sourced
  have hearlier : ∀ g ∈ q.report.diagnostics, g.PointsInto d ∧ (g.kind = .recursionLimitExceeded → g.span = none) :=
    fun g hg => (hq.diagnostics g hg).imp_right fun hne heq => absurd heq hne
  cases h with
  | unavailable early lookups =>
    refine ⟨nofun, fun identifier target span herror => ?_⟩
    obtain ⟨i, cause, -, he⟩ := (resolveFrom_eq_error resolver dialect 0 _ q.state _).1 (congrArg Prod.fst lookups)
    cases (Except.error.inj herror).symm.trans he
  | unknown early lookups strict unresolved =>
    refine ⟨nofun, fun identifier target span herror => ?_⟩
    obtain ⟨rfl, -, hspan⟩ := ExpansionError.unresolvedMacro.inj (Except.error.inj herror)
    exact hq.hasSpan_of_unresolved (congrArg Prod.fst lookups) (unresolved ▸ List.mem_cons_self) hspan
  | converged early lookups lenient idle =>
    refine ⟨?_, nofun⟩
    rintro report ⟨⟩ g hg
    rcases List.mem_append.1 hg with hg | hg
    · exact hearlier g hg
    · have hfresh := hq.pointsInto_of_fresh (congrArg Prod.fst lookups) hg
      exact hfresh.imp_right fun hne heq => absurd heq hne
  | stopped full =>
    refine ⟨?_, nofun⟩
    rintro report ⟨⟩ g hg
    rcases List.mem_append.1 hg with hg | hg
    · exact hearlier g hg
    · obtain ⟨i, hi, rfl⟩ := List.mem_map.1 hg
      obtain ⟨hi, m, hm, hanc⟩ := mem_pendingBelow.1 hi
      obtain ⟨a, ha, rfl⟩ := hsteps.mem_history hm
      have hnone : i.invocation.span = none := hspanless a ha i hi hanc
      refine ⟨⟨hq.frame.sourceId, fun span hspan => ?_⟩, fun _ => hnone⟩
      have hsome : i.invocation.span = some span := hspan
      rw [hnone] at hsome
      cases hsome

end Progress

/-! ## Whole runs -/

/-- For any registry, any macros and any configuration: after each pass, no invocation below a marker that the run
wrote has a span. A diagnostic is about the source of the document, and its span is that of an invocation which the
document had at the start and which calls the same macro; so is the span of the error that a macro is unknown. What
the limit of passes leaves unexpanded is reported without a span. -/
theorem Resolver.expandDocument_spans (resolver : Resolver σ σ) (config : Config) (dialect : Dialect) (d : Document)
    (state : σ) :
    let run := resolver.expandDocument config dialect d state
    (∀ k q, Steps resolver config dialect (.start d state) k q →
      Spanless (resolver.history config dialect (d, state) k) q) ∧
    (∀ report, run.result = .ok report → ∀ g ∈ report.diagnostics,
      g.PointsInto d ∧ (g.kind = .recursionLimitExceeded → g.span = none)) ∧
    ∀ identifier target span, run.result = .error (.unresolvedMacro identifier target (some span)) →
      d.HasSpan identifier span := by
  intro run
  refine ⟨fun k q hsteps => hsteps.sourced.2, ?_⟩
  by_cases hconfig : config.maxDepth = 0
  · have hrun : run = (Progress.start d state).fail (.invalidConfig .zeroMaxDepth) :=
      expandDocument_of_zero resolver hconfig dialect d state
    rw [hrun]
    exact ⟨nofun, nofun⟩
  · obtain ⟨k, q, hsteps, hends⟩ := resolver.exists_ends hconfig dialect d state
    exact hends.sourced hsteps

def spannedDocument : Document :=
  ⟨[.leaf (.invocation ⟨⟨"echo", .empty, none⟩, .default, some ⟨0, 9⟩⟩),
    .leaf (.invocation ⟨⟨"other", .empty, none⟩, .default, some ⟨10, 20⟩⟩)], 7⟩

/-- One pass over it reports the call of `other` with its span, and the calls below the marker of `echo` without. -/
theorem Resolver.expandDocument_spans_echo :
    let run := echoRegistry.lookup.resolver.expandDocument ⟨1, false, .ascending⟩ .default spannedDocument ()
    ∃ report, run.result = .ok report ∧
      report.diagnostics.map (fun g => (g.kind, g.identifier, g.span)) =
        [(.unresolvedMacro, "other", some ⟨10, 20⟩), (.recursionLimitExceeded, "echo", none),
          (.recursionLimitExceeded, "other", none)] ∧
      ∀ g ∈ report.diagnostics, g.PointsInto spannedDocument := by
  intro run
  obtain ⟨report, hreport⟩ : ∃ report, run.result = .ok report := Run.error?_eq_none.1 (by decide +kernel)
  have hdiagnostics : run.result.toOption.map (fun report => report.diagnostics.map fun g =>
      (g.kind, g.identifier, g.span)) = some [(.unresolvedMacro, "other", some ⟨10, 20⟩),
        (.recursionLimitExceeded, "echo", none), (.recursionLimitExceeded, "other", none)] := by decide +kernel
  obtain ⟨-, hpoints, -⟩ := expandDocument_spans echoRegistry.lookup.resolver ⟨1, false, .ascending⟩ .default
    spannedDocument ()
  rw [hreport] at hdiagnostics
  exact ⟨report, hreport, Option.some.inj hdiagnostics, fun g hg => (hpoints report hreport g hg).1⟩

end MacroDoc
