import Mathlib.Data.List.Nodup
import MacroDoc.Macros.Standard
import MacroDoc.Proofs.Expansion.Attempts
import MacroDoc.Proofs.Expansion.Frame

/-!
# What is reported as unknown

A run remembers the paths of the unknown invocations that it has reported. Every pass meets them again, and nothing
else ever stands at their paths, so the paths tell old from new.

* `Progress.mem_append_fresh`, `Progress.Adds.mem_reported` : what is reported after a pass;
* `Progress.Standing` : the invariant that reported paths stay in the document;
* `Progress.Step.reported_iff` : after a pass, what is not reported is what stands below its markers;
* `Report.select`, `Report.ofKind` : the diagnostics of some kinds, as a resolution, a pass and the limit add to them;
* `Progress.Lists` : the invariant that the warnings about unknown macros list invocations of the document;
* `Progress.Ends.warnings_perm` : after a run that succeeds, they list all of them;
* `Resolver.late` : a registry with which what was reported is expanded later.
-/

namespace MacroDoc

namespace Progress

variable {σ : Type} {resolver : Resolver σ σ} {config : Config} {dialect : Dialect} {p q : Progress σ} {k : Nat}

/-- All that is unresolved is reported, unless it is reported already. -/
theorem mem_append_fresh {unresolved : List UnresolvedInvocation} {path : Path} :
    path ∈ p.reported ++ (p.fresh unresolved).map (·.path) ↔
      path ∈ p.reported ∨ ∃ u ∈ unresolved, u.path = path := by
  rw [List.mem_append, fresh]
  simp only [List.mem_map, List.mem_filter, decide_eq_true_eq]
  constructor
  · rintro (hold | ⟨u, ⟨hu, -⟩, hpath⟩)
    · exact .inl hold
    · exact .inr ⟨u, hu, hpath⟩
  · rintro (hold | ⟨u, hu, rfl⟩)
    · exact .inl hold
    · by_cases hold : u.path ∈ p.reported
      · exact .inl hold
      · exact .inr ⟨u, ⟨hu, hold⟩, rfl⟩

theorem Adds.mem_reported {unresolved : List UnresolvedInvocation} {log : List Attempt}
    (h : Adds dialect unresolved log p q) {path : Path} :
    path ∈ q.reported ↔ path ∈ p.reported ∨ ∃ u ∈ unresolved, u.path = path := by
  rw [h.reported, mem_append_fresh]

def Standing (q : Progress σ) : Prop :=
  ∀ path ∈ q.reported, (q.document.get? path).isSome

theorem Step.isSome_of_reported (h : Step resolver config dialect p q) (hp : p.Standing) {path : Path}
    (hpath : path ∈ q.reported) : (p.document.get? path).isSome := by
  obtain ⟨resolution, hlookups, -, -, hadds⟩ := h.adds
  rcases hadds.mem_reported.1 hpath with hold | ⟨u, hu, rfl⟩
  · exact hp path hold
  · obtain ⟨i, hi, rfl⟩ := Resolver.exists_of_mem_unresolved hlookups hu
    show (p.document.get? i.path).isSome
    simp [(Document.mem_invocations.1 hi).1]

theorem Step.standing (h : Step resolver config dialect p q) (hp : p.Standing) : q.Standing :=
  fun _ hpath => h.extends.isSome_get? (h.isSome_of_reported hp hpath)

theorem Steps.standing {d : Document} {state : σ} (h : Steps resolver config dialect (.start d state) k q) :
    q.Standing :=
  h.preserves (fun _ _ hstep hp => hstep.standing hp) (fun path hpath => by cases hpath)

/-- What is left after a pass and stands below none of its markers was unresolved in it, and is reported. -/
theorem Step.left_reported (h : Step resolver config dialect p q) :
    ∃ resolution, (resolver.resolve dialect p.document p.state).1 = .ok resolution ∧
      (config.strict = true → resolution.unresolved = []) ∧
      ∀ i ∈ q.document.invocations, (∀ m ∈ q.markers, m.isAncestorOf i.path = false) →
        i.unresolved ∈ resolution.unresolved ∧ i.path ∈ q.reported := by
  obtain ⟨resolution, hlookups, hlenient, -, hadds⟩ := h.adds
  obtain ⟨resolution', hlookups', -, hleft⟩ := h.left
  obtain rfl : resolution = resolution' := Except.ok.inj (hlookups.symm.trans hlookups')
  refine ⟨resolution, hlookups, hlenient, ?_⟩
  intro i hi huncovered
  rcases hleft i hi with ⟨m, hm, hanc⟩ | hunresolved
  · rw [huncovered m hm] at hanc
    cases hanc
  · exact ⟨hunresolved, hadds.mem_reported.2 (.inr ⟨_, hunresolved, rfl⟩)⟩

/-- After a pass, an invocation is reported unless it stands below a marker of the pass. -/
theorem Step.reported_iff (h : Step resolver config dialect p q) (hp : p.Standing) {i : PlacedInvocation}
    (hi : i ∈ q.document.invocations) : i.path ∈ q.reported ↔ ∀ m ∈ q.markers, m.isAncestorOf i.path = false := by
  constructor
  · intro hpath m hm
    exact (h.invokes hm).isAncestorOf_eq_false (h.isSome_of_reported hp hpath)
  · intro huncovered
    obtain ⟨resolution, -, -, hleft⟩ := h.left_reported
    exact (hleft i hi huncovered).2

theorem Steps.reported_iff {d : Document} {state : σ} (h : Steps resolver config dialect (.start d state) k q)
    (hk : k ≠ 0) {i : PlacedInvocation} (hi : i ∈ q.document.invocations) :
    i.path ∈ q.reported ↔ ∀ m ∈ q.markers, m.isAncestorOf i.path = false := by
  cases h with
  | refl => exact absurd rfl hk
  | tail steps step => exact step.reported_iff steps.standing hi

end Progress

/-! ## Diagnostics by kind -/

/-- The diagnostics of the kinds that `f` selects. -/
def Report.select (r : Report) (f : DiagnosticKind → Bool) : List Diagnostic :=
  r.diagnostics.filter fun g => f g.kind

def Report.ofKind (r : Report) (kind : DiagnosticKind) : List Diagnostic :=
  r.diagnostics.filter fun g => g.kind = kind

theorem Report.ofKind_eq_select (r : Report) (kind : DiagnosticKind) : r.ofKind kind = r.select (· = kind) := rfl

theorem filter_map_of_kind {α : Type} {g : α → Diagnostic} {kind : DiagnosticKind} (hg : ∀ x, (g x).kind = kind)
    (f : DiagnosticKind → Bool) (xs : List α) :
    (xs.map g).filter (fun d => f d.kind) = if f kind then xs.map g else [] := by
  split
  · next hf => simp [List.filter_eq_self, hg, hf]
  · next hf => simp [List.filter_eq_nil_iff, hg, hf]

namespace Progress

variable {σ : Type} {dialect : Dialect} {p q : Progress σ}

theorem select_reportUnresolved (p : Progress σ) (dialect : Dialect) (unresolved : List UnresolvedInvocation)
    (f : DiagnosticKind → Bool) :
    (p.reportUnresolved dialect unresolved).report.select f = p.report.select f ++
      if f .unresolvedMacro then (p.fresh unresolved).map
        (unresolvedDiagnostic dialect (p.report.passes + 1) p.document.sourceId) else [] := by
  rw [← filter_map_of_kind (g := unresolvedDiagnostic dialect (p.report.passes + 1) p.document.sourceId)
    (fun _ => rfl) f]
  exact List.filter_append ..

theorem Adds.select {unresolved : List UnresolvedInvocation} {log : List Attempt}
    (h : Adds dialect unresolved log p q) {f : DiagnosticKind → Bool} (hf : f .placement = f .macroExecution) :
    q.report.select f = (p.reportUnresolved dialect unresolved).report.select f ++
      if f .macroExecution then log.filterMap (Attempt.diagnostic? p.document.sourceId) else [] := by
  have herrors : ∀ g ∈ log.filterMap (Attempt.diagnostic? p.document.sourceId), f g.kind = f .macroExecution := by
    intro g hg
    rcases Attempt.kind_of_mem_diagnostics hg with hkind | hkind
    · rw [hkind, hf]
    · rw [hkind]
  rw [Report.select, h.diagnostics_eq, List.filter_append, List.filter_congr herrors]
  refine congrArg _ ?_
  split
  · next hselected => rw [List.filter_eq_self.2 fun _ _ => hselected]
  · next hselected => rw [List.filter_eq_nil_iff.2 fun _ _ => hselected]

theorem select_stop {limit : Nat} {report : Report} (hok : (q.stop limit).result = .ok report)
    (f : DiagnosticKind → Bool) :
    report.select f = q.report.select f ++
      if f .recursionLimitExceeded then (pendingBelow q.markers q.document).map fun i =>
        limitDiagnostic limit q.report.passes q.document.sourceId i.invocation else [] := by
  cases hok
  have hlimits := filter_map_of_kind
    (g := fun i : PlacedInvocation => limitDiagnostic limit q.report.passes q.document.sourceId i.invocation)
    (fun _ => rfl) f (pendingBelow q.markers q.document)
  rw [← hlimits]
  exact List.filter_append ..

end Progress

/-! ## Warnings about unknown macros -/

/-- The macro that a diagnostic is about, and where it was called. -/
def Diagnostic.label (g : Diagnostic) : String × Option Span :=
  (g.identifier, g.span)

def Invocation.label (i : Invocation) : String × Option Span :=
  (i.identifier, i.span)

def UnresolvedInvocation.label (u : UnresolvedInvocation) : String × Option Span :=
  (u.identifier, u.span)

def UnresolvedInvocation.StandsIn (u : UnresolvedInvocation) (d : Document) : Prop :=
  ∃ i : Invocation, d.get? u.path = some (.leaf (.invocation i)) ∧ i.label = u.label

theorem PlacedInvocation.unresolved_standsIn {d : Document} {i : PlacedInvocation} (hi : i ∈ d.invocations) :
    i.unresolved.StandsIn d :=
  ⟨i.invocation, (Document.mem_invocations.1 hi).1, rfl⟩

theorem UnresolvedInvocation.StandsIn.eq_unresolved {u : UnresolvedInvocation} {d : Document} (h : u.StandsIn d)
    {i : PlacedInvocation} (hi : i ∈ d.invocations) (hpath : u.path = i.path) : u = i.unresolved := by
  obtain ⟨j, hj, hlabel⟩ := h
  rw [hpath, (Document.mem_invocations.1 hi).1] at hj
  obtain rfl : i.invocation = j := by simpa using hj
  obtain ⟨path, identifier, span⟩ := u
  obtain ⟨rfl, rfl⟩ := Prod.mk.inj hlabel
  obtain rfl : path = i.path := hpath
  rfl

namespace Progress

variable {σ : Type} {resolver : Resolver σ σ} {lookup : Lookup σ} {config : Config} {dialect : Dialect}
  {p q : Progress σ} {k : Nat} {d d' : Document} {reported : List Path} {report report' : Report}
  {listed : List UnresolvedInvocation}

/-- The unknown invocations `listed` are at the reported paths of the document, and each has one warning. -/
structure Lists (lookup : Lookup σ) (dialect : Dialect) (d : Document) (reported : List Path) (report : Report)
    (listed : List UnresolvedInvocation) : Prop where
  paths : reported = listed.map (·.path)
  nodup : reported.Nodup
  standing : ∀ u ∈ listed, u.StandsIn d
  unknown : ∀ u ∈ listed, lookup u.identifier dialect = .ok none
  warnings : (report.ofKind .unresolvedMacro).map Diagnostic.label = listed.map UnresolvedInvocation.label

theorem Lists.exists_unknown (h : Lists lookup dialect d reported report listed) {path : Path}
    (hpath : path ∈ reported) :
    ∃ i, d.get? path = some (.leaf (.invocation i)) ∧ lookup i.identifier dialect = .ok none := by
  obtain ⟨u, hu, rfl⟩ := List.mem_map.1 (h.paths ▸ hpath)
  obtain ⟨i, hi, hlabel⟩ := h.standing u hu
  have hidentifier : i.identifier = u.identifier := (Prod.mk.inj hlabel).1
  exact ⟨i, hi, hidentifier ▸ h.unknown u hu⟩

/-- One more resolution lists what it does not find and is not listed yet. -/
theorem Lists.append (ha : resolver.Answers lookup) (h : Lists lookup dialect d p.reported report listed) {state : σ}
    {resolution : Resolution σ} (hlookups : (resolver.resolve dialect d state).1 = .ok resolution) {number : Nat}
    (hwarnings : report'.ofKind .unresolvedMacro = report.ofKind .unresolvedMacro ++
      (p.fresh resolution.unresolved).map (unresolvedDiagnostic dialect number d.sourceId)) :
    Lists lookup dialect d (p.reported ++ (p.fresh resolution.unresolved).map (·.path)) report'
      (listed ++ p.fresh resolution.unresolved) := by
  have hfresh : ∀ u ∈ p.fresh resolution.unresolved, u ∈ resolution.unresolved ∧ u.path ∉ p.reported := by
    intro u hu
    simpa [fresh] using hu
  constructor
  case paths =>
    rw [h.paths, List.map_append]
  case nodup =>
    rw [List.nodup_append]
    refine ⟨h.nodup, ?_, ?_⟩
    · exact (List.filter_sublist.map _).nodup (Resolver.nodup_paths_unresolved hlookups)
    · rintro path hpath _ hmem rfl
      obtain ⟨u, hu, rfl⟩ := List.mem_map.1 hmem
      exact (hfresh u hu).2 hpath
  case standing =>
    intro u hu
    rcases List.mem_append.1 hu with hold | hnew
    · exact h.standing u hold
    · obtain ⟨i, hi, rfl⟩ := Resolver.exists_of_mem_unresolved hlookups (hfresh u hnew).1
      exact i.unresolved_standsIn hi
  case unknown =>
    intro u hu
    rcases List.mem_append.1 hu with hold | hnew
    · exact h.unknown u hold
    · exact Resolver.lookup_of_mem_unresolved ha hlookups (hfresh u hnew).1
  case warnings =>
    rw [hwarnings, List.map_append, List.map_append, h.warnings, List.map_map]
    rfl

/-- A change of the document that leaves unknown invocations where they are. -/
theorem Lists.transfer (h : Lists lookup dialect d reported report listed)
    (hstay : ∀ path ∈ reported, ∀ i, d.get? path = some (.leaf (.invocation i)) →
      lookup i.identifier dialect = .ok none → d'.get? path = some (.leaf (.invocation i))) :
    Lists lookup dialect d' reported report listed where
  paths := h.paths
  nodup := h.nodup
  standing u hu := by
    obtain ⟨i, hi, hlabel⟩ := h.standing u hu
    have hpath : u.path ∈ reported := h.paths ▸ List.mem_map_of_mem hu
    have hunknown := h.unknown u hu
    rw [← (Prod.mk.inj hlabel).1] at hunknown
    exact ⟨i, hstay u.path hpath i hi hunknown, hlabel⟩
  unknown := h.unknown
  warnings := h.warnings

/-- If every invocation of the document is listed, then the warnings are about these. -/
theorem Lists.warnings_perm (h : Lists lookup dialect d reported report listed)
    (hall : ∀ i ∈ d.invocations, i.path ∈ reported) :
    ((report.ofKind .unresolvedMacro).map Diagnostic.label).Perm (d.invocations.map (·.invocation.label)) := by
  have hperm : listed.Perm (d.invocations.map PlacedInvocation.unresolved) := by
    have hlisted : (listed.map (·.path)).Nodup := h.paths ▸ h.nodup
    have hleft : ((d.invocations.map PlacedInvocation.unresolved).map (·.path)).Nodup := by
      rw [List.map_map]
      exact d.nodup_invocations
    refine (List.perm_ext_iff_of_nodup hlisted.of_map hleft.of_map).2 fun u => ⟨fun hu => ?_, fun hu => ?_⟩
    · have hstands := h.standing u hu
      obtain ⟨i, hi, -⟩ := hstands
      have hmem := Document.mem_invocations_of_get? hi
      exact List.mem_map.2 ⟨_, hmem, ((h.standing u hu).eq_unresolved hmem rfl).symm⟩
    · obtain ⟨i, hi, rfl⟩ := List.mem_map.1 hu
      obtain ⟨u, hu, hpath⟩ := List.mem_map.1 (h.paths ▸ hall i hi)
      rwa [← (h.standing u hu).eq_unresolved hi hpath]
  have hlabels := hperm.map UnresolvedInvocation.label
  rw [List.map_map] at hlabels
  rw [h.warnings]
  exact hlabels

/-! ### Along a run -/

theorem Lists.start (lookup : Lookup σ) (dialect : Dialect) (d : Document) :
    Lists lookup dialect d [] .empty [] :=
  ⟨rfl, List.nodup_nil, nofun, nofun, rfl⟩

theorem ofKind_reportUnresolved (p : Progress σ) (dialect : Dialect) (unresolved : List UnresolvedInvocation) :
    (p.reportUnresolved dialect unresolved).report.ofKind .unresolvedMacro = p.report.ofKind .unresolvedMacro ++
      (p.fresh unresolved).map (unresolvedDiagnostic dialect (p.report.passes + 1) p.document.sourceId) :=
  p.select_reportUnresolved dialect unresolved (· = .unresolvedMacro)

theorem Step.lists (ha : resolver.Answers lookup) (h : Step resolver config dialect p q)
    (hp : ∃ listed, Lists lookup dialect p.document p.reported p.report listed) :
    ∃ listed, Lists lookup dialect q.document q.reported q.report listed := by
  obtain ⟨listed, hp⟩ := hp
  obtain ⟨resolution, hlookups, -, hperm, hadds⟩ := h.adds
  refine ⟨listed ++ p.fresh resolution.unresolved, ?_⟩
  rw [hadds.reported]
  have hwarnings : q.report.ofKind .unresolvedMacro =
      (p.reportUnresolved dialect resolution.unresolved).report.ofKind .unresolvedMacro := by
    rw [Report.ofKind_eq_select, hadds.select rfl]
    exact List.append_nil _
  rw [ofKind_reportUnresolved] at hwarnings
  refine (hp.append ha hlookups hwarnings).transfer ?_
  intro path _ i hi hunknown
  refine h.marked.get?_leaf_of_not_mem (fun m hm => h.invokes hm) hi ?_
  -- A marker of the pass has taken the place of an invocation of a known macro.
  intro hmem
  obtain ⟨r, hr, rfl⟩ := List.mem_map.1 (hperm.mem_iff.1 hmem)
  rw [Resolver.lookup_of_mem_resolved ha hlookups hr hi] at hunknown
  cases hunknown

theorem Steps.lists (ha : resolver.Answers lookup) {state : σ}
    (h : Steps resolver config dialect (.start d state) k q) :
    ∃ listed, Lists lookup dialect q.document q.reported q.report listed :=
  h.preserves (fun _ _ hstep hp => hstep.lists ha hp) ⟨[], .start lookup dialect d⟩

/-- If a resolution finds nothing, then it reports all that is left. -/
theorem mem_reported_of_idle {resolution : Resolution σ}
    (hlookups : (resolver.resolve dialect q.document q.state).1 = .ok resolution) (idle : resolution.resolved = [])
    {i : PlacedInvocation} (hi : i ∈ q.document.invocations) :
    i.path ∈ q.reported ++ (q.fresh resolution.unresolved).map (·.path) := by
  refine mem_append_fresh.2 (.inr ⟨i.unresolved, ?_, rfl⟩)
  rcases Resolver.resolved_or_unresolved hlookups hi with hresolved | hunresolved
  · rw [idle] at hresolved
    cases hresolved
  · exact hunresolved

/-- What is reported does not stand below a marker of the last pass, and so it is not frozen. -/
theorem Steps.get?_freeze_of_reported {state : σ} (h : Steps resolver config dialect (.start d state) k q)
    (hk : k ≠ 0) {path : Path} (hpath : path ∈ q.reported) {i : Invocation}
    (hi : q.document.get? path = some (.leaf (.invocation i))) :
    (freeze q.markers q.document).get? path = some (.leaf (.invocation i)) := by
  refine (freeze_marked _ _).get?_leaf_of_not_mem (invokes_of_mem_pendingBelow _ _) hi ?_
  intro hmem
  obtain ⟨j, hj, rfl⟩ := List.mem_map.1 hmem
  obtain ⟨hj, m, hm, hanc⟩ := mem_pendingBelow.1 hj
  rw [(h.reported_iff hk hj).1 hpath m hm] at hanc
  cases hanc

/-- All that is left after the freeze is reported. -/
theorem Steps.mem_reported_of_frozen {state : σ} (h : Steps resolver config dialect (.start d state) k q)
    (hk : k ≠ 0) {i : PlacedInvocation} (hi : i ∈ (freeze q.markers q.document).invocations) :
    i.path ∈ q.reported := by
  obtain ⟨hbefore, huncovered⟩ := get?_freeze_eq_invocation (Document.mem_invocations.1 hi).1
  exact (h.reported_iff hk (Document.mem_invocations_of_get? hbefore)).2 huncovered

/-- After a run that succeeds, the warnings about unknown macros are about the invocations that are left. -/
theorem Ends.warnings_perm (ha : resolver.Answers lookup) (hconfig : config.maxDepth ≠ 0) {state : σ}
    (hsteps : Steps resolver config dialect (.start d state) k q) {run : Run σ}
    (h : Ends resolver config dialect k q run) (hok : run.result = .ok report) :
    ((report.ofKind .unresolvedMacro).map Diagnostic.label).Perm
      (run.document.invocations.map (·.invocation.label)) := by
  obtain ⟨listed, hlists⟩ := hsteps.lists ha
  cases h with
  | unavailable => cases hok
  | unknown => cases hok
  | @converged resolution next _ lookups _ idle =>
    have hlookups : (resolver.resolve dialect q.document q.state).1 = .ok resolution := by rw [lookups]
    cases hok
    exact (hlists.append ha hlookups (ofKind_reportUnresolved _ dialect _)).warnings_perm fun i hi =>
      mem_reported_of_idle hlookups idle hi
  | stopped full =>
    have hwarnings : report.ofKind .unresolvedMacro = q.report.ofKind .unresolvedMacro := by
      rw [Report.ofKind_eq_select, select_stop hok]
      exact List.append_nil _
    have hfrozen : Lists lookup dialect (freeze q.markers q.document) q.reported report listed :=
      Lists.transfer { hlists with warnings := hwarnings ▸ hlists.warnings } fun path hpath i hi _ =>
        hsteps.get?_freeze_of_reported (full ▸ hconfig) hpath hi
    exact hfrozen.warnings_perm fun i hi => hsteps.mem_reported_of_frozen (full ▸ hconfig) hi

end Progress

/-! ## A registry that learns -/

/-- A registry that knows no macro at its first lookup, and at every later one the macro `code` by any name. What is
reported as unknown for it may be expanded in the next pass. -/
def Resolver.late : Resolver Bool Bool
  | _, _, false => (.ok none, true)
  | _, _, true => (.ok (some Macros.code), true)

def codeCall : Block :=
  .leaf (.invocation ⟨⟨"code", .empty, some "x"⟩, .default, none⟩)

end MacroDoc
