import MacroDoc.Proofs.Expansion.Account
import MacroDoc.Proofs.Forest.Nesting

/-!
# Passes are levels of nesting

What a pass runs was yielded by the pass before it. If neither the document nor any macro has markers, then the number
of a pass can be read off the tree: a marker that pass `k` wrote has `k - 1` markers above it.

* `Lookup.Markerless` : no macro yields a marker;
* `Progress.Leveled` : the invariant of a run about depths: markers stand above the current level, and what was not met
  before stands at it;
* `Dated` : warnings about unknown macros have the number of the level as their pass;
* `Levels` : the same for what a run leaves;
* `Resolver.expandDocument_levels` : all of it for a whole run.
-/

namespace MacroDoc

open Progress

variable {σ : Type}

/-- The macros of a lookup yield no markers. -/
def Lookup.Markerless (lookup : Lookup σ) : Prop :=
  ∀ identifier dialect expander, lookup identifier dialect = .ok (some expander) →
    ∀ context state blocks, (expander.expand context state).1 = .ok blocks → markersIn blocks = []

/-- A run over the document `d` left the document `d'`, after the attempts `log` and then freezing the invocations
`stopped`. Each marker has as many markers above it as there were passes before the one that wrote it. -/
structure Levels (config : Config) (d d' : Document) (log : List Attempt) (stopped : List PlacedInvocation) : Prop where
  /-- The run wrote a marker for each attempt, and one for each invocation that it froze. -/
  document : d' = stopped.foldl Document.stop (log.foldl Document.write d)
  attempted : ∀ a ∈ log, d'.Marks a.path ∧ a.pass = d'.markerDepth a.path + 1
  frozen : ∀ i ∈ stopped, d'.Marks i.path ∧ d'.markerDepth i.path = config.maxDepth
  nested : ∀ chain : List Path, (∀ p ∈ chain, d'.Marks p) → chain.Pairwise (fun p q => p.isAncestorOf q = true) →
    chain.length ≤ config.maxDepth + 1

/-! ## Attempts -/

theorem Expander.expand_of_attempt {expander : Expander σ} {context : Context} {state : σ} {blocks : List Block}
    (h : (expander.attempt context state).1 = .ok blocks) : (expander.expand context state).1 = .ok blocks := by
  unfold Expander.attempt at h
  split at h
  · cases h
  · split at h
    · cases h
    · cases hexpand : (expander.expand context state).1 with
      | error message => simp [hexpand, Except.mapError] at h
      | ok yielded => simpa [hexpand, Except.mapError] using h

theorem ResolvedInvocation.unmarked_attempt {r : ResolvedInvocation σ} {dialect : Dialect} {pass : Nat}
    {d : Document} {i : Invocation} {state : σ}
    (hr : ∀ context state blocks, (r.expander.expand context state).1 = .ok blocks → markersIn blocks = []) :
    (r.attempt dialect pass d i state).1.Unmarked := by
  intro blocks hblocks
  exact hr _ _ blocks (Expander.expand_of_attempt hblocks)

theorem Resolver.pass_of_mem_attempts {resolver : Resolver σ σ} {config : Config} {dialect : Dialect} {number : Nat}
    {s : Document × σ} {a : Attempt} (ha : a ∈ resolver.attempts config dialect number s) : a.pass = number := by
  obtain ⟨_, -, r, -, _, _, _, rfl⟩ := exists_resolved_of_mem_attempts ha
  rfl

theorem Resolver.unmarked_of_mem_attempts {resolver : Resolver σ σ} {lookup : Lookup σ}
    (hanswers : resolver.Answers lookup) (hpure : lookup.Markerless) {config : Config} {dialect : Dialect}
    {number : Nat} {s : Document × σ} {a : Attempt} (ha : a ∈ resolver.attempts config dialect number s) :
    a.Unmarked := by
  obtain ⟨_, hlookups, r, hr, _, _, _, rfl⟩ := exists_resolved_of_mem_attempts ha
  obtain ⟨identifier, state', hanswer⟩ := exists_answer_of_mem_resolved hlookups hr
  rw [hanswers] at hanswer
  exact ResolvedInvocation.unmarked_attempt (hpure identifier dialect r.expander hanswer)

namespace Progress

variable {resolver : Resolver σ σ} {lookup : Lookup σ} {config : Config} {dialect : Dialect} {d : Document}
  {p q : Progress σ} {k : Nat} {log : List Attempt}

/-- After a pass, markers stand where they stood before and where the pass wrote them. -/
theorem Step.marks_iff (hanswers : resolver.Answers lookup) (hpure : lookup.Markerless)
    (h : Step resolver config dialect p q) {path : Path} :
    q.document.Marks path ↔ p.document.Marks path ∨ path ∈ q.markers := by
  refine h.marked_attempts.marks_iff (fun m hm => h.invokes hm) h.nodup ?_
  rintro _ _ _ ⟨a, ha, -, -, rfl⟩
  exact (Resolver.unmarked_of_mem_attempts hanswers hpure ha).markerCount_children

end Progress

/-! ## Dates of warnings -/

/-- The invocation at a path, as one whose macro is not known. -/
def Document.unresolvedAt? (d : Document) (path : Path) : Option UnresolvedInvocation :=
  (d.get? path >>= Block.invocation?).map fun i => ⟨path, i.identifier, i.span⟩

/-- The warning about an unknown macro, as the pass writes it that finds all invocations at the depth of this one. -/
def Document.warning (dialect : Dialect) (d : Document) (u : UnresolvedInvocation) : Diagnostic :=
  unresolvedDiagnostic dialect (d.markerDepth u.path + 1) d.sourceId u

/-- The warnings about unknown macros are about the invocations at the reported paths, in this order, and their passes
are one more than the depths of these. -/
def Dated (dialect : Dialect) (d : Document) (reported : List Path) (report : Report) : Prop :=
  report.ofKind .unresolvedMacro = (reported.filterMap d.unresolvedAt?).map (d.warning dialect)

theorem Document.unresolvedAt?_of_get? {d : Document} {path : Path} {i : Invocation}
    (h : d.get? path = some (.leaf (.invocation i))) : d.unresolvedAt? path = some ⟨path, i.identifier, i.span⟩ := by
  rw [unresolvedAt?, h]
  rfl

theorem Document.unresolvedAt?_of_mem {d : Document} {i : PlacedInvocation} (hi : i ∈ d.invocations) :
    d.unresolvedAt? i.path = some i.unresolved :=
  unresolvedAt?_of_get? (mem_invocations.1 hi).1

theorem Document.filterMap_unresolvedAt? {d : Document} {us : List UnresolvedInvocation}
    (h : ∀ u ∈ us, d.unresolvedAt? u.path = some u) : (us.map (·.path)).filterMap d.unresolvedAt? = us := by
  induction us with
  | nil => rfl
  | cons u us ih =>
    rw [List.map_cons, List.filterMap_cons, h u List.mem_cons_self, ih fun v hv => h v (List.mem_cons_of_mem _ hv)]

namespace Dated

variable {dialect : Dialect} {d d' : Document} {reported : List Path} {report report' : Report}

/-- A change of the document that keeps the reported invocations keeps the dates. -/
theorem transfer (h : Dated dialect d reported report)
    (hwarnings : report'.ofKind .unresolvedMacro = report.ofKind .unresolvedMacro) (hframe : d.Extends d')
    (hstay : ∀ path ∈ reported, ∃ i, d.get? path = some (.leaf (.invocation i)) ∧
      d'.get? path = some (.leaf (.invocation i))) : Dated dialect d' reported report' := by
  have hfound : reported.filterMap d'.unresolvedAt? = reported.filterMap d.unresolvedAt? := by
    refine List.filterMap_congr fun path hpath => ?_
    obtain ⟨i, hi, hi'⟩ := hstay path hpath
    rw [Document.unresolvedAt?_of_get? hi, Document.unresolvedAt?_of_get? hi']
  rw [Dated, hwarnings, h, hfound]
  refine List.map_congr_left fun u hu => ?_
  obtain ⟨path, hpath, hat⟩ := List.mem_filterMap.1 hu
  obtain ⟨i, hi, -⟩ := hstay path hpath
  rw [Document.unresolvedAt?_of_get? hi] at hat
  obtain rfl := Option.some.inj hat
  have hdepth : d'.markerDepth path = d.markerDepth path := hframe.markerDepth_eq (by rw [hi]; rfl)
  rw [Document.warning, Document.warning, hdepth, hframe.sourceId]

/-- If all invocations of the document are reported, then there is one warning for each, with its date. -/
theorem perm (h : Dated dialect d reported report) (hnodup : reported.Nodup)
    (hall : ∀ i ∈ d.invocations, i.path ∈ reported) :
    (report.ofKind .unresolvedMacro).Perm (d.invocations.map fun i => d.warning dialect i.unresolved) := by
  have hpath {path : Path} {u : UnresolvedInvocation} (hu : d.unresolvedAt? path = some u) : u.path = path := by
    obtain ⟨i, -, rfl⟩ := Option.map_eq_some_iff.1 hu
    rfl
  have hfound : (reported.filterMap d.unresolvedAt?).Perm (d.invocations.map PlacedInvocation.unresolved) := by
    have hleft : ((d.invocations.map PlacedInvocation.unresolved).map (·.path)).Nodup := by
      rw [List.map_map]
      exact d.nodup_invocations
    have hright : (reported.filterMap d.unresolvedAt?).Nodup := by
      refine hnodup.filterMap fun path path' u hu hu' => ?_
      exact (hpath hu).symm.trans (hpath hu')
    refine (List.perm_ext_iff_of_nodup hright hleft.of_map).2 fun u => ?_
    rw [List.mem_filterMap, List.mem_map]
    constructor
    · rintro ⟨path, -, hu⟩
      obtain ⟨i, hi, rfl⟩ := Option.map_eq_some_iff.1 hu
      obtain ⟨b, hb, hinv⟩ := Option.bind_eq_some_iff.1 hi
      obtain rfl := Block.invocation?_eq_some.1 hinv
      exact ⟨_, Document.mem_invocations_of_get? hb, rfl⟩
    · rintro ⟨i, hi, rfl⟩
      exact ⟨i.path, hall i hi, Document.unresolvedAt?_of_mem hi⟩
  have hwarnings := hfound.map (d.warning dialect)
  rw [List.map_map] at hwarnings
  rw [h]
  exact hwarnings

end Dated

namespace Progress

variable {resolver : Resolver σ σ} {lookup : Lookup σ} {config : Config} {dialect : Dialect} {d : Document}
  {p q : Progress σ} {k : Nat} {log : List Attempt}

/-! ## Levels during a run -/

/-- What holds of depths during a run with the attempts `log` so far. -/
structure Leveled (dialect : Dialect) (log : List Attempt) (q : Progress σ) : Prop where
  attempted : ∀ a ∈ log, a.pass = q.document.markerDepth a.path + 1
  /-- All markers were written by the passes so far. -/
  marks : ∀ path, q.document.Marks path → q.document.markerDepth path < q.report.passes
  /-- What is not reported was yielded by the last pass. -/
  pending : ∀ i ∈ q.document.invocations, i.path ∉ q.reported → q.document.markerDepth i.path = q.report.passes
  dated : Dated dialect q.document q.reported q.report

theorem Leveled.start (dialect : Dialect) (hd : d.markers = []) (state : σ) :
    Leveled dialect [] (.start d state) where
  attempted := nofun
  marks _ hmark := absurd hmark (Document.not_marks_of_markers_nil hd)
  pending _ _ _ := Document.markerDepth_of_markers_nil hd _
  dated := rfl

/-- What is met for the first time is reported with the date of the next pass. -/
theorem Leveled.dated_reportUnresolved (h : Leveled dialect log q) {resolution : Resolution σ}
    (hlookups : (resolver.resolve dialect q.document q.state).1 = .ok resolution) :
    Dated dialect q.document (q.reported ++ (q.fresh resolution.unresolved).map (·.path))
      (q.reportUnresolved dialect resolution.unresolved).report := by
  have hfresh : ∀ u ∈ q.fresh resolution.unresolved, ∃ i ∈ q.document.invocations, u = i.unresolved ∧
      i.path ∉ q.reported := by
    intro u hu
    obtain ⟨hmem, hnew⟩ := List.mem_filter.1 hu
    obtain ⟨i, hi, rfl⟩ := Resolver.exists_of_mem_unresolved hlookups hmem
    exact ⟨i, hi, rfl, of_decide_eq_true hnew⟩
  have hfound : ((q.fresh resolution.unresolved).map (·.path)).filterMap q.document.unresolvedAt? =
      q.fresh resolution.unresolved := by
    refine Document.filterMap_unresolvedAt? fun u hu => ?_
    obtain ⟨i, hi, rfl, -⟩ := hfresh u hu
    exact Document.unresolvedAt?_of_mem hi
  rw [Dated, ofKind_reportUnresolved, h.dated, List.filterMap_append, hfound, List.map_append]
  refine congrArg _ (List.map_congr_left fun u hu => ?_)
  obtain ⟨i, hi, rfl, hnew⟩ := hfresh u hu
  have hdepth : q.document.markerDepth i.unresolved.path = q.report.passes := h.pending i hi hnew
  rw [Document.warning, hdepth]

/-- The invocations that a pass runs stand at the current level: those that were met before are unknown. -/
theorem Leveled.markerDepth_of_mem (hanswers : resolver.Answers lookup) (h : Leveled dialect log p)
    {listed : List UnresolvedInvocation} (hlists : Lists lookup dialect p.document p.reported p.report listed)
    (hstep : Step resolver config dialect p q) {m : Path} (hm : m ∈ q.markers) :
    p.document.markerDepth m = p.report.passes := by
  obtain ⟨resolution, hlookups, -, hperm, -⟩ := hstep.effect
  obtain ⟨r, hr, rfl⟩ := List.mem_map.1 (hperm.mem_iff.1 hm)
  obtain ⟨i, hi⟩ := hstep.invokes hm
  refine h.pending _ (Document.mem_invocations_of_get? hi) fun hreported => ?_
  obtain ⟨j, hj, hunknown⟩ := hlists.exists_unknown hreported
  obtain rfl : i = j := by simpa [hi] using hj
  rw [Resolver.lookup_of_mem_resolved hanswers hlookups hr hi] at hunknown
  cases hunknown

theorem Leveled.step (hanswers : resolver.Answers lookup) (hpure : lookup.Markerless) (h : Leveled dialect log p)
    (hfollows : Follows d log p) {listed : List UnresolvedInvocation}
    (hlists : Lists lookup dialect p.document p.reported p.report listed) (hstep : Step resolver config dialect p q) :
    Leveled dialect (log ++ resolver.attempts config dialect (p.report.passes + 1) (p.document, p.state)) q := by
  obtain ⟨resolution, hlookups, -, hperm, hadds⟩ := hstep.adds
  have hframe := hstep.extends
  have hlevel : ∀ m ∈ q.markers, q.document.markerDepth m = p.report.passes := by
    intro m hm
    obtain ⟨i, hi⟩ := hstep.invokes hm
    rw [hframe.markerDepth_eq (by rw [hi]; rfl)]
    exact h.markerDepth_of_mem hanswers hlists hstep hm
  have hpasses := hadds.passes
  constructor
  case attempted =>
    intro a ha
    rcases List.mem_append.1 ha with hold | hnew
    · obtain ⟨children, hmark⟩ := hfollows.attempted a hold
      rw [hframe.markerDepth_eq (by rw [hmark]; rfl)]
      exact h.attempted a hold
    · have hm : a.path ∈ q.markers := hadds.markers ▸ List.mem_map_of_mem hnew
      rw [Resolver.pass_of_mem_attempts hnew, hlevel a.path hm]
  case marks =>
    intro path hmark
    rcases (hstep.marks_iff hanswers hpure).1 hmark with hold | hnew
    · have hlt := h.marks path hold
      rw [hframe.markerDepth_eq (Document.isSome_of_marks hold)]
      omega
    · rw [hlevel path hnew]
      omega
  case pending =>
    intro i hi hnew
    have hstanding : p.Standing := by
      intro path hpath
      obtain ⟨j, hj, -⟩ := hlists.exists_unknown hpath
      rw [hj]
      rfl
    -- It stands below a marker of this pass, and there is no other marker in between.
    obtain ⟨m, hm, hanc⟩ : ∃ m ∈ q.markers, m.isAncestorOf i.path = true := by
      by_contra hnone
      refine hnew ((hstep.reported_iff hstanding hi).2 fun m hm => ?_)
      rw [Bool.eq_false_iff]
      exact fun hanc => hnone ⟨m, hm, hanc⟩
    have hmark : q.document.Marks m := (hstep.marks_iff hanswers hpure).2 (.inr hm)
    rw [Document.markerDepth_below hmark hanc, hlevel m hm, hpasses]
    intro path hbelow _ hbetween
    have habsent : ∀ {path}, m.isAncestorOf path = true → ¬ (p.document.get? path).isSome := by
      intro path hanc hsome
      rw [(hstep.invokes hm).isAncestorOf_eq_false hsome] at hanc
      cases hanc
    rcases (hstep.marks_iff hanswers hpure).1 hbetween with hold | hnew
    · exact habsent hbelow (Document.isSome_of_marks hold)
    · obtain ⟨j, hj⟩ := hstep.invokes hnew
      exact habsent hbelow (by rw [hj]; rfl)
  case dated =>
    have hmet := h.dated_reportUnresolved hlookups
    rw [← hadds.reported] at hmet
    refine hmet.transfer ?_ hframe fun path hpath => ?_
    · rw [Report.ofKind_eq_select, hadds.select rfl]
      exact List.append_nil _
    · have hlists' := hlists.append hanswers hlookups (ofKind_reportUnresolved p dialect resolution.unresolved)
      obtain ⟨i, hi, hunknown⟩ := hlists'.exists_unknown (hadds.reported ▸ hpath)
      refine ⟨i, hi, hstep.marked.get?_leaf_of_not_mem (fun m hm => hstep.invokes hm) hi fun hm => ?_⟩
      obtain ⟨r, hr, rfl⟩ := List.mem_map.1 (hperm.mem_iff.1 hm)
      rw [Resolver.lookup_of_mem_resolved hanswers hlookups hr hi] at hunknown
      cases hunknown

theorem Steps.leveled (hanswers : resolver.Answers lookup) (hpure : lookup.Markerless) (hd : d.markers = [])
    {state : σ} (h : Steps resolver config dialect (.start d state) k q) :
    Leveled dialect (resolver.history config dialect (d, state) k) q := by
  have hinv : Follows d (resolver.history config dialect (d, state) k) q ∧
      (∃ listed, Lists lookup dialect q.document q.reported q.report listed) ∧
      Leveled dialect (resolver.history config dialect (d, state) k) q := by
    apply h.preserves_history fun log q =>
      Follows d log q ∧ (∃ listed, Lists lookup dialect q.document q.reported q.report listed) ∧ Leveled dialect log q
    · exact ⟨.start d state, ⟨[], .start lookup dialect d⟩, .start dialect hd state⟩
    · rintro log p q hstep ⟨hfollows, hlists, hleveled⟩
      obtain ⟨listed, hlisted⟩ := hlists
      exact ⟨hfollows.step hstep, hstep.lists hanswers ⟨listed, hlisted⟩,
        hleveled.step hanswers hpure hfollows hlisted hstep⟩
  exact hinv.2.2

/-! ## How a run ends -/

theorem Leveled.levels (h : Leveled dialect log q) (hfollows : Follows d log q)
    (hpasses : q.report.passes ≤ config.maxDepth) : Levels config d q.document log [] where
  document := hfollows.document
  attempted a ha := by
    obtain ⟨children, hmark⟩ := hfollows.attempted a ha
    exact ⟨⟨_, children, hmark⟩, h.attempted a ha⟩
  frozen := nofun
  nested chain hmarks hnested := by
    refine Document.length_le_of_nested (fun path hmark => ?_) hmarks hnested
    have hlt := h.marks path hmark
    omega

/-- The freeze adds one more level. -/
theorem Leveled.levels_freeze (h : Leveled dialect log q) (hfollows : Follows d log q)
    (hreported : ∀ i ∈ q.document.invocations, i.path ∈ q.reported ↔ ∀ m ∈ q.markers, m.isAncestorOf i.path = false)
    (hpasses : q.report.passes = config.maxDepth) :
    Levels config d (freeze q.markers q.document) log (pendingBelow q.markers q.document) := by
  have hframe := (freeze_marked q.markers q.document).extends
  have hlevel : ∀ i ∈ pendingBelow q.markers q.document,
      (freeze q.markers q.document).markerDepth i.path = config.maxDepth := by
    intro i hi
    obtain ⟨hi, m, hm, hanc⟩ := mem_pendingBelow.1 hi
    rw [hframe.markerDepth_eq (by rw [(Document.mem_invocations.1 hi).1]; rfl), ← hpasses]
    refine h.pending i hi fun hmem => ?_
    rw [(hreported i hi).1 hmem m hm] at hanc
    cases hanc
  have hmarks {path : Path} : (freeze q.markers q.document).Marks path ↔
      q.document.Marks path ∨ path ∈ (pendingBelow q.markers q.document).map (·.path) := by
    refine (freeze_marked q.markers q.document).marks_iff (invokes_of_mem_pendingBelow _ _)
      (nodup_paths_pendingBelow _ _) ?_
    rintro _ i children hfrozen
    obtain rfl : children = _ := hfrozen
    simp
  constructor
  case document =>
    rw [← hfollows.document]
    rfl
  case attempted =>
    intro a ha
    obtain ⟨children, hmark⟩ := hfollows.attempted a ha
    refine ⟨hmarks.2 (.inl ⟨_, children, hmark⟩), ?_⟩
    rw [hframe.markerDepth_eq (by rw [hmark]; rfl)]
    exact h.attempted a ha
  case frozen =>
    exact fun i hi => ⟨hmarks.2 (.inr (List.mem_map_of_mem hi)), hlevel i hi⟩
  case nested =>
    intro chain hchain hnested
    refine Document.length_le_of_nested (fun path hmark => ?_) hchain hnested
    rcases hmarks.1 hmark with hold | hnew
    · have hlt := h.marks path hold
      rw [hframe.markerDepth_eq (Document.isSome_of_marks hold)]
      omega
    · obtain ⟨i, hi, rfl⟩ := List.mem_map.1 hnew
      rw [hlevel i hi]
      omega

theorem Ends.levels (hanswers : resolver.Answers lookup) (hpure : lookup.Markerless) (hd : d.markers = [])
    (hconfig : config.maxDepth ≠ 0) {state : σ} (hsteps : Steps resolver config dialect (.start d state) k q)
    {run : Run σ} (h : Ends resolver config dialect k q run) :
    Levels config d run.document (resolver.history config dialect (d, state) k) (q.stopped config) := by
  have hleveled := hsteps.leveled hanswers hpure hd
  have hfollows := hsteps.follows
  have hpasses : q.report.passes = k := by
    rw [hsteps.passes]
    exact Nat.zero_add k
  have hearly (early : k < config.maxDepth) :
      Levels config d q.document (resolver.history config dialect (d, state) k) (q.stopped config) := by
    rw [stopped_of_lt (hpasses ▸ early)]
    exact hleveled.levels hfollows (hpasses ▸ h.le)
  cases h with
  | unavailable early => exact hearly early
  | unknown early => exact hearly early
  | converged early => exact hearly early
  | stopped full =>
    rw [stopped_of_eq (hpasses.trans full)]
    exact hleveled.levels_freeze hfollows (fun i hi => hsteps.reported_iff (full ▸ hconfig) hi) (hpasses.trans full)

/-- After a run that succeeds, the warnings about unknown macros are about the invocations that are left, with the
dates of these. -/
theorem Ends.dated_perm (hanswers : resolver.Answers lookup) (hpure : lookup.Markerless) (hd : d.markers = [])
    (hconfig : config.maxDepth ≠ 0) {state : σ} (hsteps : Steps resolver config dialect (.start d state) k q)
    {run : Run σ} (h : Ends resolver config dialect k q run) {report : Report} (hok : run.result = .ok report) :
    (report.ofKind .unresolvedMacro).Perm
      (run.document.invocations.map fun i => run.document.warning dialect i.unresolved) := by
  have hleveled := hsteps.leveled hanswers hpure hd
  obtain ⟨listed, hlists⟩ := hsteps.lists hanswers
  cases h with
  | unavailable => cases hok
  | unknown => cases hok
  | @converged resolution next _ lookups _ idle =>
    have hlookups : (resolver.resolve dialect q.document q.state).1 = .ok resolution := by rw [lookups]
    cases hok
    have hlists' := hlists.append hanswers hlookups (ofKind_reportUnresolved q dialect resolution.unresolved)
    exact (hleveled.dated_reportUnresolved hlookups).perm hlists'.nodup fun i hi =>
      mem_reported_of_idle hlookups idle hi
  | stopped full =>
    have hwarnings : report.ofKind .unresolvedMacro = q.report.ofKind .unresolvedMacro := by
      rw [Report.ofKind_eq_select, select_stop hok]
      exact List.append_nil _
    have hfrozen : Dated dialect (freeze q.markers q.document) q.reported report := by
      refine hleveled.dated.transfer hwarnings (freeze_marked _ _).extends fun path hpath => ?_
      obtain ⟨i, hi, -⟩ := hlists.exists_unknown hpath
      exact ⟨i, hi, hsteps.get?_freeze_of_reported (full ▸ hconfig) hpath hi⟩
    exact hfrozen.perm hlists.nodup fun i hi => hsteps.mem_reported_of_frozen (full ▸ hconfig) hi

theorem Ends.errors {state : σ} (hsteps : Steps resolver config dialect (.start d state) k q)
    {run : Run σ} (h : Ends resolver config dialect k q run) {report : Report} (hok : run.result = .ok report) :
    report.errors =
      (resolver.history config dialect (d, state) k).filterMap (Attempt.diagnostic? d.sourceId) := by
  rw [← hsteps.follows.errors, Report.errors_eq_select, Report.errors_eq_select]
  cases h with
  | unavailable => cases hok
  | unknown => cases hok
  | converged =>
    cases hok
    rw [select_reportUnresolved]
    exact List.append_nil _
  | stopped =>
    rw [select_stop hok]
    exact List.append_nil _

end Progress

/-! ## Whole runs -/

/-- For a document without markers, and a registry that answers by a lookup whose macros yield no markers: the number
of a pass is the depth of what it runs. Whatever the run returns, a marker of pass `k` has `k - 1` markers above it, a
marker of the freeze has as many as passes are allowed, and no more than one more are nested in each other. If the run
succeeds, the pass of an error is that of the attempt it is about, and the warnings about unknown macros are one for
each invocation that is left, with one more than its depth as the pass. -/
theorem Resolver.expandDocument_levels {resolver : Resolver σ σ} {lookup : Lookup σ}
    (hanswers : resolver.Answers lookup) (hpure : lookup.Markerless) (config : Config) (dialect : Dialect)
    {d : Document} (hd : d.markers = []) (state : σ) :
    let run := resolver.expandDocument config dialect d state
    ∃ passes ≤ config.maxDepth, ∃ last,
      Steps resolver config dialect (.start d state) passes last ∧
      Levels config d run.document (resolver.history config dialect (d, state) passes) (last.stopped config) ∧
      ∀ report, run.result = .ok report →
        report.passes = passes ∧
        report.errors =
          (resolver.history config dialect (d, state) passes).filterMap (Attempt.diagnostic? d.sourceId) ∧
        (report.ofKind .unresolvedMacro).Perm (run.document.invocations.map fun i =>
          unresolvedDiagnostic dialect (run.document.markerDepth i.path + 1) d.sourceId i.unresolved) := by
  intro run
  by_cases hconfig : config.maxDepth = 0
  · have hrun : run = (Progress.start d state).fail (.invalidConfig .zeroMaxDepth) :=
      expandDocument_of_zero resolver hconfig dialect d state
    have hstart : Steps resolver config dialect (.start d state) 0 (.start d state) := .refl
    have hstopped : (Progress.start d state).stopped config = [] := by
      rw [stopped_of_eq hconfig.symm]
      exact pendingBelow_nil d
    refine ⟨0, Nat.zero_le _, .start d state, hstart, ?_, ?_⟩
    · rw [hrun, hstopped]
      exact (Leveled.start dialect hd state).levels (.start d state) (Nat.zero_le _)
    · intro report hok
      rw [hrun] at hok
      cases hok
  · obtain ⟨k, q, hsteps, hends⟩ := resolver.exists_ends hconfig dialect d state
    have hsource : run.document.sourceId = d.sourceId := (hsteps.extends.trans hends.extends).sourceId
    refine ⟨k, hends.le, q, hsteps, hends.levels hanswers hpure hd hconfig hsteps, fun report hok => ?_⟩
    refine ⟨?_, hends.errors hsteps hok, ?_⟩
    · rw [hends.passes hok, hsteps.passes]
      exact Nat.zero_add k
    · rw [← hsource]
      exact hends.dated_perm hanswers hpure hd hconfig hsteps hok

theorem echoRegistry_markerless : echoRegistry.lookup.Markerless := by
  intro identifier dialect expander hfound context state blocks hok
  have hknown : echoRegistry.find? identifier dialect = some expander := Except.ok.inj hfound
  have hecho : expander = echo := by
    by_cases hidentifier : identifier = "echo"
    · subst hidentifier
      exact (Option.some.inj hknown).symm
    · have hmissing : echoRegistry.find? identifier dialect = none := by
        simp [echoRegistry, Registry.find?, Registry.registerForAll, Registry.empty, hidentifier]
      rw [hmissing] at hknown
      cases hknown
  subst hecho
  obtain rfl := Except.ok.inj hok
  rfl

/-- Two passes over a call of `echo` and one of `other`. The passes of the two warnings are the depths of the calls of
`other` that are left, and the freeze writes at depth two. -/
theorem Resolver.expandDocument_levels_echo :
    ∃ report passes last, echoRun.result = .ok report ∧ report.passes = 2 ∧ report.passes = passes ∧
      Steps echoRegistry.lookup.resolver ⟨2, false, .ascending⟩ .default (.start echoDocument ()) passes last ∧
      Levels ⟨2, false, .ascending⟩ echoDocument echoRun.document
        (echoRegistry.lookup.resolver.history ⟨2, false, .ascending⟩ .default (echoDocument, ()) passes)
        (last.stopped ⟨2, false, .ascending⟩) ∧
      (report.ofKind .unresolvedMacro).map (·.pass) = [1, 2] ∧
      (report.ofKind .unresolvedMacro).Perm (echoRun.document.invocations.map fun i =>
        unresolvedDiagnostic .default (echoRun.document.markerDepth i.path + 1) 0 i.unresolved) := by
  have hlookup : (echoRegistry.lookup.resolver : Resolver Unit Unit).Answers echoRegistry.lookup :=
    Lookup.answers_resolver _
  obtain ⟨report, hok⟩ := echoRun_isOk
  have hreport : echoRun.result.toOption.map (fun report =>
      (report.passes, (report.ofKind .unresolvedMacro).map (·.pass))) = some (2, [1, 2]) := by decide +kernel
  rw [hok] at hreport
  obtain ⟨htwo, hwarnings⟩ := Prod.mk.inj (Option.some.inj hreport)
  obtain ⟨passes, -, last, hsteps, hlevels, hreports⟩ :=
    expandDocument_levels hlookup echoRegistry_markerless ⟨2, false, .ascending⟩ .default
      (show echoDocument.markers = [] by rfl) ()
  obtain ⟨hpasses, -, hperm⟩ := hreports report hok
  exact ⟨report, passes, last, hok, htwo, hpasses, hsteps, hlevels, hwarnings, hperm⟩

end MacroDoc
