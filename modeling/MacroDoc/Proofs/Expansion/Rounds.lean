import MacroDoc.Proofs.Expansion.Reported

/-!
# Rounds

A macro may look at its call and at nothing else. If all macros of a registry are of this kind, then a pass does the
same in whatever order its invocations run, and whatever the shared state is. So a run can be told from its document
alone, round by round, and rounds can go on when nothing is left to do.

* `Expander.IsLocal`, `Meaning` : macros of this kind, and what their calls yield;
* `Document.rounds`, `Document.roundAttempts` : the document after some rounds, and what happens in each of them;
* `Document.news`, `Document.findings` : what is reported in each round, and in all of them;
* `Progress.Matches` : the invariant that a run is as far as the rounds;
* `Resolver.expandDocument_outcome` : a run with such macros in terms of rounds.
-/

namespace MacroDoc

open Progress

variable {σ : Type}

/-! ## Macros that look only at their calls -/

/-- What the expander returns depends on the dialect, the placement and the call alone. -/
def Expander.IsLocal (e : Expander σ) : Prop :=
  ∀ (context : Context) (d : Document) (path : Path) (state state' : σ),
    (e.expand { context with document := d, path := path } state').1 = (e.expand context state).1

theorem Expander.IsLocal.attempt {e : Expander σ} (h : e.IsLocal) (context : Context) (d : Document) (path : Path)
    (state state' : σ) :
    (e.attempt { context with document := d, path := path } state').1 = (e.attempt context state).1 := by
  unfold Expander.attempt
  by_cases hplace : context.placement = .inline ∧ e.descriptor.supportsInline = false
  · rw [if_pos hplace, if_pos hplace]
  · rw [if_neg hplace, if_neg hplace]
    cases hcheck : e.descriptor.check context.call with
    | error cause => rfl
    | ok _ => simp only [h context d path state state']

/-- What calls yield where they stand, if their macros are known. -/
abbrev Meaning := Placement → Call → Option (Except Fault (List Block))

/-- What calls yield with the macros that are found for a dialect. -/
def meaning (find : String → Dialect → Option (Expander σ)) (dialect : Dialect) (state : σ) : Meaning :=
  fun placement call => (find call.identifier dialect).map fun e =>
    (e.attempt ⟨⟨[], 0⟩, dialect, ⟨[]⟩, placement, call⟩ state).1

/-! ## Rounds -/

namespace Document

variable (μ : Meaning)

def attempts (number : Nat) (d : Document) : List Attempt :=
  d.invocations.filterMap fun i => (μ i.placement i.invocation.call).map fun result =>
    ⟨number, i.path, i.invocation, result⟩

def unknown (d : Document) : List PlacedInvocation :=
  d.invocations.filter fun i => (μ i.placement i.invocation.call).isNone

def rounds (d : Document) : Nat → Document
  | 0 => d
  | k + 1 => ((rounds d k).attempts μ (k + 1)).foldl write (rounds d k)

/-- The attempts of one round; there is no round 0. -/
def roundAttempts (d : Document) : Nat → List Attempt
  | 0 => []
  | k + 1 => (d.rounds μ k).attempts μ (k + 1)

def roundMarkers (d : Document) (k : Nat) : List Path :=
  (d.roundAttempts μ k).map (·.path)

/-- The unknown invocations that are met for the first time after a number of rounds: all of them at the start, and
then those that the macros of the last round yield. -/
def news (d : Document) : Nat → List PlacedInvocation
  | 0 => d.unknown μ
  | k + 1 => ((d.rounds μ (k + 1)).unknown μ).filter fun i =>
      (d.roundMarkers μ (k + 1)).any (·.isAncestorOf i.path)

def attempted (d : Document) : Nat → Nat
  | 0 => 0
  | k + 1 => attempted d k + (d.roundAttempts μ (k + 1)).length

def findings (dialect : Dialect) (d : Document) : Nat → List Diagnostic
  | 0 => []
  | k + 1 => findings dialect d k
      ++ (d.news μ k).map (fun i => unresolvedDiagnostic dialect (k + 1) d.sourceId i.unresolved)
      ++ (d.roundAttempts μ (k + 1)).filterMap (Attempt.diagnostic? d.sourceId)

/-- What is reported about the limit if there are no more rounds. -/
def excess (d : Document) (limit : Nat) : List Diagnostic :=
  (pendingBelow (d.roundMarkers μ limit) (d.rounds μ limit)).map fun i =>
    limitDiagnostic limit limit d.sourceId i.invocation

/-- A run over the document `d` that left `d'` and the report, with at most `limit` rounds. -/
structure Outcome (dialect : Dialect) (limit : Nat) (d d' : Document) (report : Report) : Prop where
  document : d' = freeze (d.roundMarkers μ limit) (d.rounds μ limit)
  passes_le : report.passes ≤ limit
  passes : ∀ k < limit, k < report.passes ↔ d.roundAttempts μ (k + 1) ≠ []
  expansions : report.expansions = d.attempted μ limit
  diagnostics : report.diagnostics.Perm (d.findings μ dialect limit ++ d.excess μ limit)

variable {μ} {d : Document}

theorem rounds_succ (d : Document) (k : Nat) :
    d.rounds μ (k + 1) = (d.roundAttempts μ (k + 1)).foldl write (d.rounds μ k) := rfl

theorem length_blocks_foldl_write (log : List Attempt) (d : Document) :
    (log.foldl write d).blocks.length = d.blocks.length := by
  induction log generalizing d with
  | nil => rfl
  | cons a log ih => rw [List.foldl_cons, ih, write, length_blocks_set]

theorem sourceId_rounds (d : Document) (k : Nat) : (d.rounds μ k).sourceId = d.sourceId := by
  induction k with
  | zero => rfl
  | succ k ih => rw [rounds_succ, sourceId_foldl_write, ih]

theorem length_blocks_rounds (d : Document) (k : Nat) : (d.rounds μ k).blocks.length = d.blocks.length := by
  induction k with
  | zero => rfl
  | succ k ih => rw [rounds_succ, length_blocks_foldl_write, ih]

theorem get?_of_mem_attempts {number : Nat} {a : Attempt} (ha : a ∈ d.attempts μ number) :
    d.get? a.path = some (.leaf (.invocation a.invocation)) := by
  obtain ⟨i, hi, ha⟩ := List.mem_filterMap.1 ha
  obtain ⟨result, -, rfl⟩ := Option.map_eq_some_iff.1 ha
  exact (mem_invocations.1 hi).1

/-- Markers at invocations of one document can be written in any order. -/
theorem foldl_write_perm {log log' : List Attempt} (hperm : log.Perm log')
    (hinv : ∀ a ∈ log, d.get? a.path = some (.leaf (.invocation a.invocation))) (hnodup : (log.map (·.path)).Nodup)
    (d' : Document) : log.foldl write d' = log'.foldl write d' := by
  refine hperm.foldl_eq' (fun a ha b hb d' => ?_) d'
  by_cases hpath : a.path = b.path
  · rw [List.inj_on_of_nodup_map hnodup ha hb hpath]
  · exact set_comm (apart_of_leaves (hinv b hb) (hinv a ha) (Ne.symm hpath))
      (apart_of_leaves (hinv a ha) (hinv b hb) hpath) _ _

/-! ### When nothing is left to do -/

theorem attempts_eq_nil {number : Nat} :
    d.attempts μ number = [] ↔ ∀ i ∈ d.invocations, μ i.placement i.invocation.call = none := by
  simp [attempts, List.filterMap_eq_nil_iff]

/-- After a round without attempts, there are none. -/
theorem rounds_of_idle {k j : Nat} (hidle : d.roundAttempts μ (k + 1) = []) (hj : k ≤ j) :
    d.rounds μ j = d.rounds μ k ∧ d.roundAttempts μ (j + 1) = [] := by
  induction hj with
  | refl => exact ⟨rfl, hidle⟩
  | @step j _ ih =>
    obtain ⟨hrounds, hattempts⟩ := ih
    have hsame : d.rounds μ (j + 1) = d.rounds μ k := by
      rw [rounds_succ, hattempts, List.foldl_nil, hrounds]
    refine ⟨hsame, ?_⟩
    show (d.rounds μ (j + 1)).attempts μ (j + 1 + 1) = []
    rw [hsame, attempts_eq_nil]
    exact attempts_eq_nil.1 hidle

theorem attempted_of_idle {k j : Nat} (hidle : d.roundAttempts μ (k + 1) = []) (hj : k ≤ j) :
    d.attempted μ j = d.attempted μ k := by
  induction hj with
  | refl => rfl
  | step hj ih => rw [attempted, (rounds_of_idle hidle hj).2, ih, List.length_nil, Nat.add_zero]

/-- The round without attempts still meets what the macros of the round before it yield. Later rounds meet nothing. -/
theorem findings_of_idle (dialect : Dialect) {k j : Nat} (hidle : d.roundAttempts μ (k + 1) = []) (hj : k < j) :
    d.findings μ dialect j = d.findings μ dialect (k + 1) := by
  induction hj with
  | refl => rfl
  | @step j hj ih =>
    obtain ⟨j, rfl⟩ := Nat.exists_eq_succ_of_ne_zero (Nat.ne_zero_of_lt hj)
    have hnews : d.news μ (j + 1) = [] := by
      rw [news, roundMarkers, (rounds_of_idle hidle (Nat.le_of_lt_succ hj)).2]
      exact List.filter_eq_nil_iff.2 fun _ _ => Bool.false_ne_true
    rw [findings, hnews, (rounds_of_idle hidle (Nat.le_of_lt hj)).2, ih, List.map_nil, List.filterMap_nil,
      List.append_nil, List.append_nil]

theorem roundMarkers_of_idle {k j : Nat} (hidle : d.roundAttempts μ (k + 1) = []) (hj : k < j) :
    d.roundMarkers μ j = [] := by
  obtain ⟨j, rfl⟩ := Nat.exists_eq_succ_of_ne_zero (Nat.ne_zero_of_lt hj)
  rw [roundMarkers, (rounds_of_idle hidle (Nat.le_of_lt_succ hj)).2, List.map_nil]

end Document

/-! ## A pass with such macros -/

section Pass

variable {resolver : Resolver σ σ} {find : String → Dialect → Option (Expander σ)} {dialect : Dialect}

/-- The resolution of a document by a registry that always answers. -/
def Document.resolution (find : String → Dialect → Option (Expander σ)) (dialect : Dialect) (d : Document) :
    Resolution σ :=
  .ofFound 0 (d.invocations.map fun i => (i, find i.invocation.identifier dialect))

theorem Resolver.resolve_of_find (ha : resolver.Answers fun identifier dialect => .ok (find identifier dialect))
    (dialect : Dialect) (d : Document) (state : σ) :
    (resolver.resolve dialect d state).1 = .ok (d.resolution find dialect) := by
  refine (resolveFrom_eq_ok _ _ _ _ _ _).2 ⟨_, ?_, rfl⟩
  rw [ha.answers_eq, List.map_map]
  rfl

theorem Document.unresolved_resolution (d : Document) (state : σ) :
    (d.resolution find dialect).unresolved =
      (d.unknown (meaning find dialect state)).map PlacedInvocation.unresolved := by
  simp only [resolution, unknown, Resolution.ofFound]
  induction d.invocations with
  | nil => rfl
  | cons i rest ih =>
    have hmeaning : (meaning find dialect state i.placement i.invocation.call).isNone =
        (find i.invocation.identifier dialect).isNone := Option.isNone_map
    rw [List.map_cons, List.filterMap_cons, List.filter_cons, hmeaning, ih]
    cases find i.invocation.identifier dialect <;> rfl

/-- The attempt of a resolved invocation of the document, by its macro and its call alone. -/
def ResolvedInvocation.attemptIn (dialect : Dialect) (number : Nat) (d : Document) (state : σ)
    (r : ResolvedInvocation σ) : Option Attempt :=
  (d.get? r.path >>= Block.invocation?).map fun i =>
    ⟨number, r.path, i, (r.expander.attempt ⟨⟨[], 0⟩, dialect, ⟨[]⟩, r.placement, i.call⟩ state).1⟩

/-- Scheduled invocations are attempted as if each was the first. -/
theorem attempts_of_local {number : Nat} {scheduled : List (ResolvedInvocation σ)} {d : Document}
    (hlocal : ∀ r ∈ scheduled, r.expander.IsLocal) (hinv : ∀ r ∈ scheduled, d.Invokes r.path)
    (hnodup : (scheduled.map (·.path)).Nodup) (state blank : σ) :
    attempts dialect number scheduled d state =
      scheduled.filterMap (ResolvedInvocation.attemptIn dialect number d blank) := by
  induction scheduled generalizing d state with
  | nil => rfl
  | cons r rest ih =>
    obtain ⟨hfresh, hnodup⟩ := List.nodup_cons.1 hnodup
    obtain ⟨i, hi⟩ := hinv r List.mem_cons_self
    have hother : ∀ r' ∈ rest, r.path ≠ r'.path := fun r' hr' heq => hfresh (List.mem_map.2 ⟨r', hr', heq.symm⟩)
    have hrest := fun r' hr' => hinv r' (List.mem_cons_of_mem _ hr')
    have hattempt : r.attemptIn dialect number d blank = some (r.attempt dialect number d i state).1 := by
      rw [ResolvedInvocation.attemptIn, Document.invocation?_of_get? hi, Option.map_some,
        ← (hlocal r List.mem_cons_self).attempt _ d r.path blank state]
      rfl
    -- The marker that was written first is apart from the invocations after it.
    have hsame : ∀ r' ∈ rest, (d.write (r.attempt dialect number d i state).1).get? r'.path = d.get? r'.path := by
      intro r' hr'
      obtain ⟨j, hj⟩ := hrest r' hr'
      exact Document.get?_set_of_apart (Document.apart_of_leaves hi hj (hother r' hr'))
        (Document.apart_of_leaves hj hi (Ne.symm (hother r' hr'))) _
    have hinv' : ∀ r' ∈ rest, (d.write (r.attempt dialect number d i state).1).Invokes r'.path := by
      intro r' hr'
      obtain ⟨j, hj⟩ := hrest r' hr'
      exact ⟨j, (hsame r' hr').trans hj⟩
    rw [attempts_cons hi, List.filterMap_cons_some hattempt,
      ih (fun r' hr' => hlocal r' (List.mem_cons_of_mem _ hr')) hinv' hnodup]
    congr 1
    refine List.filterMap_congr fun r' hr' => ?_
    rw [ResolvedInvocation.attemptIn, ResolvedInvocation.attemptIn, hsame r' hr']

theorem filterMap_attemptIn (number position : Nat) {d : Document} (state : σ) {invocations : List PlacedInvocation}
    (hinv : ∀ i ∈ invocations, d.get? i.path = some (.leaf (.invocation i.invocation))) :
    (Resolution.ofFound position (invocations.map fun i =>
        (i, find i.invocation.identifier dialect))).resolved.filterMap
          (ResolvedInvocation.attemptIn dialect number d state) =
      invocations.filterMap fun i => (meaning find dialect state i.placement i.invocation.call).map fun result =>
        ⟨number, i.path, i.invocation, result⟩ := by
  induction invocations generalizing position with
  | nil => rfl
  | cons i rest ih =>
    have hrest := ih (position + 1) fun j hj => hinv j (List.mem_cons_of_mem _ hj)
    have hi := Document.invocation?_of_get? (hinv i List.mem_cons_self)
    have hmeaning : meaning find dialect state i.placement i.invocation.call =
        (find i.invocation.identifier dialect).map fun e =>
          (e.attempt ⟨⟨[], 0⟩, dialect, ⟨[]⟩, i.placement, i.invocation.call⟩ state).1 := rfl
    rw [List.map_cons, Resolution.ofFound_cons, List.filterMap_cons, ← hrest, hmeaning]
    cases find i.invocation.identifier dialect with
    | none => rfl
    | some e =>
      simp only [Resolution.cons, List.filterMap_cons, ResolvedInvocation.attemptIn, hi, Option.map_some]

theorem Document.filterMap_resolved (number : Nat) (d : Document) (state : σ) :
    (d.resolution find dialect).resolved.filterMap (ResolvedInvocation.attemptIn dialect number d state) =
      d.attempts (meaning find dialect state) number :=
  filterMap_attemptIn number 0 state fun _ hi => (mem_invocations.1 hi).1

theorem Resolver.attempts_perm (ha : resolver.Answers fun identifier dialect => .ok (find identifier dialect))
    (hlocal : ∀ identifier dialect e, find identifier dialect = some e → e.IsLocal) (config : Config) (number : Nat)
    (d : Document) (state blank : σ) :
    (resolver.attempts config dialect number (d, state)).Perm (d.attempts (meaning find dialect blank) number) := by
  obtain ⟨next, hresolve⟩ : ∃ next, resolver.resolve dialect d state = (.ok (d.resolution find dialect), next) :=
    ⟨_, Prod.ext (resolve_of_find ha dialect d state) rfl⟩
  have hlookups := congrArg Prod.fst hresolve
  have hperm := schedule_perm config.order (d.resolution find dialect).resolved
  have hmacros : ∀ r ∈ schedule config.order (d.resolution find dialect).resolved, r.expander.IsLocal := by
    intro r hr
    obtain ⟨i, hi⟩ := invokes_of_mem_resolved hlookups (hperm.mem_iff.1 hr)
    have hfound := lookup_of_mem_resolved ha hlookups (hperm.mem_iff.1 hr) hi
    exact hlocal _ _ _ (Except.ok.inj hfound)
  have hinv : ∀ r ∈ schedule config.order (d.resolution find dialect).resolved, d.Invokes r.path :=
    fun r hr => invokes_of_mem_resolved hlookups (hperm.mem_iff.1 hr)
  have hnodup := (hperm.map (·.path)).nodup_iff.2 (nodup_paths_resolved hlookups)
  simp only [attempts, hresolve]
  rw [attempts_of_local hmacros hinv hnodup next blank, ← d.filterMap_resolved]
  exact hperm.filterMap _

end Pass

/-! ## Runs as rounds -/

namespace Progress

/-- A run is as far as the rounds. -/
structure Matches (μ : Meaning) (dialect : Dialect) (d : Document) (k : Nat) (q : Progress σ) : Prop where
  document : q.document = d.rounds μ k
  markers : q.markers.Perm (d.roundMarkers μ k)
  news : q.fresh ((q.document.unknown μ).map PlacedInvocation.unresolved) =
    (d.news μ k).map PlacedInvocation.unresolved
  passes : q.report.passes = k
  expansions : q.report.expansions = d.attempted μ k
  diagnostics : q.report.diagnostics.Perm (d.findings μ dialect k)
  work : ∀ j < k, d.roundAttempts μ (j + 1) ≠ []

variable {resolver : Resolver σ σ} {find : String → Dialect → Option (Expander σ)} {config : Config}
  {dialect : Dialect} {d : Document} {p q : Progress σ} {k : Nat}

theorem Matches.start (μ : Meaning) (dialect : Dialect) (d : Document) (state : σ) :
    Matches μ dialect d 0 (.start d state) where
  document := rfl
  markers := .refl _
  news := List.filter_eq_self.2 (by simp [Progress.start])
  passes := rfl
  expansions := rfl
  diagnostics := .refl _
  work := nofun

/-- What is not reported after a pass is what its macros yield. -/
theorem Step.fresh_eq (h : Step resolver config dialect p q) (hp : p.Standing) {markers : List Path}
    (hmarkers : q.markers.Perm markers) (μ : Meaning) :
    q.fresh ((q.document.unknown μ).map PlacedInvocation.unresolved) =
      ((q.document.unknown μ).filter fun i => markers.any (·.isAncestorOf i.path)).map
        PlacedInvocation.unresolved := by
  rw [fresh, List.filter_map]
  refine congrArg _ (List.filter_congr fun i hi => ?_)
  rw [Function.comp_apply, Bool.eq_iff_iff, decide_eq_true_eq, List.any_eq_true]
  have hreported := h.reported_iff hp (List.mem_filter.1 hi).1
  constructor
  · intro hfresh
    by_contra hcovered
    refine hfresh (hreported.2 fun m hm => ?_)
    rw [Bool.eq_false_iff]
    intro hanc
    exact hcovered ⟨m, hmarkers.mem_iff.1 hm, hanc⟩
  · rintro ⟨m, hm, hanc⟩ hold
    rw [hreported.1 hold m (hmarkers.mem_iff.2 hm)] at hanc
    cases hanc

theorem Matches.step (ha : resolver.Answers fun identifier dialect => .ok (find identifier dialect))
    (hlocal : ∀ identifier dialect e, find identifier dialect = some e → e.IsLocal) (blank : σ)
    (h : Matches (meaning find dialect blank) dialect d k p) (hp : p.Standing)
    (hstep : Step resolver config dialect p q) : Matches (meaning find dialect blank) dialect d (k + 1) q := by
  obtain ⟨resolution, hlookups, -, -, hadds⟩ := hstep.adds
  obtain rfl : resolution = p.document.resolution find dialect :=
    Except.ok.inj (hlookups.symm.trans (Resolver.resolve_of_find ha dialect _ _))
  have hperm : (resolver.attempts config dialect (p.report.passes + 1) (p.document, p.state)).Perm
      (d.roundAttempts (meaning find dialect blank) (k + 1)) := by
    rw [h.passes, h.document]
    exact Resolver.attempts_perm ha hlocal config (k + 1) _ p.state blank
  have hinv (a : Attempt) (ha : a ∈ resolver.attempts config dialect (p.report.passes + 1) (p.document, p.state)) :
      p.document.get? a.path = some (.leaf (.invocation a.invocation)) := Resolver.get?_of_mem_attempts ha
  have hnodup := hstep.nodup
  rw [hadds.markers] at hnodup
  generalize resolver.attempts config dialect (p.report.passes + 1) (p.document, p.state) = log
    at hadds hperm hinv hnodup
  have hmarkers : q.markers.Perm (d.roundMarkers (meaning find dialect blank) (k + 1)) := by
    rw [hadds.markers]
    exact hperm.map _
  have hdocument : q.document = d.rounds (meaning find dialect blank) (k + 1) := by
    rw [hadds.document, Document.foldl_write_perm hperm hinv hnodup, h.document]
    rfl
  have hsource : p.document.sourceId = d.sourceId := by rw [h.document, Document.sourceId_rounds]
  constructor
  case document =>
    exact hdocument
  case markers =>
    exact hmarkers
  case news =>
    rw [hstep.fresh_eq hp hmarkers, hdocument]
    rfl
  case passes =>
    rw [hadds.passes, h.passes]
  case expansions =>
    rw [hadds.expansions, h.expansions, hperm.length_eq]
    rfl
  case diagnostics =>
    rw [hadds.diagnostics, Document.unresolved_resolution p.document blank, h.news, hsource, h.passes, List.map_map]
    exact (h.diagnostics.append_right _).append (hperm.filterMap _)
  case work =>
    intro j hj
    rcases Nat.lt_succ_iff_lt_or_eq.1 hj with hlt | rfl
    · exact h.work j hlt
    · intro hidle
      have hnil := hmarkers
      rw [Document.roundMarkers, hidle] at hnil
      exact hstep.markers_ne_nil hnil.eq_nil

theorem Steps.matches (ha : resolver.Answers fun identifier dialect => .ok (find identifier dialect))
    (hlocal : ∀ identifier dialect e, find identifier dialect = some e → e.IsLocal) (blank : σ) {state : σ}
    (h : Steps resolver config dialect (.start d state) k q) :
    Matches (meaning find dialect blank) dialect d k q := by
  induction h with
  | refl => exact .start _ dialect d state
  | tail steps step ih => exact ih.step ha hlocal blank steps.standing step

/-- A run that stops is done with the rounds. -/
theorem Matches.stop {μ : Meaning} (h : Matches μ dialect d k q) :
    ∃ report, (q.stop k).result = .ok report ∧ d.Outcome μ dialect k (q.stop k).document report := by
  refine ⟨_, rfl, ?_⟩
  constructor
  case document =>
    show freeze q.markers q.document = _
    rw [freeze_perm h.markers, h.document]
  case passes_le =>
    exact Nat.le_of_eq h.passes
  case passes =>
    intro j hj
    exact ⟨fun _ => h.work j hj, fun _ => h.passes.symm ▸ hj⟩
  case expansions =>
    exact h.expansions
  case diagnostics =>
    refine h.diagnostics.append (.of_eq ?_)
    rw [pendingBelow_perm h.markers, h.document, h.passes, Document.sourceId_rounds]
    rfl

/-- A run that finds nothing to do is done with the rounds as well: the rest of them have no attempts. -/
theorem Matches.finish {μ : Meaning} (h : Matches μ dialect d k q)
    (hidle : d.roundAttempts μ (k + 1) = []) {limit : Nat} (hlimit : k < limit) :
    d.Outcome μ dialect limit q.document
      (q.reportUnresolved dialect ((q.document.unknown μ).map PlacedInvocation.unresolved)).report := by
  have hmarkers := Document.roundMarkers_of_idle hidle hlimit
  obtain ⟨hrounds, -⟩ := Document.rounds_of_idle hidle (Nat.le_of_lt hlimit)
  constructor
  case document =>
    rw [hmarkers, hrounds, freeze_nil, h.document]
  case passes_le =>
    exact h.passes.symm ▸ Nat.le_of_lt hlimit
  case passes =>
    intro j hj
    refine ⟨fun hlt => h.work j (h.passes ▸ hlt), fun hwork => ?_⟩
    by_contra hle
    exact hwork (Document.rounds_of_idle hidle (h.passes ▸ Nat.le_of_not_lt hle)).2
  case expansions =>
    rw [Document.attempted_of_idle hidle (Nat.le_of_lt hlimit)]
    exact h.expansions
  case diagnostics =>
    have hexcess : d.excess μ limit = [] := by rw [Document.excess, hmarkers, pendingBelow_nil, List.map_nil]
    rw [hexcess, List.append_nil, Document.findings_of_idle dialect hidle hlimit, Document.findings, hidle,
      List.filterMap_nil, List.append_nil]
    refine h.diagnostics.append (.of_eq ?_)
    show (q.fresh _).map _ = _
    rw [h.news, List.map_map, h.passes, h.document, Document.sourceId_rounds]
    rfl

end Progress

/-! ## Whole runs -/

/-- A run that is not strict, with a registry that always answers and macros that look only at their calls, succeeds.
What it leaves and what it reports are those of the rounds. -/
theorem Resolver.expandDocument_outcome {resolver : Resolver σ σ} {find : String → Dialect → Option (Expander σ)}
    (ha : resolver.Answers fun identifier dialect => .ok (find identifier dialect))
    (hlocal : ∀ identifier dialect e, find identifier dialect = some e → e.IsLocal) {config : Config}
    (hconfig : config.maxDepth ≠ 0) (hlenient : config.strict = false) (dialect : Dialect) (d : Document)
    (state blank : σ) :
    ∃ report, (resolver.expandDocument config dialect d state).result = .ok report ∧
      d.Outcome (meaning find dialect blank) dialect config.maxDepth
        (resolver.expandDocument config dialect d state).document report := by
  obtain ⟨k, q, hsteps, hends⟩ := resolver.exists_ends hconfig dialect d state
  have hmatches := hsteps.matches ha hlocal blank
  generalize resolver.expandDocument config dialect d state = run at hends ⊢
  have hresolve := resolve_of_find ha dialect q.document q.state
  cases hends with
  | unavailable _ lookups =>
    rw [lookups] at hresolve
    cases hresolve
  | unknown _ _ strict =>
    rw [hlenient] at strict
    cases strict
  | converged early lookups _ idle =>
    rw [lookups] at hresolve
    obtain rfl := Except.ok.inj hresolve
    have hidle : d.roundAttempts (meaning find dialect blank) (k + 1) = [] := by
      show (d.rounds _ k).attempts _ (k + 1) = []
      rw [← hmatches.document, ← Document.filterMap_resolved, idle, List.filterMap_nil]
    rw [Document.unresolved_resolution q.document blank]
    exact ⟨_, rfl, hmatches.finish hidle early⟩
  | stopped full =>
    subst full
    exact hmatches.stop

end MacroDoc
