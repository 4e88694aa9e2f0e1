import MacroDoc.Proofs.Expansion.Failure

/-!
# The attempts of a run

A pass attempts every invocation that it meets: its macro yields blocks, or there is a fault. What a pass writes and
reports is a function of its attempts.

* `Attempt` : an invocation with what came of it; `Document.write` puts its marker in place;
* `attempts`, `Resolver.attempts`, `Resolver.history` : those of scheduled invocations, of a pass, and of the first
  passes of a run;
* `executePass_eq` : a pass in terms of its attempts;
* `Progress.Step.adds` : all that one pass of a run adds to what it found;
* `Progress.Steps.preserves_history` : what every pass keeps about the run and its history so far.
-/

namespace MacroDoc

open Progress

variable {σ : Type}

theorem Fault.kind_eq (fault : Fault) : fault.kind = .placement ∨ fault.kind = .macroExecution := by
  cases fault <;> simp [Fault.kind]

/-- An invocation that a pass met, and what came of it. -/
structure Attempt where
  pass : Nat
  path : Path
  invocation : Invocation
  result : Except Fault (List Block)

namespace Attempt

def children (a : Attempt) : List Block :=
  match a.result with
  | .ok blocks => forgetSpans blocks
  | .error fault => [fault.notice a.invocation.identifier]

def marker (a : Attempt) : Block :=
  .node (.marker a.invocation.call) a.children

def diagnostic? (sourceId : Nat) (a : Attempt) : Option Diagnostic :=
  match a.result with
  | .ok _ => none
  | .error fault =>
    some ⟨fault.kind, a.invocation.identifier, fault.message, a.invocation.span, sourceId, a.pass⟩

theorem diagnostic?_eq_some {sourceId : Nat} {a : Attempt} {g : Diagnostic} :
    a.diagnostic? sourceId = some g ↔ ∃ fault : Fault, a.result = .error fault ∧
      g = ⟨fault.kind, a.invocation.identifier, fault.message, a.invocation.span, sourceId, a.pass⟩ := by
  unfold diagnostic?
  cases a.result with
  | ok blocks => simp
  | error fault => simp [eq_comm]

theorem kind_of_mem_diagnostics {sourceId : Nat} {log : List Attempt} {g : Diagnostic}
    (hg : g ∈ log.filterMap (diagnostic? sourceId)) : g.kind = .placement ∨ g.kind = .macroExecution := by
  obtain ⟨a, -, ha⟩ := List.mem_filterMap.1 hg
  obtain ⟨fault, -, rfl⟩ := diagnostic?_eq_some.1 ha
  exact fault.kind_eq

end Attempt

def Document.write (d : Document) (a : Attempt) : Document :=
  d.set a.path a.marker

theorem Document.sourceId_foldl_write (log : List Attempt) (d : Document) :
    (log.foldl Document.write d).sourceId = d.sourceId := by
  induction log generalizing d with
  | nil => rfl
  | cons a log ih => rw [List.foldl_cons, ih, Document.write, sourceId_set]

/-- Attempt a resolved invocation that stands at its path. -/
def ResolvedInvocation.attempt (r : ResolvedInvocation σ) (dialect : Dialect) (pass : Nat) (d : Document)
    (i : Invocation) (state : σ) : Attempt × σ :=
  let (result, state) := r.expander.attempt ⟨d, dialect, r.path, r.placement, i.call⟩ state
  (⟨pass, r.path, i, result⟩, state)

/-- The attempts of scheduled invocations, each on the document that those before it left. -/
def attempts (dialect : Dialect) (pass : Nat) : List (ResolvedInvocation σ) → Document → σ → List Attempt
  | [], _, _ => []
  | r :: rest, d, state =>
    match d.get? r.path >>= Block.invocation? with
    | none => attempts dialect pass rest d state
    | some i =>
      let (a, state) := r.attempt dialect pass d i state
      a :: attempts dialect pass rest (d.write a) state

/-- The attempts of one pass over a document and the shared state. -/
def Resolver.attempts (resolver : Resolver σ σ) (config : Config) (dialect : Dialect) (number : Nat)
    (s : Document × σ) : List Attempt :=
  match resolver.resolve dialect s.1 s.2 with
  | (.error _, _) => []
  | (.ok resolution, state) => MacroDoc.attempts dialect number (schedule config.order resolution.resolved) s.1 state

/-- The attempts of a number of passes, of which the first has number 1. -/
def Resolver.history (resolver : Resolver σ σ) (config : Config) (dialect : Dialect) (s : Document × σ) :
    Nat → List Attempt
  | 0 => []
  | k + 1 => history resolver config dialect s k ++
      ((resolver.passes? config dialect k s).elim [] (resolver.attempts config dialect (k + 1)))

/-! ## A pass -/

section Pass

variable {dialect : Dialect} {pass : Nat} {r : ResolvedInvocation σ} {d : Document} {state : σ}

theorem Document.invocation?_of_get? {path : Path} {i : Invocation} (h : d.get? path = some (.leaf (.invocation i))) :
    (d.get? path >>= Block.invocation?) = some i := by
  rw [h]
  rfl

theorem executeOne_eq (dialect : Dialect) (pass : Nat) (r : ResolvedInvocation σ) (d : Document) (state : σ) :
    executeOne dialect pass r d state = (d.get? r.path >>= Block.invocation?).map fun i =>
      ⟨d.write (r.attempt dialect pass d i state).1, (r.attempt dialect pass d i state).2,
        (r.attempt dialect pass d i state).1.diagnostic? d.sourceId⟩ := by
  unfold executeOne
  congr 1
  funext i
  simp only [ResolvedInvocation.attempt]
  rcases r.expander.attempt ⟨d, dialect, r.path, r.placement, i.call⟩ state with ⟨fault | blocks, next⟩
  · rfl
  · rfl

theorem attempts_cons {i : Invocation} (h : d.get? r.path = some (.leaf (.invocation i)))
    (rest : List (ResolvedInvocation σ)) :
    attempts dialect pass (r :: rest) d state =
      (r.attempt dialect pass d i state).1 ::
        attempts dialect pass rest (d.write (r.attempt dialect pass d i state).1)
          (r.attempt dialect pass d i state).2 := by
  simp only [attempts, Document.invocation?_of_get? h]

theorem executePass_eq (dialect : Dialect) (pass : Nat) (scheduled : List (ResolvedInvocation σ)) (d : Document)
    (state : σ) :
    let log := attempts dialect pass scheduled d state
    let o := executePass dialect pass scheduled d state
    o.document = log.foldl Document.write d ∧ o.markers = log.map (·.path) ∧
      o.diagnostics = log.filterMap (Attempt.diagnostic? d.sourceId) := by
  induction scheduled generalizing d state with
  | nil => exact ⟨rfl, rfl, rfl⟩
  | cons r rest ih =>
    simp only [executePass, executeOne_eq, attempts]
    cases d.get? r.path >>= Block.invocation? with
    | none => exact ih d state
    | some i =>
      obtain ⟨hdocument, hmarkers, hdiagnostics⟩ :=
        ih (d.write (r.attempt dialect pass d i state).1) (r.attempt dialect pass d i state).2
      simp only [Option.map_some, List.foldl_cons, List.map_cons, List.filterMap_cons]
      refine ⟨hdocument, by rw [hmarkers]; rfl, ?_⟩
      rw [hdiagnostics, Document.write, Document.sourceId_set]
      cases (r.attempt dialect pass d i state).1.diagnostic? d.sourceId <;> rfl

/-- Each attempt is that of a scheduled invocation, on the document and the state that those before it left. -/
theorem exists_attempt_of_mem_attempts {scheduled : List (ResolvedInvocation σ)} {a : Attempt}
    (ha : a ∈ attempts dialect pass scheduled d state) :
    ∃ r ∈ scheduled, ∃ d' i state', a = (r.attempt dialect pass d' i state').1 := by
  induction scheduled generalizing d state with
  | nil => cases ha
  | cons r rest ih =>
    simp only [attempts] at ha
    split at ha
    · obtain ⟨r', hr', hattempt⟩ := ih ha
      exact ⟨r', List.mem_cons_of_mem _ hr', hattempt⟩
    · rcases List.mem_cons.1 ha with rfl | ha
      · exact ⟨r, List.mem_cons_self, d, _, state, rfl⟩
      · obtain ⟨r', hr', hattempt⟩ := ih ha
        exact ⟨r', List.mem_cons_of_mem _ hr', hattempt⟩

theorem path_of_mem_attempts {scheduled : List (ResolvedInvocation σ)} {a : Attempt}
    (ha : a ∈ attempts dialect pass scheduled d state) : ∃ r ∈ scheduled, a.path = r.path := by
  obtain ⟨r, hr, d', i, state', rfl⟩ := exists_attempt_of_mem_attempts ha
  exact ⟨r, hr, rfl⟩

theorem get?_of_mem_attempts {scheduled : List (ResolvedInvocation σ)} (hinv : ∀ r ∈ scheduled, d.Invokes r.path)
    (hnodup : (scheduled.map (·.path)).Nodup) {a : Attempt} (ha : a ∈ attempts dialect pass scheduled d state) :
    d.get? a.path = some (.leaf (.invocation a.invocation)) := by
  induction scheduled generalizing d state with
  | nil => cases ha
  | cons r rest ih =>
    obtain ⟨hfresh, hnodup⟩ := List.nodup_cons.1 hnodup
    obtain ⟨i, hi⟩ := hinv r List.mem_cons_self
    have hother : ∀ r' ∈ rest, r.path ≠ r'.path := fun r' hr' heq => hfresh (List.mem_map.2 ⟨r', hr', heq.symm⟩)
    rw [attempts_cons hi] at ha
    rcases List.mem_cons.1 ha with rfl | ha
    · exact hi
    · have hwritten := ih (fun r' hr' => (hinv r' (List.mem_cons_of_mem _ hr')).set ⟨i, hi⟩ (hother r' hr') _) hnodup ha
      -- The marker that was written first is apart from the invocations after it.
      obtain ⟨r', hr', hpath⟩ := path_of_mem_attempts ha
      obtain ⟨j, hj⟩ := hinv r' (List.mem_cons_of_mem _ hr')
      have hapart := Document.apart_of_leaves hi hj (hother r' hr')
      exact (Document.get?_set_eq_leaf (hpath ▸ hapart) _ _).1 hwritten

end Pass

/-! ## A pass of a run -/

namespace Resolver

variable {resolver : Resolver σ σ} {config : Config} {dialect : Dialect} {number : Nat} {s : Document × σ}
  {a : Attempt}

theorem exists_resolution_of_mem_attempts (ha : a ∈ resolver.attempts config dialect number s) :
    ∃ resolution state, (resolver.resolve dialect s.1 s.2).1 = .ok resolution ∧
      a ∈ MacroDoc.attempts dialect number (schedule config.order resolution.resolved) s.1 state := by
  unfold attempts at ha
  rcases hresolve : resolver.resolve dialect s.1 s.2 with ⟨_ | resolution, state⟩
  · rw [hresolve] at ha
    cases ha
  · rw [hresolve] at ha
    exact ⟨resolution, state, rfl, ha⟩

theorem exists_resolved_of_mem_attempts (ha : a ∈ resolver.attempts config dialect number s) :
    ∃ resolution, (resolver.resolve dialect s.1 s.2).1 = .ok resolution ∧
      ∃ r ∈ resolution.resolved, ∃ d i state, a = (r.attempt dialect number d i state).1 := by
  obtain ⟨resolution, _, hlookups, ha⟩ := exists_resolution_of_mem_attempts ha
  obtain ⟨r, hr, hattempt⟩ := exists_attempt_of_mem_attempts ha
  exact ⟨resolution, hlookups, r, (schedule_perm config.order resolution.resolved).mem_iff.1 hr, hattempt⟩

theorem get?_of_mem_attempts (ha : a ∈ resolver.attempts config dialect number s) :
    s.1.get? a.path = some (.leaf (.invocation a.invocation)) := by
  obtain ⟨resolution, _, hlookups, ha⟩ := exists_resolution_of_mem_attempts ha
  have hperm := schedule_perm config.order resolution.resolved
  refine MacroDoc.get?_of_mem_attempts (fun r hr => ?_) ?_ ha
  · exact invokes_of_mem_resolved hlookups (hperm.mem_iff.1 hr)
  · exact (hperm.map _).nodup_iff.2 (nodup_paths_resolved hlookups)

end Resolver

namespace Progress

/-- The unresolved invocations that are not reported yet. -/
def fresh (p : Progress σ) (unresolved : List UnresolvedInvocation) : List UnresolvedInvocation :=
  unresolved.filter fun u => u.path ∉ p.reported

/-- What a pass with the given unresolved invocations and attempts adds to the progress of a run. -/
structure Adds (dialect : Dialect) (unresolved : List UnresolvedInvocation) (log : List Attempt) (p q : Progress σ) :
    Prop where
  document : q.document = log.foldl Document.write p.document
  markers : q.markers = log.map (·.path)
  reported : q.reported = p.reported ++ (p.fresh unresolved).map (·.path)
  passes : q.report.passes = p.report.passes + 1
  expansions : q.report.expansions = p.report.expansions + log.length
  diagnostics : q.report.diagnostics = p.report.diagnostics
    ++ (p.fresh unresolved).map (unresolvedDiagnostic dialect (p.report.passes + 1) p.document.sourceId)
    ++ log.filterMap (Attempt.diagnostic? p.document.sourceId)

variable {resolver : Resolver σ σ} {config : Config} {dialect : Dialect} {p q : Progress σ} {k : Nat}

/-- What a pass adds to the diagnostics: first what is not found, then what fails. -/
theorem Adds.diagnostics_eq {unresolved : List UnresolvedInvocation} {log : List Attempt}
    (h : Adds dialect unresolved log p q) :
    q.report.diagnostics = (p.reportUnresolved dialect unresolved).report.diagnostics ++
      log.filterMap (Attempt.diagnostic? p.document.sourceId) :=
  h.diagnostics

/-- The attempts of a pass are those that the progress of the run before it determines. -/
theorem Step.adds (h : Step resolver config dialect p q) :
    ∃ resolution, (resolver.resolve dialect p.document p.state).1 = .ok resolution ∧
      (config.strict = true → resolution.unresolved = []) ∧ q.markers.Perm (resolution.resolved.map (·.path)) ∧
      Adds dialect resolution.unresolved
        (resolver.attempts config dialect (p.report.passes + 1) (p.document, p.state)) p q := by
  obtain ⟨resolution', hlookups', -, hperm, -⟩ := h.effect
  cases h with
  | @pass resolution state lookups lenient work =>
    have hlookups : (resolver.resolve dialect p.document p.state).1 = .ok resolution := by rw [lookups]
    obtain rfl : resolution = resolution' := Except.ok.inj (hlookups.symm.trans hlookups')
    refine ⟨resolution, hlookups, lenient, hperm, ?_⟩
    obtain ⟨hdocument, hmarkers, hdiagnostics⟩ := executePass_eq dialect (p.report.passes + 1)
      (schedule config.order resolution.resolved) p.document state
    simp only [Resolver.attempts, lookups]
    refine ⟨hdocument, hmarkers, rfl, rfl, ?_, ?_⟩
    · simp only [Progress.pass, reportUnresolved, PassOutcome.executed, hmarkers, List.length_map]
    · simp only [Progress.pass, reportUnresolved, hdiagnostics, fresh]

/-- A pass replaces the invocations that it attempts by the markers of its attempts. -/
theorem Step.marked_attempts (h : Step resolver config dialect p q) :
    Marked (fun path i children => ∃ a ∈ resolver.attempts config dialect (p.report.passes + 1) (p.document, p.state),
      a.path = path ∧ a.invocation = i ∧ a.children = children) q.markers p.document q.document := by
  obtain ⟨resolution, -, -, -, hadds⟩ := h.adds
  have hnodup := h.nodup
  rw [hadds.markers] at hnodup ⊢
  rw [hadds.document]
  exact .of_foldl (fun a ha => Resolver.get?_of_mem_attempts ha) (fun a ha => ⟨a, ha, rfl, rfl, rfl⟩) hnodup

theorem Step.exists_marker (h : Step resolver config dialect p q) {a : Attempt}
    (ha : a ∈ resolver.attempts config dialect (p.report.passes + 1) (p.document, p.state)) :
    ∃ children, q.document.get? a.path = some (.node (.marker a.invocation.call) children) := by
  obtain ⟨resolution, -, -, -, hadds⟩ := h.adds
  have hmem : a.path ∈ q.markers := by
    rw [hadds.markers]
    exact List.mem_map_of_mem ha
  obtain ⟨i, children, hi, -, hbelow⟩ := h.marked.get?_append_of_mem (fun m hm => h.invokes hm) h.nodup hmem
  rw [Resolver.get?_of_mem_attempts ha] at hi
  obtain rfl : a.invocation = i := by simpa using hi
  exact ⟨children, by simpa using hbelow []⟩

/-- What every pass keeps about the run and its history so far holds after any number of passes. -/
theorem Steps.preserves_history {d : Document} {state : σ} (inv : List Attempt → Progress σ → Prop)
    (h : Steps resolver config dialect (.start d state) k q) (hstart : inv [] (.start d state))
    (hstep : ∀ log p q, Step resolver config dialect p q → inv log p →
      inv (log ++ resolver.attempts config dialect (p.report.passes + 1) (p.document, p.state)) q) :
    inv (resolver.history config dialect (d, state) k) q := by
  induction h with
  | refl => exact hstart
  | @tail k p q steps step ih =>
    have hnumber : p.report.passes = k := by
      rw [steps.passes]
      exact Nat.zero_add k
    rw [Resolver.history, steps.passes?_eq, Option.elim_some, ← hnumber]
    exact hstep _ p q step (hnumber ▸ ih)

theorem Steps.mem_history {d : Document} {state : σ} (h : Steps resolver config dialect (.start d state) k q)
    {m : Path} (hm : m ∈ q.markers) : ∃ a ∈ resolver.history config dialect (d, state) k, a.path = m := by
  revert m
  apply h.preserves_history fun log q => ∀ {m : Path}, m ∈ q.markers → ∃ a ∈ log, a.path = m
  · intro m hm
    cases hm
  · intro log p q hstep _ m hm
    obtain ⟨resolution, -, -, -, hadds⟩ := hstep.adds
    rw [hadds.markers] at hm
    obtain ⟨a, ha, rfl⟩ := List.mem_map.1 hm
    exact ⟨a, List.mem_append_right _ ha, rfl⟩

end Progress

end MacroDoc
