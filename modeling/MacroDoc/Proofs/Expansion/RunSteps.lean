import MacroDoc.Proofs.Expansion.PassEffect

/-!
# Runs, pass by pass

A run is a number of passes, and then one of four endings.

* `Progress.Step`, `Progress.Steps` : one pass of a run, and a number of them;
* `Progress.Ends` : the endings: a lookup is not answered, an invocation is unknown in strict mode, nothing is left
  to run, or the passes are used up;
* `Resolver.exists_ends`, `Progress.Ends.eq_expandDocument` : every run with a valid configuration is some steps and
  an ending, and these determine it;
* `Progress.Step.effect` : what one pass does to the document;
* `Run.error?` : the error that a run returned.
-/

namespace MacroDoc

variable {σ : Type}

def Run.error? (run : Run σ) : Option ExpansionError :=
  match run.result with
  | .error e => some e
  | .ok _ => none

theorem Run.error?_eq_some {run : Run σ} {e : ExpansionError} : run.error? = some e ↔ run.result = .error e := by
  unfold Run.error?
  cases run.result with
  | error e' => simp
  | ok report => simp

theorem Run.error?_eq_none {run : Run σ} : run.error? = none ↔ ∃ report, run.result = .ok report := by
  unfold Run.error?
  cases run.result with
  | error e => simp
  | ok report => simp

namespace Progress

variable (resolver : Resolver σ σ) (config : Config) (dialect : Dialect)

/-- One pass of a run. Every invocation is looked up, in strict mode all are known, and those that are known run. -/
inductive Step (p : Progress σ) : Progress σ → Prop where
  | pass {resolution : Resolution σ} {state : σ}
      (lookups : resolver.resolve dialect p.document p.state = (.ok resolution, state))
      (lenient : config.strict = true → resolution.unresolved = [])
      (work : resolution.resolved ≠ []) :
      Step p (({ p with state := state }.reportUnresolved dialect resolution.unresolved).pass dialect
        (schedule config.order resolution.resolved))

/-- A number of passes of a run. -/
inductive Steps (p : Progress σ) : Nat → Progress σ → Prop where
  | refl : Steps p 0 p
  | tail {k : Nat} {q r : Progress σ} (steps : Steps p k q) (step : Step resolver config dialect q r) :
      Steps p (k + 1) r

/-- How a run ends after `k` passes. The document that it leaves is the one of `p`, with pending invocations frozen
if the passes are used up. -/
inductive Ends (k : Nat) (p : Progress σ) : Run σ → Prop where
  | unavailable {e : ExpansionError} {state : σ} (early : k < config.maxDepth)
      (lookups : resolver.resolve dialect p.document p.state = (.error e, state)) :
      Ends k p ({ p with state := state }.fail e)
  | unknown {resolution : Resolution σ} {state : σ} {u : UnresolvedInvocation} {others : List UnresolvedInvocation}
      (early : k < config.maxDepth)
      (lookups : resolver.resolve dialect p.document p.state = (.ok resolution, state))
      (strict : config.strict = true) (unresolved : resolution.unresolved = u :: others) :
      Ends k p ({ p with state := state }.fail (.unresolvedMacro u.identifier dialect u.span))
  | converged {resolution : Resolution σ} {state : σ} (early : k < config.maxDepth)
      (lookups : resolver.resolve dialect p.document p.state = (.ok resolution, state))
      (lenient : config.strict = true → resolution.unresolved = []) (idle : resolution.resolved = []) :
      Ends k p ({ p with state := state }.reportUnresolved dialect resolution.unresolved).finish
  | stopped (full : k = config.maxDepth) : Ends k p (p.stop config.maxDepth)

variable {resolver config dialect} {p q : Progress σ} {k : Nat}

theorem Steps.passes (h : Steps resolver config dialect p k q) : q.report.passes = p.report.passes + k := by
  induction h with
  | refl => rfl
  | tail _ step ih =>
    cases step
    simp only [pass, reportUnresolved, ih, Nat.add_assoc]

/-- What holds at the start and is kept by every pass holds after any number of passes. -/
theorem Steps.preserves {inv : Progress σ → Prop} (h : Steps resolver config dialect p k q)
    (hstep : ∀ q r, Step resolver config dialect q r → inv q → inv r) (hp : inv p) : inv q := by
  induction h with
  | refl => exact hp
  | tail _ step ih => exact hstep _ _ step ih

/-- What every pass establishes holds after any number of passes but none. -/
theorem Steps.established {inv : Progress σ → Prop} (h : Steps resolver config dialect p k q)
    (hstep : ∀ q r, Step resolver config dialect q r → inv r) (hk : k ≠ 0) : inv q := by
  cases h with
  | refl => exact absurd rfl hk
  | tail _ step => exact hstep _ _ step

theorem Steps.exists_last (h : Steps resolver config dialect p k q) (hk : k ≠ 0) :
    ∃ r, Step resolver config dialect r q := by
  cases h with
  | refl => exact absurd rfl hk
  | tail _ step => exact ⟨_, step⟩

theorem Ends.le {run : Run σ} (h : Ends resolver config dialect k p run) : k ≤ config.maxDepth := by
  cases h with
  | unavailable early => exact Nat.le_of_lt early
  | unknown early => exact Nat.le_of_lt early
  | converged early => exact Nat.le_of_lt early
  | stopped full => exact Nat.le_of_eq full

/-! ## What a pass does -/

/-- A pass replaces exactly the invocations that were resolved, by markers of their calls. -/
theorem Step.effect (h : Step resolver config dialect p q) :
    ∃ resolution, (resolver.resolve dialect p.document p.state).1 = .ok resolution ∧
      (config.strict = true → resolution.unresolved = []) ∧
      q.markers.Perm (resolution.resolved.map (·.path)) ∧ Marked Produced q.markers p.document q.document := by
  cases h with
  | @pass resolution state lookups lenient work =>
    have hlookups : (resolver.resolve dialect p.document p.state).1 = .ok resolution := by rw [lookups]
    have hperm := schedule_perm config.order resolution.resolved
    have hinv : ∀ r ∈ schedule config.order resolution.resolved, p.document.Invokes r.path := by
      intro r hr
      exact Resolver.invokes_of_mem_resolved hlookups (hperm.mem_iff.1 hr)
    have hnodup : ((schedule config.order resolution.resolved).map (·.path)).Nodup :=
      (hperm.map _).nodup_iff.2 (Resolver.nodup_paths_resolved hlookups)
    refine ⟨resolution, hlookups, lenient, ?_, executePass_marked _ _ _ _ _⟩
    have hmarkers := markers_executePass dialect (p.report.passes + 1) state hinv hnodup
    simp only [Progress.pass, reportUnresolved]
    rw [hmarkers]
    exact hperm.map _

theorem Step.invokes (h : Step resolver config dialect p q) {m : Path} (hm : m ∈ q.markers) :
    p.document.Invokes m := by
  obtain ⟨resolution, hlookups, -, hperm, -⟩ := h.effect
  obtain ⟨r, hr, rfl⟩ := List.mem_map.1 (hperm.mem_iff.1 hm)
  exact Resolver.invokes_of_mem_resolved hlookups hr

theorem Step.markers_ne_nil (h : Step resolver config dialect p q) : q.markers ≠ [] := by
  obtain ⟨resolution', hlookups', -, hperm, -⟩ := h.effect
  cases h with
  | @pass resolution state lookups lenient work =>
    have hlookups : (resolver.resolve dialect p.document p.state).1 = .ok resolution := by rw [lookups]
    obtain rfl : resolution = resolution' := Except.ok.inj (hlookups.symm.trans hlookups')
    intro hmarkers
    rw [hmarkers] at hperm
    exact work (List.map_eq_nil_iff.1 hperm.nil_eq.symm)

theorem Step.nodup (h : Step resolver config dialect p q) : q.markers.Nodup := by
  obtain ⟨resolution, hlookups, -, hperm, -⟩ := h.effect
  exact hperm.nodup_iff.2 (Resolver.nodup_paths_resolved hlookups)

theorem Step.marked (h : Step resolver config dialect p q) : Marked Produced q.markers p.document q.document := by
  obtain ⟨-, -, -, -, hmarked⟩ := h.effect
  exact hmarked

end Progress

/-! ## Whole runs -/

open Progress

section Unfolding

variable {resolver : Resolver σ σ} {config : Config} {dialect : Dialect} {p : Progress σ} {state : σ}

theorem runPasses_of_unavailable {e : ExpansionError}
    (hlookups : resolver.resolve dialect p.document p.state = (.error e, state)) (remaining : Nat) :
    runPasses resolver config dialect (remaining + 1) p = { p with state := state }.fail e := by
  simp only [runPasses, hlookups]

theorem runPasses_of_unknown {resolution : Resolution σ} {u : UnresolvedInvocation}
    {others : List UnresolvedInvocation}
    (hlookups : resolver.resolve dialect p.document p.state = (.ok resolution, state))
    (hstrict : config.strict = true) (hunresolved : resolution.unresolved = u :: others) (remaining : Nat) :
    runPasses resolver config dialect (remaining + 1) p =
      { p with state := state }.fail (.unresolvedMacro u.identifier dialect u.span) := by
  simp only [runPasses, hlookups, hstrict, hunresolved]

theorem runPasses_of_lenient {resolution : Resolution σ}
    (hlookups : resolver.resolve dialect p.document p.state = (.ok resolution, state))
    (hlenient : config.strict = true → resolution.unresolved = []) (remaining : Nat) :
    runPasses resolver config dialect (remaining + 1) p =
      if resolution.resolved.isEmpty then
        ({ p with state := state }.reportUnresolved dialect resolution.unresolved).finish
      else runPasses resolver config dialect remaining
        (({ p with state := state }.reportUnresolved dialect resolution.unresolved).pass dialect
          (schedule config.order resolution.resolved)) := by
  simp only [runPasses, hlookups]
  split
  · next hstrict hunresolved => simp [hlenient hstrict] at hunresolved
  · rfl

end Unfolding

theorem runPasses_ends {resolver : Resolver σ σ} {config : Config} {dialect : Dialect} {start p : Progress σ}
    {k : Nat} (remaining : Nat) (hsteps : Steps resolver config dialect start k p)
    (hk : k + remaining = config.maxDepth) :
    ∃ k q, Steps resolver config dialect start k q ∧
      Ends resolver config dialect k q (runPasses resolver config dialect remaining p) := by
  induction remaining generalizing k p with
  | zero => exact ⟨k, p, hsteps, .stopped hk⟩
  | succ remaining ih =>
    have early : k < config.maxDepth := by omega
    rcases hlookups : resolver.resolve dialect p.document p.state with ⟨e | resolution, state⟩
    · rw [runPasses_of_unavailable hlookups]
      exact ⟨k, p, hsteps, .unavailable early hlookups⟩
    · by_cases hlenient : config.strict = true → resolution.unresolved = []
      · rw [runPasses_of_lenient hlookups hlenient]
        by_cases hidle : resolution.resolved = []
        · rw [if_pos (List.isEmpty_iff.2 hidle)]
          exact ⟨k, p, hsteps, .converged early hlookups hlenient hidle⟩
        · rw [if_neg fun h => hidle (List.isEmpty_iff.1 h)]
          exact ih (hsteps.tail (.pass hlookups hlenient hidle)) (by omega)
      · obtain ⟨hstrict, hunresolved⟩ := Classical.not_imp.1 hlenient
        obtain ⟨u, others, hu⟩ := List.exists_cons_of_ne_nil hunresolved
        rw [runPasses_of_unknown hlookups hstrict hu]
        exact ⟨k, p, hsteps, .unknown early hlookups hstrict hu⟩

/-- After one pass of a run, the passes after it are left to run. -/
theorem Progress.Step.runPasses_eq {resolver : Resolver σ σ} {config : Config} {dialect : Dialect}
    {p q : Progress σ} (h : Step resolver config dialect p q) (remaining : Nat) :
    runPasses resolver config dialect (remaining + 1) p = runPasses resolver config dialect remaining q := by
  cases h with
  | pass lookups lenient work =>
    rw [runPasses_of_lenient lookups lenient, if_neg fun h => work (List.isEmpty_iff.1 h)]

theorem Progress.Steps.runPasses_eq {resolver : Resolver σ σ} {config : Config} {dialect : Dialect}
    {p q : Progress σ} {k : Nat} (h : Steps resolver config dialect p k q) (remaining : Nat) :
    runPasses resolver config dialect (k + remaining) p = runPasses resolver config dialect remaining q := by
  induction h generalizing remaining with
  | refl => rw [Nat.zero_add]
  | @tail k q r steps step ih => rw [Nat.add_right_comm, Nat.add_assoc, ih, step.runPasses_eq]

/-- How a run ends is determined by the progress that it has made. -/
theorem Progress.Ends.runPasses_eq {resolver : Resolver σ σ} {config : Config} {dialect : Dialect} {p : Progress σ}
    {k : Nat} {run : Run σ} (h : Ends resolver config dialect k p run) :
    runPasses resolver config dialect (config.maxDepth - k) p = run := by
  have hearly : k < config.maxDepth → config.maxDepth - k = (config.maxDepth - k - 1) + 1 := by omega
  cases h with
  | unavailable early lookups => rw [hearly early, runPasses_of_unavailable lookups]
  | unknown early lookups strict unresolved => rw [hearly early, runPasses_of_unknown lookups strict unresolved]
  | converged early lookups lenient idle =>
    rw [hearly early, runPasses_of_lenient lookups lenient, if_pos (List.isEmpty_iff.2 idle)]
  | stopped full =>
    rw [full, Nat.sub_self]
    rfl

theorem Resolver.expandDocument_of_zero (resolver : Resolver σ σ) {config : Config} (hconfig : config.maxDepth = 0)
    (dialect : Dialect) (d : Document) (state : σ) :
    resolver.expandDocument config dialect d state =
      (Progress.start d state).fail (.invalidConfig .zeroMaxDepth) := by
  simp only [Resolver.expandDocument, Config.check, if_pos hconfig]

theorem Resolver.expandDocument_of_ne_zero (resolver : Resolver σ σ) {config : Config}
    (hconfig : config.maxDepth ≠ 0) (dialect : Dialect) (d : Document) (state : σ) :
    resolver.expandDocument config dialect d state =
      runPasses resolver config dialect config.maxDepth (.start d state) := by
  simp only [Resolver.expandDocument, Config.check, if_neg hconfig]

/-- Every run with a valid configuration is some passes and an ending. -/
theorem Resolver.exists_ends (resolver : Resolver σ σ) {config : Config} (hconfig : config.maxDepth ≠ 0)
    (dialect : Dialect) (d : Document) (state : σ) :
    ∃ k q, Steps resolver config dialect (.start d state) k q ∧
      Ends resolver config dialect k q (resolver.expandDocument config dialect d state) := by
  rw [expandDocument_of_ne_zero resolver hconfig]
  exact runPasses_ends config.maxDepth .refl (Nat.zero_add _)

/-- The passes and the ending are those of the run. -/
theorem Progress.Ends.eq_expandDocument {resolver : Resolver σ σ} {config : Config} {dialect : Dialect} {d : Document}
    {state : σ} {q : Progress σ} {k : Nat} (hconfig : config.maxDepth ≠ 0)
    (hsteps : Steps resolver config dialect (.start d state) k q) {run : Run σ}
    (h : Ends resolver config dialect k q run) : resolver.expandDocument config dialect d state = run := by
  obtain ⟨remaining, hremaining⟩ := Nat.exists_eq_add_of_le h.le
  have hleft : config.maxDepth - k = remaining := by omega
  rw [Resolver.expandDocument_of_ne_zero resolver hconfig, hremaining, hsteps.runPasses_eq, ← hleft, h.runPasses_eq]

end MacroDoc
