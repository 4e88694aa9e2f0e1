import MacroDoc.Proofs.Expansion.Convergence

/-!
# Runs that fail

A run that fails leaves its document as the last completed pass left it. The error is that of the resolution of this
document: a lookup that was not answered comes before an unknown macro, and the first in document order is named.

* `Resolver.pass?`, `Resolver.passes?` : one pass over a document, and a number of passes, as functions;
* `Rejection` : the error of a resolution, by the answers of the registry;
* `Resolver.expandDocument_fails` : the error and the document of a run that fails.
-/

namespace MacroDoc

open Progress

variable {σ : Type}

/-! ## Passes as functions -/

/-- One pass over a document and the shared state: resolve, schedule and execute. There is no such pass if a lookup is
not answered. -/
def Resolver.pass? (resolver : Resolver σ σ) (config : Config) (dialect : Dialect) (number : Nat)
    (s : Document × σ) : Option (Document × σ) :=
  match resolver.resolve dialect s.1 s.2 with
  | (.error _, _) => none
  | (.ok resolution, state) =>
    let o := executePass dialect number (schedule config.order resolution.resolved) s.1 state
    some (o.document, o.state)

/-- A number of passes over a document and the shared state, of which the first has number 1. -/
def Resolver.passes? (resolver : Resolver σ σ) (config : Config) (dialect : Dialect) :
    Nat → Document × σ → Option (Document × σ)
  | 0, s => some s
  | k + 1, s => passes? resolver config dialect k s >>= resolver.pass? config dialect (k + 1)

/-- Why the resolution of a document ends a run, by the answers to its invocations in document order. -/
inductive Rejection (config : Config) (dialect : Dialect)
    (answers : List (PlacedInvocation × Except RegistryError (Option (Expander σ)))) : ExpansionError → Prop where
  | unavailable {i : PlacedInvocation} {cause : RegistryError}
      (first : answers.find? isFailure = some (i, .error cause)) :
      Rejection config dialect answers (.registryUnavailable i.invocation.identifier dialect cause)
  | unknown {i : PlacedInvocation} (strict : config.strict = true)
      (answered : ∀ a ∈ answers, isFailure a = false) (first : answers.find? isUnknown = some (i, .ok none)) :
      Rejection config dialect answers (.unresolvedMacro i.invocation.identifier dialect i.invocation.span)

/-! ## Steps and endings -/

section Steps

variable {resolver : Resolver σ σ} {config : Config} {dialect : Dialect} {p q : Progress σ} {k : Nat}

theorem Progress.Step.pass?_eq (h : Step resolver config dialect p q) :
    resolver.pass? config dialect (p.report.passes + 1) (p.document, p.state) = some (q.document, q.state) := by
  cases h with
  | pass lookups _ _ => simp only [Resolver.pass?, lookups, Progress.pass, reportUnresolved]

theorem Progress.Steps.passes?_eq {d : Document} {state : σ}
    (h : Steps resolver config dialect (.start d state) k q) :
    resolver.passes? config dialect k (d, state) = some (q.document, q.state) := by
  induction h with
  | refl => rfl
  | @tail k q r steps step ih =>
    have hnumber : q.report.passes = k := by
      rw [steps.passes]
      exact Nat.zero_add k
    rw [Resolver.passes?, ih, ← hnumber]
    exact step.pass?_eq

/-- A run that fails after `k` passes leaves the document as it is, and the error is that of its resolution. -/
theorem Progress.Ends.rejection {run : Run σ} (h : Ends resolver config dialect k q run) {e : ExpansionError}
    (hfail : run.result = .error e) :
    k < config.maxDepth ∧ run.document = q.document ∧
      Rejection config dialect (resolver.answers dialect q.document.invocations q.state) e := by
  cases h with
  | unavailable early lookups =>
    cases hfail
    have hlookups := congrArg Prod.fst lookups
    obtain ⟨i, cause, hfirst, rfl⟩ := (resolveFrom_eq_error resolver dialect 0 _ q.state e).1 hlookups
    exact ⟨early, rfl, .unavailable hfirst⟩
  | unknown early lookups strict unresolved =>
    cases hfail
    obtain ⟨found, -, hfound, rfl⟩ := Resolver.resolve_eq_ok (congrArg Prod.fst lookups)
    obtain ⟨i, hfirst, rfl⟩ := Resolution.unresolved_ofFound_eq_cons unresolved
    rw [hfound]
    refine ⟨early, rfl, .unknown strict ?_ hfirst⟩
    intro a ha
    obtain ⟨f, -, rfl⟩ := List.mem_map.1 ha
    rfl
  | converged => cases hfail
  | stopped => cases hfail

end Steps

/-! ## Whole runs -/

/-- If a run fails, then either the configuration allows no pass, and the document is as it was; or the document is as
some passes left it, fewer than the configuration allows, and the error is that of its resolution. -/
theorem Resolver.expandDocument_fails {resolver : Resolver σ σ} {config : Config} {dialect : Dialect} {d : Document}
    {state : σ} {e : ExpansionError} (hfail : (resolver.expandDocument config dialect d state).result = .error e) :
    let run := resolver.expandDocument config dialect d state
    (config.maxDepth = 0 ∧ e = .invalidConfig .zeroMaxDepth ∧ run.document = d) ∨
      ∃ k < config.maxDepth, ∃ left,
        resolver.passes? config dialect k (d, state) = some (run.document, left) ∧
        Rejection config dialect (resolver.answers dialect run.document.invocations left) e := by
  intro run
  by_cases hconfig : config.maxDepth = 0
  · left
    have hrun : run = (Progress.start d state).fail (.invalidConfig .zeroMaxDepth) :=
      expandDocument_of_zero resolver hconfig dialect d state
    have herror : run.result = .error e := hfail
    rw [hrun] at herror
    cases herror
    exact ⟨hconfig, rfl, by rw [hrun]; rfl⟩
  · right
    obtain ⟨k, q, hsteps, hends⟩ := resolver.exists_ends hconfig dialect d state
    obtain ⟨hk, hdocument, hrejection⟩ := hends.rejection hfail
    refine ⟨k, hk, q.state, ?_, ?_⟩
    · rw [hsteps.passes?_eq, ← hdocument]
    · rw [← hdocument] at hrejection
      exact hrejection

/-- In strict mode, the second pass over a call of `echo` meets a call of `other`. -/
theorem Resolver.expandDocument_fails_echo :
    let run := echoRegistry.lookup.resolver.expandDocument ⟨2, true, .ascending⟩ .default ⟨[bareCall "echo"], 0⟩ ()
    run.result = .error (.unresolvedMacro "other" .default none) ∧
      ∃ k < 2, ∃ left,
        echoRegistry.lookup.resolver.passes? ⟨2, true, .ascending⟩ .default k (⟨[bareCall "echo"], 0⟩, ()) =
          some (run.document, left) ∧
        Rejection ⟨2, true, .ascending⟩ .default
          (echoRegistry.lookup.resolver.answers .default run.document.invocations left)
          (.unresolvedMacro "other" .default none) := by
  have hfail : (echoRegistry.lookup.resolver.expandDocument ⟨2, true, .ascending⟩ .default
      ⟨[bareCall "echo"], 0⟩ ()).result = .error (.unresolvedMacro "other" .default none) := by
    exact Run.error?_eq_some.1 (by decide +kernel)
  refine ⟨hfail, ?_⟩
  rcases expandDocument_fails hfail with ⟨hconfig, -⟩ | hpasses
  · cases hconfig
  · exact hpasses

end MacroDoc
