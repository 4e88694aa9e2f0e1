import MacroDoc.Proofs.Expansion.Convergence

/-!
# What a run leaves alone

A run may turn invocations into markers, and keeps all else of its document, whatever its result is. If it succeeds,
the invocations that became markers are those of known macros.

* `Progress.Steps.extends` : the document after some passes extends the one that the run started with;
* `Progress.Within` : the invariant of a run about the invocations that were there at its start;
* `Resolver.expandDocument_extends` : the frame of a whole run.
-/

namespace MacroDoc

open Progress

variable {σ : Type} {resolver : Resolver σ σ} {config : Config} {dialect : Dialect}

namespace Progress

variable {p q : Progress σ} {k : Nat}

/-! ## The frame -/

theorem Step.extends (h : Step resolver config dialect p q) : p.document.Extends q.document :=
  h.marked.extends

theorem Steps.extends (h : Steps resolver config dialect p k q) : p.document.Extends q.document := by
  induction h with
  | refl => exact .refl _
  | tail _ step ih => exact ih.trans step.extends

theorem Ends.extends {run : Run σ} (h : Ends resolver config dialect k q run) : q.document.Extends run.document := by
  cases h with
  | unavailable => exact .refl _
  | unknown => exact .refl _
  | converged => exact .refl _
  | stopped => exact (freeze_marked _ _).extends

/-! ## Which invocations became markers -/

/-- What holds of the invocations of `d` during a run that started with `d`. -/
structure Within (lookup : Lookup σ) (dialect : Dialect) (d : Document) (q : Progress σ) : Prop where
  frame : d.Extends q.document
  /-- The markers of the last pass have only new blocks below them. -/
  uncovered : ∀ m ∈ q.markers, ∀ path, (d.get? path).isSome → m.isAncestorOf path = false
  /-- An invocation that became a marker had a known macro. -/
  known : ∀ path i, d.get? path = some (.leaf (.invocation i)) → q.document.get? path = some (.leaf (.invocation i)) ∨
    ∃ expander, lookup i.identifier dialect = .ok (some expander)

theorem Within.start (lookup : Lookup σ) (dialect : Dialect) (d : Document) (state : σ) :
    Within lookup dialect d (.start d state) where
  frame := .refl d
  uncovered m hm := by cases hm
  known _ _ hi := .inl hi

theorem Within.step {lookup : Lookup σ} (ha : resolver.Answers lookup) {d : Document}
    (h : Within lookup dialect d p) (hstep : Step resolver config dialect p q) : Within lookup dialect d q where
  frame := h.frame.trans hstep.extends
  uncovered m hm path hpath := (hstep.invokes hm).isAncestorOf_eq_false (h.frame.isSome_get? hpath)
  known path i hi := by
    rcases h.known path i hi with hsame | hknown
    · by_cases hpath : path ∈ q.markers
      · right
        obtain ⟨resolution, hlookups, -, hperm, -⟩ := hstep.effect
        obtain ⟨r, hr, rfl⟩ := List.mem_map.1 (hperm.mem_iff.1 hpath)
        exact ⟨r.expander, Resolver.lookup_of_mem_resolved ha hlookups hr hsame⟩
      · exact .inl (hstep.marked.get?_leaf_of_not_mem (fun m hm => hstep.invokes hm) hsame hpath)
    · exact .inr hknown

theorem Within.freeze {lookup : Lookup σ} {d : Document} (h : Within lookup dialect d q) {path : Path}
    {i : Invocation} (hd : (d.get? path).isSome) (hi : q.document.get? path = some (.leaf (.invocation i))) :
    (freeze q.markers q.document).get? path = some (.leaf (.invocation i)) := by
  refine (freeze_marked _ _).get?_leaf_of_not_mem (invokes_of_mem_pendingBelow _ _) hi ?_
  · intro hmem
    obtain ⟨j, hj, rfl⟩ := List.mem_map.1 hmem
    obtain ⟨-, m, hm, hanc⟩ := mem_pendingBelow.1 hj
    rw [h.uncovered m hm _ hd] at hanc
    cases hanc

theorem Within.ends {lookup : Lookup σ} {d : Document} (h : Within lookup dialect d q) {run : Run σ}
    (hends : Ends resolver config dialect k q run) {path : Path} {i : Invocation}
    (hi : d.get? path = some (.leaf (.invocation i))) :
    run.document.get? path = some (.leaf (.invocation i)) ∨
      ∃ expander, lookup i.identifier dialect = .ok (some expander) := by
  rcases h.known path i hi with hsame | hknown
  · left
    cases hends with
    | unavailable => exact hsame
    | unknown => exact hsame
    | converged => exact hsame
    | stopped => exact h.freeze (by simp [hi]) hsame
  · exact .inr hknown

end Progress

/-! ## Whole runs -/

theorem Resolver.maxDepth_of_ok {d : Document} {state : σ} {report : Report}
    (hok : (resolver.expandDocument config dialect d state).result = .ok report) : config.maxDepth ≠ 0 := by
  intro hconfig
  rw [expandDocument_of_zero resolver hconfig] at hok
  cases hok

/-- Whatever a run returns, all of its document that is no invocation stays as it was, and every invocation stays as
it was or becomes a marker of its call. If the run succeeds, and the registry answers by a lookup, then it became a
marker if and only if its macro is known. -/
theorem Resolver.expandDocument_extends (resolver : Resolver σ σ) (config : Config) (dialect : Dialect)
    (d : Document) (state : σ) :
    let run := resolver.expandDocument config dialect d state
    d.Extends run.document ∧
      ∀ lookup : Lookup σ, resolver.Answers lookup → ∀ report, run.result = .ok report →
        ∀ path i, d.get? path = some (.leaf (.invocation i)) →
          ((∃ children, run.document.get? path = some (.node (.marker i.call) children)) ↔
            ∃ expander, lookup i.identifier dialect = .ok (some expander)) := by
  intro run
  by_cases hconfig : config.maxDepth = 0
  · have hrun : run = (Progress.start d state).fail (.invalidConfig .zeroMaxDepth) :=
      expandDocument_of_zero resolver hconfig dialect d state
    refine ⟨hrun ▸ .refl d, ?_⟩
    intro _ _ report hok
    exact absurd hconfig (maxDepth_of_ok hok)
  obtain ⟨k, q, hsteps, hends⟩ := resolver.exists_ends hconfig dialect d state
  have hframe : d.Extends run.document := hsteps.extends.trans hends.extends
  refine ⟨hframe, ?_⟩
  intro lookup ha report hok path i hi
  have hwithin : Within lookup dialect d q :=
    hsteps.preserves (fun _ _ hstep hp => hp.step ha hstep) (.start lookup dialect d state)
  have hconverged : run.document.Converged lookup dialect := fun j hj => (hends.settled ha hconfig hsteps hok j hj).2
  constructor
  · rintro ⟨children, hmarker⟩
    rcases hwithin.ends hends hi with hsame | hknown
    · rw [hsame] at hmarker
      cases hmarker
    · exact hknown
  · rintro ⟨expander, hknown⟩
    rcases hframe.invocation path i hi with hsame | hmarker
    · have hunknown := hconverged.lookup_eq hsame
      rw [hknown] at hunknown
      cases hunknown
    · exact hmarker

/-- In the document with a call of `echo` and one of `other`, the first becomes a marker, and the second does not. -/
theorem Resolver.expandDocument_extends_echo :
    echoDocument.Extends echoRun.document ∧
      (∃ children, echoRun.document.get? (.top 0) = some (.node (.marker ⟨"echo", .empty, none⟩) children)) ∧
      ¬ ∃ children, echoRun.document.get? (.top 1) = some (.node (.marker ⟨"other", .empty, none⟩) children) := by
  have hlookup : (echoRegistry.lookup.resolver : Resolver Unit Unit).Answers echoRegistry.lookup :=
    Lookup.answers_resolver _
  obtain ⟨report, hok⟩ := echoRun_isOk
  obtain ⟨hframe, hmarkers⟩ := expandDocument_extends echoRegistry.lookup.resolver ⟨2, false, .ascending⟩ .default
    echoDocument ()
  have hiff := hmarkers echoRegistry.lookup hlookup report hok
  refine ⟨hframe, (hiff (.top 0) _ rfl).2 ⟨echo, rfl⟩, ?_⟩
  intro hmarker
  obtain ⟨expander, hother⟩ := (hiff (.top 1) _ rfl).1 hmarker
  cases hother

end MacroDoc
