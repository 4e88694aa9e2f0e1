import MacroDoc.Macros.Definition
import MacroDoc.Macros.Standard
import MacroDoc.Proofs.Expansion.PassEffect

/-!
# The order of a pass

Invocations of one document stand at paths that are apart, so the markers that replace them can be written in any
order. If the macros look at neither the document nor the shared state, what is written does not depend on the order.

* `Expander.IgnoresDocument` : macros of this kind; the macros of the library are;
* `executeOne_of_ignores` : what such a macro writes is known before the pass starts;
* `executePass_perm` : a pass and any permutation of it leave the same document.
-/

namespace MacroDoc

variable {σ : Type}

/-! ## Macros that do not look at the document -/

/-- What the expander returns depends on the dialect, the place and the call alone, and it leaves the shared state as
it is. -/
def Expander.IgnoresDocument (e : Expander σ) : Prop :=
  ∀ (context : Context) (d : Document) (state state' : σ),
    e.expand { context with document := d } state' = ((e.expand context state).1, state')

theorem Expander.stateless_ignoresDocument {descriptor : Descriptor} {expand : Context → Except String (List Block)}
    (h : ∀ (context : Context) (d : Document), expand { context with document := d } = expand context) :
    (Expander.stateless descriptor expand : Expander σ).IgnoresDocument := by
  intro context d state state'
  show (expand { context with document := d }, state') = (expand context, state')
  rw [h]

namespace Macros

theorem code_ignoresDocument : (code : Expander σ).IgnoresDocument :=
  Expander.stateless_ignoresDocument fun _ _ => rfl

theorem box_ignoresDocument : (box : Expander σ).IgnoresDocument :=
  Expander.stateless_ignoresDocument fun _ _ => rfl

theorem xhtml_ignoresDocument : (xhtml : Expander σ).IgnoresDocument :=
  Expander.stateless_ignoresDocument fun _ _ => rfl

theorem DefinedMacro.expander_ignoresDocument (m : DefinedMacro) : (m.expander : Expander σ).IgnoresDocument :=
  Expander.stateless_ignoresDocument fun _ _ => rfl

end Macros

theorem Expander.IgnoresDocument.attempt {e : Expander σ} (h : e.IgnoresDocument) (context : Context) (d : Document)
    (state state' : σ) : e.attempt { context with document := d } state' = ((e.attempt context state).1, state') := by
  unfold Expander.attempt
  by_cases hplace : context.placement = .inline ∧ e.descriptor.supportsInline = false
  · rw [if_pos hplace, if_pos hplace]
  · rw [if_neg hplace, if_neg hplace]
    cases hcheck : e.descriptor.check context.call with
    | error cause => rfl
    | ok _ => simp only [h context d state state']

/-! ## One invocation -/

/-- What the run of an invocation writes, and what it reports, is the same in every document of the same source in
which the invocation stands at its path. -/
theorem executeOne_of_ignores (dialect : Dialect) (pass sourceId : Nat) {r : ResolvedInvocation σ}
    (hr : r.expander.IgnoresDocument) (i : Invocation) (blank : σ) :
    ∃ block diagnostic?, ∀ (d : Document) (state : σ), d.sourceId = sourceId →
      d.get? r.path = some (.leaf (.invocation i)) →
      executeOne dialect pass r d state = some ⟨d.set r.path block, state, diagnostic?⟩ := by
  obtain ⟨result, hresult⟩ : ∃ result, ∀ (d : Document) (state : σ),
      r.expander.attempt ⟨d, dialect, r.path, r.placement, i.call⟩ state = (result, state) :=
    ⟨_, fun d state => hr.attempt ⟨⟨[], 0⟩, dialect, r.path, r.placement, i.call⟩ d blank state⟩
  have hinvocation : ∀ d : Document, d.get? r.path = some (.leaf (.invocation i)) →
      (d.get? r.path >>= Block.invocation?) = some i := by
    intro d hi
    rw [hi]
    rfl
  cases result with
  | ok blocks =>
    refine ⟨.node (.marker i.call) (forgetSpans blocks), none, ?_⟩
    intro d state _ hi
    simp only [executeOne, hinvocation d hi, Option.map_some, hresult]
  | error fault =>
    refine ⟨.node (.marker i.call) [fault.notice i.identifier],
      some ⟨fault.kind, i.identifier, fault.message, i.span, sourceId, pass⟩, ?_⟩
    intro d state hsource hi
    simp only [executeOne, hinvocation d hi, Option.map_some, hresult, hsource]

/-! ## A whole pass -/

/-- Two passes that left the same document, with the same markers and diagnostics up to their order. -/
structure PassOutcome.Same (a b : PassOutcome σ) : Prop where
  document : a.document = b.document
  state : a.state = b.state
  markers : a.markers.Perm b.markers
  diagnostics : a.diagnostics.Perm b.diagnostics

namespace PassOutcome.Same

variable {a b c : PassOutcome σ}

theorem refl (a : PassOutcome σ) : a.Same a :=
  ⟨rfl, rfl, .refl _, .refl _⟩

theorem trans (h : a.Same b) (h' : b.Same c) : a.Same c :=
  ⟨h.document.trans h'.document, h.state.trans h'.state, h.markers.trans h'.markers,
    h.diagnostics.trans h'.diagnostics⟩

theorem executed (h : a.Same b) : a.executed = b.executed :=
  h.markers.length_eq

end PassOutcome.Same

/-- A pass and a permutation of it leave the same document, if the invocations stand at different paths of the
document, and the macros do not look at it. -/
theorem executePass_perm (dialect : Dialect) (pass : Nat) {scheduled scheduled' : List (ResolvedInvocation σ)}
    (hperm : scheduled.Perm scheduled') {d : Document} (state : σ)
    (hignores : ∀ r ∈ scheduled, r.expander.IgnoresDocument) (hinv : ∀ r ∈ scheduled, d.Invokes r.path)
    (hnodup : (scheduled.map (·.path)).Nodup) :
    (executePass dialect pass scheduled d state).Same (executePass dialect pass scheduled' d state) := by
  induction hperm generalizing d state with
  | nil => exact .refl _
  | @cons r rest rest' hrest ih =>
    cases h : executeOne dialect pass r d state with
    | none => exact absurd (hinv r List.mem_cons_self) (executeOne_eq_none.1 h)
    | some e =>
      have hsame := ih e.state (fun r' hr' => hignores r' (List.mem_cons_of_mem _ hr'))
        (executeOne_invokes h hinv hnodup) (List.nodup_cons.1 hnodup).2
      rw [executePass_cons h, executePass_cons h]
      exact ⟨hsame.document, hsame.state, hsame.markers.cons _, hsame.diagnostics.append_left _⟩
  | swap x y rest =>
    have hx : x ∈ y :: x :: rest := List.mem_cons_of_mem _ List.mem_cons_self
    have hy : y ∈ y :: x :: rest := List.mem_cons_self
    have hne : y.path ≠ x.path := by
      intro heq
      exact (List.nodup_cons.1 hnodup).1 (by simp [heq])
    obtain ⟨i, hi⟩ := hinv x hx
    obtain ⟨j, hj⟩ := hinv y hy
    obtain ⟨b, diagnostic?, hb⟩ := executeOne_of_ignores dialect pass d.sourceId (hignores x hx) i state
    obtain ⟨c, diagnostic'?, hc⟩ := executeOne_of_ignores dialect pass d.sourceId (hignores y hy) j state
    have hyx := Document.apart_of_leaves hj hi hne
    have hxy := Document.apart_of_leaves hi hj (Ne.symm hne)
    -- Each of the two invocations is still there after the other has run.
    have hb' := hb (d.set y.path c) state (Document.sourceId_set d _ _)
      ((Document.get?_set_eq_leaf hyx _ _).2 hi)
    have hc' := hc (d.set x.path b) state (Document.sourceId_set d _ _)
      ((Document.get?_set_eq_leaf hxy _ _).2 hj)
    rw [executePass_cons (hc d state rfl hj), executePass_cons hb', executePass_cons (hb d state rfl hi),
      executePass_cons hc', Document.set_comm hxy hyx]
    refine ⟨rfl, rfl, .swap _ _ _, ?_⟩
    rw [← List.append_assoc, ← List.append_assoc]
    exact List.perm_append_comm.append_right _
  | trans hfirst _ ih ih' =>
    have hrest := ih' state (fun r hr => hignores r (hfirst.mem_iff.2 hr)) (fun r hr => hinv r (hfirst.mem_iff.2 hr))
      ((hfirst.map _).nodup_iff.1 hnodup)
    exact (ih state hignores hinv hnodup).trans hrest

end MacroDoc
