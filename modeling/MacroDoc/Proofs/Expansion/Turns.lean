import Mathlib.Data.List.Perm.Subperm
import MacroDoc.Proofs.Expansion.Attempts
import MacroDoc.Proofs.Expansion.Convergence

/-!
# The turns of a pass

Scheduled invocations run one after the other. When the turn of one comes, those before it have become markers, and it
still stands where it stood when the document was resolved.

* `executePass_append`, `executePass_turn` : a pass over a list is a pass over its first part and then one over the
  rest, and a turn is an attempt on the document that is met;
* `executePass_skip` : nothing happens at the turn of an entry whose path does not hold an invocation;
* `Resolver.mem_invocations_of_mem_resolved` : what is resolved is an invocation of the document, with its placement;
* `Turn`, `Turn.of_invocations` : the turn of an invocation of the document;
* `executePass_turns` : all of it for any list of scheduled invocations.
-/

namespace MacroDoc

variable {τ σ : Type}

/-! ## A pass in parts -/

/-- What a pass leaves that goes on where another one has ended. -/
def PassOutcome.andThen (before after : PassOutcome σ) : PassOutcome σ :=
  ⟨after.document, after.state, before.markers ++ after.markers, before.diagnostics ++ after.diagnostics⟩

section Parts

variable {dialect : Dialect} {pass : Nat} {d : Document} {state : σ}

theorem executePass_append (earlier later : List (ResolvedInvocation σ)) (d : Document) (state : σ) :
    executePass dialect pass (earlier ++ later) d state =
      (executePass dialect pass earlier d state).andThen
        (executePass dialect pass later (executePass dialect pass earlier d state).document
          (executePass dialect pass earlier d state).state) := by
  induction earlier generalizing d state with
  | nil => rfl
  | cons r earlier ih =>
    cases h : executeOne dialect pass r d state with
    | none =>
      simp only [List.cons_append, executePass, h]
      exact ih d state
    | some e =>
      rw [List.cons_append, executePass_cons h, executePass_cons h, ih e.document e.state]
      simp only [PassOutcome.andThen, List.cons_append, List.append_assoc]

/-- What the turn of an invocation leaves. Its macro is attempted with the document that the turn meets, the recorded
path and placement, and the call of the invocation. -/
def ResolvedInvocation.turn (r : ResolvedInvocation σ) (dialect : Dialect) (pass : Nat) (d : Document)
    (i : Invocation) (state : σ) : PassOutcome σ :=
  let context : Context := ⟨d, dialect, r.path, r.placement, i.call⟩
  let (result, next) := r.expander.attempt context state
  let a : Attempt := ⟨pass, r.path, i, result⟩
  ⟨d.write a, next, [r.path], (a.diagnostic? d.sourceId).toList⟩

theorem executePass_of_invocation {r : ResolvedInvocation σ} {i : Invocation}
    (hi : d.get? r.path = some (.leaf (.invocation i))) (later : List (ResolvedInvocation σ)) :
    executePass dialect pass (r :: later) d state =
      (r.turn dialect pass d i state).andThen
        (executePass dialect pass later (r.turn dialect pass d i state).document
          (r.turn dialect pass d i state).state) := by
  have hone : executeOne dialect pass r d state = some ⟨d.write (r.attempt dialect pass d i state).1,
      (r.attempt dialect pass d i state).2, (r.attempt dialect pass d i state).1.diagnostic? d.sourceId⟩ := by
    rw [executeOne_eq, Document.invocation?_of_get? hi]
    rfl
  rw [executePass_cons hone]
  rfl

theorem executePass_turn {earlier : List (ResolvedInvocation σ)} {r : ResolvedInvocation σ} {i : Invocation}
    (hi : (executePass dialect pass earlier d state).document.get? r.path = some (.leaf (.invocation i)))
    (later : List (ResolvedInvocation σ)) :
    let before := executePass dialect pass earlier d state
    let turn := r.turn dialect pass before.document i before.state
    executePass dialect pass (earlier ++ r :: later) d state =
      before.andThen (turn.andThen (executePass dialect pass later turn.document turn.state)) := by
  intro before turn
  rw [executePass_append, executePass_of_invocation hi]

/-- An entry whose path does not hold an invocation at its turn could as well not be in the list. -/
theorem executePass_skip {earlier : List (ResolvedInvocation σ)} {r : ResolvedInvocation σ}
    (hr : ¬ (executePass dialect pass earlier d state).document.Invokes r.path)
    (later : List (ResolvedInvocation σ)) :
    executePass dialect pass (earlier ++ r :: later) d state =
      executePass dialect pass (earlier ++ later) d state := by
  rw [executePass_append, executePass_append]
  congr 1
  simp only [executePass, executeOne_eq_none.2 hr]

end Parts

/-! ## Resolved invocations -/

theorem Resolver.mem_invocations_of_mem_resolved {resolver : Resolver τ σ} {dialect : Dialect} {d : Document}
    {before : τ} {resolution : Resolution σ} (h : (resolver.resolve dialect d before).1 = .ok resolution)
    {r : ResolvedInvocation σ} (hr : r ∈ resolution.resolved) : ∃ i, ⟨r.path, r.placement, i⟩ ∈ d.invocations := by
  obtain ⟨found, hfst, -, rfl⟩ := resolve_eq_ok h
  obtain ⟨i, hi, hpath, hplace⟩ := Resolution.mem_resolved_ofFound hr
  refine ⟨i.invocation, ?_⟩
  rw [hpath, hplace]
  exact hfst ▸ List.mem_map_of_mem hi

/-- The turn of `r` in a pass over `d` that has run `earlier` and will run `later`. -/
structure Turn (dialect : Dialect) (pass : Nat) (d : Document) (state : σ) (earlier : List (ResolvedInvocation σ))
    (r : ResolvedInvocation σ) (later : List (ResolvedInvocation σ)) (i : Invocation) : Prop where
  /-- It is an invocation of the document that the pass started with, recorded with its placement. -/
  original : ⟨r.path, r.placement, i⟩ ∈ d.invocations
  /-- The document that it meets is that one, with the markers of the earlier attempts in place. -/
  document : (executePass dialect pass earlier d state).document =
    (attempts dialect pass earlier d state).foldl Document.write d
  /-- The earlier attempts are those of the earlier invocations, one for each, in their order. -/
  paths : (attempts dialect pass earlier d state).map (·.path) = earlier.map (·.path)
  replaced : ∀ a ∈ attempts dialect pass earlier d state, d.get? a.path = some (.leaf (.invocation a.invocation))
  /-- It still stands at its path. -/
  here : (executePass dialect pass earlier d state).document.get? r.path = some (.leaf (.invocation i))
  /-- A walk of the document that it meets lists it with the recorded placement. -/
  listed : ⟨r.path, r.placement, .leaf (.invocation i)⟩ ∈ (executePass dialect pass earlier d state).document.walk
  /-- It runs on the document that it meets, and the pass goes on with the document that it leaves. -/
  runs :
    let before := executePass dialect pass earlier d state
    let turn := r.turn dialect pass before.document i before.state
    executePass dialect pass (earlier ++ r :: later) d state =
      before.andThen (turn.andThen (executePass dialect pass later turn.document turn.state))

/-- Different invocations of a document have their turns, in whatever order they are scheduled. -/
theorem Turn.of_invocations {dialect : Dialect} {pass : Nat} {d : Document} {state : σ}
    {earlier later : List (ResolvedInvocation σ)} {r : ResolvedInvocation σ} {i : Invocation}
    (hr : ⟨r.path, r.placement, i⟩ ∈ d.invocations) (hearlier : ∀ r' ∈ earlier, d.Invokes r'.path)
    (hnodup : ((earlier ++ r :: later).map (·.path)).Nodup) : Turn dialect pass d state earlier r later i := by
  rw [List.map_append, List.map_cons] at hnodup
  obtain ⟨hearlierNodup, -, hdisjoint⟩ := List.nodup_append.1 hnodup
  have hfresh : r.path ∉ earlier.map (·.path) := fun hmem => hdisjoint _ hmem _ List.mem_cons_self rfl
  obtain ⟨hdocument, hmarkers, -⟩ := executePass_eq dialect pass earlier d state
  have hpaths := markers_executePass dialect pass state hearlier hearlierNodup
  have hstays : ⟨r.path, r.placement, i⟩ ∈ (executePass dialect pass earlier d state).document.invocations := by
    have hmarked := executePass_marked dialect pass earlier d state
    rw [hpaths] at hmarked
    refine hmarked.mem_invocations_of_not_mem (fun p hp => ?_) hr hfresh
    obtain ⟨r', hr', rfl⟩ := List.mem_map.1 hp
    exact hearlier r' hr'
  obtain ⟨hhere, hplace⟩ := Document.mem_invocations.1 hstays
  exact {
    original := hr
    document := hdocument
    paths := hmarkers.symm.trans hpaths
    replaced := fun a ha => get?_of_mem_attempts hearlier hearlierNodup ha
    here := hhere
    listed := Document.mem_walk.2 ⟨hhere, hplace⟩
    runs := executePass_turn hhere later }

/-! ## Whole passes -/

/-- Of the invocations that are resolved in a document, any may be scheduled, in any order: each has its turn once, in
the order given. At its turn it still stands at its path, with the recorded placement, in the document with which the
pass started, where the earlier ones have become markers. And whatever is scheduled, an entry whose path does not hold
an invocation at its turn changes nothing. -/
theorem executePass_turns (dialect : Dialect) (pass : Nat) (d : Document) (state : σ) :
    (∀ (resolver : Resolver τ σ) (before : τ) (resolution : Resolution σ),
      (resolver.resolve dialect d before).1 = .ok resolution →
      ∀ scheduled : List (ResolvedInvocation σ), scheduled.Subperm resolution.resolved →
        let o := executePass dialect pass scheduled d state
        o.executed = scheduled.length ∧ o.markers = scheduled.map (·.path) ∧ o.markers.Nodup ∧
        ∀ earlier r later, scheduled = earlier ++ r :: later → ∃ i, Turn dialect pass d state earlier r later i) ∧
    ∀ (earlier : List (ResolvedInvocation σ)) (r : ResolvedInvocation σ) (later : List (ResolvedInvocation σ)),
      ¬ (executePass dialect pass earlier d state).document.Invokes r.path →
      executePass dialect pass (earlier ++ r :: later) d state =
        executePass dialect pass (earlier ++ later) d state := by
  refine ⟨?_, fun earlier r later hr => executePass_skip hr later⟩
  intro resolver before resolution hlookups scheduled hsub o
  have hinv : ∀ r ∈ scheduled, d.Invokes r.path := fun r hr =>
    Resolver.invokes_of_mem_resolved hlookups (hsub.subset hr)
  have hnodup : (scheduled.map (·.path)).Nodup := by
    obtain ⟨listed, hperm, hsublist⟩ := hsub
    exact (hperm.map _).nodup_iff.1 ((hsublist.map _).nodup (Resolver.nodup_paths_resolved hlookups))
  have hmarkers : o.markers = scheduled.map (·.path) := markers_executePass dialect pass state hinv hnodup
  refine ⟨?_, hmarkers, hmarkers ▸ hnodup, ?_⟩
  · rw [PassOutcome.executed, hmarkers, List.length_map]
  · rintro earlier r later rfl
    have hr : r ∈ earlier ++ r :: later := List.mem_append_right _ List.mem_cons_self
    obtain ⟨i, hi⟩ := Resolver.mem_invocations_of_mem_resolved hlookups (hsub.subset hr)
    exact ⟨i, .of_invocations hi (fun r' hr' => hinv r' (List.mem_append_left _ hr')) hnodup⟩

def twoCalls : Document :=
  ⟨[.node .paragraph [bareCall "echo"], bareCall "echo"], 0⟩

/-- Of the two calls the second runs first. At its turn the first still stands inline in its paragraph. -/
theorem executePass_turns_twoCalls :
    ∃ first second : ResolvedInvocation Unit,
      (resolve echoRegistry.lookup .default twoCalls).map (·.resolved) = .ok [first, second] ∧
      first.path = ⟨[0, 0]⟩ ∧ first.placement = .inline ∧ second.path = ⟨[1]⟩ ∧
      (executePass .default 1 [second, first] twoCalls ()).markers = [⟨[1]⟩, ⟨[0, 0]⟩] ∧
      (∃ i, Turn .default 1 twoCalls () [second] first [] i) ∧
      -- A second entry for the same call changes nothing.
      executePass .default 1 [second, first, second] twoCalls () =
        executePass .default 1 [second, first] twoCalls () := by
  let first : ResolvedInvocation Unit := ⟨⟨[0, 0]⟩, 0, .inline, echo⟩
  let second : ResolvedInvocation Unit := ⟨⟨[1]⟩, 1, .block, echo⟩
  have hlookups : (echoRegistry.lookup.resolver.resolve .default twoCalls ()).1 = .ok ⟨[first, second], []⟩ := rfl
  obtain ⟨hresolved, hskip⟩ := executePass_turns (τ := Unit) .default 1 twoCalls ()
  obtain ⟨-, hmarkers, -, hturn⟩ := hresolved _ _ _ hlookups [second, first] (List.Perm.swap _ _ _).subperm
  refine ⟨first, second, rfl, rfl, rfl, rfl, hmarkers, hturn [second] first [] rfl, ?_⟩
  refine hskip [second, first] second [] ?_
  rintro ⟨i, hi⟩
  cases hi

end MacroDoc
