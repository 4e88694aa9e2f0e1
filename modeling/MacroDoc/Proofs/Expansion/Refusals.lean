import MacroDoc.Proofs.Expansion.Admission
import MacroDoc.Proofs.Expansion.Turns

/-!
# Macros that are refused, and macros that fail

What fails, because the macro does not take the call or in the macro itself, leaves a notice under the marker of its
call and one diagnostic, and the pass goes on.

* `executePass_running_iff` : what a macro does takes part in a pass if and only if it takes the call;
* `Contained` : what a pass does with a fault;
* `Resolver.madeBy_of_mem_history` : every attempt of a run is that of an expander of the registry;
* `executePass_faults` : all of it.
-/

namespace MacroDoc

variable {σ : Type}

/-! ## Passes -/

/-- The marker that stands for an invocation whose attempt has failed. It keeps the call, and below it there is nothing
but a notice of what went wrong. -/
def Fault.marker (fault : Fault) (i : Invocation) : Block :=
  .node (.marker i.call)
    [.leaf (.error ("Failed to execute the [" ++ i.identifier ++ "] macro") (some fault.message))]

theorem Fault.descend?_marker_ne (fault : Fault) (i : Invocation) (path : List Nat) (j : Invocation) :
    (fault.marker i).descend? path ≠ some (.leaf (.invocation j)) := by
  rcases path with _ | ⟨_ | n, _ | ⟨m, path⟩⟩ <;> simp [Fault.marker]

def ResolvedInvocation.running (r : ResolvedInvocation σ)
    (expand : Context → σ → Except String (List Block) × σ) : ResolvedInvocation σ :=
  { r with expander := r.expander.running expand }

section Pass

variable {dialect : Dialect} {pass : Nat} {d : Document} {state next : σ} {earlier later : List (ResolvedInvocation σ)}
  {r : ResolvedInvocation σ} {i : Invocation} {fault : Fault} {blocks : List Block}

theorem ResolvedInvocation.turn_of_blocks
    (h : r.expander.attempt ⟨d, dialect, r.path, r.placement, i.call⟩ state = (.ok blocks, next)) :
    r.turn dialect pass d i state =
      ⟨d.set r.path (.node (.marker i.call) (forgetSpans blocks)), next, [r.path], []⟩ := by
  simp only [turn, h]
  rfl

theorem ResolvedInvocation.turn_of_fault
    (h : r.expander.attempt ⟨d, dialect, r.path, r.placement, i.call⟩ state = (.error fault, next)) :
    r.turn dialect pass d i state = ⟨d.set r.path (fault.marker i), next, [r.path],
      [⟨fault.kind, i.identifier, fault.message, i.span, d.sourceId, pass⟩]⟩ := by
  simp only [turn, h]
  rfl

theorem ResolvedInvocation.turn_running (h : ¬ r.expander.descriptor.Admits r.placement i.call)
    (expand : Context → σ → Except String (List Block) × σ) :
    (r.running expand).turn dialect pass d i state = r.turn dialect pass d i state := by
  have hattempt : (r.expander.running expand).attempt ⟨d, dialect, r.path, r.placement, i.call⟩ state =
      r.expander.attempt ⟨d, dialect, r.path, r.placement, i.call⟩ state := Expander.attempt_running h expand
  simp only [turn, running, hattempt]

theorem executePass_of_blocks
    (hi : (executePass dialect pass earlier d state).document.get? r.path = some (.leaf (.invocation i)))
    (hadmits : r.expander.descriptor.Admits r.placement i.call)
    (h : r.expander.expand ⟨(executePass dialect pass earlier d state).document, dialect, r.path, r.placement, i.call⟩
      (executePass dialect pass earlier d state).state = (.ok blocks, next)) :
    let before := executePass dialect pass earlier d state
    let after := before.document.set r.path (.node (.marker i.call) (forgetSpans blocks))
    executePass dialect pass (earlier ++ r :: later) d state =
      before.andThen ((⟨after, next, [r.path], []⟩ : PassOutcome σ).andThen
        (executePass dialect pass later after next)) := by
  have hattempt : r.expander.attempt
      ⟨(executePass dialect pass earlier d state).document, dialect, r.path, r.placement, i.call⟩
      (executePass dialect pass earlier d state).state = (.ok blocks, next) := by
    rw [Expander.attempt_of_admits hadmits, h]
    rfl
  have hturn := executePass_turn hi later
  simp only [ResolvedInvocation.turn_of_blocks hattempt] at hturn
  exact hturn

/-- What a pass does with the fault of the invocation `i`, which has its turn between `earlier` and `later`. The attempt
leaves the shared state `next`. -/
structure Contained (dialect : Dialect) (pass : Nat) (d : Document) (state : σ) (earlier : List (ResolvedInvocation σ))
    (r : ResolvedInvocation σ) (later : List (ResolvedInvocation σ)) (i : Invocation) (fault : Fault) (next : σ) :
    Prop where
  /-- The place is looked at first. -/
  kind : fault.kind =
    if r.placement = .inline ∧ r.expander.descriptor.supportsInline = false then .placement else .macroExecution
  /-- When the pass is over, there is a marker of the call at the path, with the notice below it. -/
  marker : (executePass dialect pass (earlier ++ r :: later) d state).document.get? r.path = some (fault.marker i)
  /-- The marker is all that is new in the document: with the invocation put back it is what the turn met. -/
  untouched :
    let before := executePass dialect pass earlier d state
    (before.document.set r.path (fault.marker i)).set r.path (.leaf (.invocation i)) = before.document
  /-- There is one diagnostic, and the later invocations have their turns. -/
  goesOn :
    let before := executePass dialect pass earlier d state
    let after := before.document.set r.path (fault.marker i)
    let turn : PassOutcome σ :=
      ⟨after, next, [r.path], [⟨fault.kind, i.identifier, fault.message, i.span, d.sourceId, pass⟩]⟩
    executePass dialect pass (earlier ++ r :: later) d state =
      before.andThen (turn.andThen (executePass dialect pass later after next))

theorem Contained.of_attempt
    (hi : (executePass dialect pass earlier d state).document.get? r.path = some (.leaf (.invocation i)))
    (h : r.expander.attempt ⟨(executePass dialect pass earlier d state).document, dialect, r.path, r.placement, i.call⟩
      (executePass dialect pass earlier d state).state = (.error fault, next)) :
    Contained dialect pass d state earlier r later i fault next := by
  have hsource : (executePass dialect pass earlier d state).document.sourceId = d.sourceId :=
    (executePass_marked dialect pass earlier d state).extends.sourceId
  have hgoesOn := executePass_turn hi later
  simp only [ResolvedInvocation.turn_of_fault h, hsource] at hgoesOn
  refine ⟨Expander.kind_of_attempt h, ?_, Document.set_back hi _, hgoesOn⟩
  -- Only invocations are replaced later on, and there is none at the marker or below it.
  rw [hgoesOn]
  refine (executePass_marked dialect pass later _ next).get?_of_quiet ?_ (fault.descend?_marker_ne i)
  exact Document.get?_set_self (Option.isSome_of_eq_some hi) _

theorem Contained.of_error
    (hi : (executePass dialect pass earlier d state).document.get? r.path = some (.leaf (.invocation i)))
    (hadmits : r.expander.descriptor.Admits r.placement i.call) {message : String}
    (h : r.expander.expand ⟨(executePass dialect pass earlier d state).document, dialect, r.path, r.placement, i.call⟩
      (executePass dialect pass earlier d state).state = (.error message, next)) :
    Contained dialect pass d state earlier r later i (.failed message) next := by
  refine .of_attempt hi ?_
  rw [Expander.attempt_of_admits hadmits, h]
  rfl

/-- What an expander does takes part in a pass if and only if it takes the call. -/
theorem executePass_running_iff
    (hi : (executePass dialect pass earlier d state).document.get? r.path = some (.leaf (.invocation i))) :
    (∀ expand, executePass dialect pass (earlier ++ r.running expand :: later) d state =
      executePass dialect pass (earlier ++ r :: later) d state) ↔
    ¬ r.expander.descriptor.Admits r.placement i.call := by
  constructor
  · intro hsame hadmits
    -- One function yields no blocks, another fails. What stands at the path tells them apart.
    let yields : ResolvedInvocation σ := r.running fun _ state => (.ok [], state)
    let fails : ResolvedInvocation σ := r.running fun _ state => (.error "", state)
    have hyields : (executePass dialect pass (earlier ++ yields :: later) d state).document.get? r.path =
        some (.node (.marker i.call) []) := by
      rw [executePass_of_blocks (r := yields) hi hadmits rfl]
      refine (executePass_marked dialect pass later _ _).get?_of_quiet ?_ ?_
      · exact Document.get?_set_self (Option.isSome_of_eq_some hi) _
      · rintro (_ | ⟨n, path⟩) j <;> simp
    have hfails : (executePass dialect pass (earlier ++ fails :: later) d state).document.get? r.path =
        some (Fault.marker (.failed "") i) := (Contained.of_error (r := fails) hi hadmits rfl).marker
    rw [hsame, ← hsame fun _ state => (.ok [], state), hyields] at hfails
    cases hfails
  · intro hrefused expand
    have hrunning := executePass_turn (r := r.running expand) hi later
    simp only [ResolvedInvocation.turn_running hrefused expand] at hrunning
    exact hrunning.trans (executePass_turn hi later).symm

end Pass

/-! ## Runs -/

def Attempt.MadeBy (a : Attempt) (e : Expander σ) : Prop :=
  ∃ context state, context.call = a.invocation.call ∧ context.path = a.path ∧ a.result = (e.attempt context state).1

/-- Every attempt of a pass is made by an expander that the registry answered with to the identifier. -/
theorem Resolver.madeBy_of_mem_attempts {resolver : Resolver σ σ} {config : Config} {dialect : Dialect} {number : Nat}
    {s : Document × σ} {a : Attempt} (ha : a ∈ resolver.attempts config dialect number s) :
    ∃ e asked, (resolver a.invocation.identifier dialect asked).1 = .ok (some e) ∧ a.MadeBy e := by
  have hinvocation := get?_of_mem_attempts ha
  obtain ⟨resolution, hlookups, r, hr, d, i, state, rfl⟩ := exists_resolved_of_mem_attempts ha
  obtain ⟨asked, hasked⟩ := answer_of_mem_resolved hlookups hr hinvocation
  exact ⟨r.expander, asked, hasked, ⟨d, dialect, r.path, r.placement, i.call⟩, state, rfl, rfl, rfl⟩

theorem Resolver.madeBy_of_mem_history {resolver : Resolver σ σ} {config : Config} {dialect : Dialect}
    {s : Document × σ} {k : Nat} {a : Attempt} (ha : a ∈ resolver.history config dialect s k) :
    ∃ e asked, (resolver a.invocation.identifier dialect asked).1 = .ok (some e) ∧ a.MadeBy e := by
  induction k with
  | zero => cases ha
  | succ k ih =>
    rcases List.mem_append.1 ha with ha | ha
    · exact ih ha
    · cases hpasses : resolver.passes? config dialect k s with
      | none =>
        rw [hpasses] at ha
        cases ha
      | some left =>
        rw [hpasses] at ha
        exact madeBy_of_mem_attempts ha

/-! ## Faults -/

/-- The turn of an invocation within a pass, for any macro. What the macro does takes part in the pass if and only if
the macro takes the call. If it does, and yields blocks, they stand below the marker of the call. If it does and fails,
or if the call is refused, then the pass contains the fault. And in the runs of a registry, no attempt of the macros
`code` and `xhtml` fails because there is no content. -/
theorem executePass_faults :
    (∀ (dialect : Dialect) (pass : Nat) (d : Document) (state : σ) (earlier : List (ResolvedInvocation σ))
      (r : ResolvedInvocation σ) (later : List (ResolvedInvocation σ)) (i : Invocation),
      let before := executePass dialect pass earlier d state
      let o := executePass dialect pass (earlier ++ r :: later) d state
      let context : Context := ⟨before.document, dialect, r.path, r.placement, i.call⟩
      let takes := r.expander.descriptor.Admits r.placement i.call
      before.document.get? r.path = some (.leaf (.invocation i)) →
        ((∀ expand, executePass dialect pass (earlier ++ r.running expand :: later) d state = o) ↔ ¬ takes) ∧
        (takes → ∀ blocks next, r.expander.expand context before.state = (.ok blocks, next) →
          let after := before.document.set r.path (.node (.marker i.call) (forgetSpans blocks))
          o = before.andThen ((⟨after, next, [r.path], []⟩ : PassOutcome σ).andThen
            (executePass dialect pass later after next))) ∧
        (takes → ∀ message next, r.expander.expand context before.state = (.error message, next) →
          Contained dialect pass d state earlier r later i (.failed message) next) ∧
        (¬ takes → ∃ fault, r.expander.descriptor.refusal? r.placement i.call = some fault ∧
          Contained dialect pass d state earlier r later i fault before.state)) ∧
    ∀ (resolver : Resolver σ σ) (config : Config) (dialect : Dialect) (s : Document × σ) (k : Nat),
      ∀ a ∈ resolver.history config dialect s k,
        (∃ e asked, (resolver a.invocation.identifier dialect asked).1 = .ok (some e) ∧ a.MadeBy e) ∧
        ∀ fault, a.result = .error fault →
          (a.MadeBy (Macros.code : Expander σ) → fault.message ≠ "no code given") ∧
          (a.MadeBy (Macros.xhtml : Expander σ) → fault.message ≠ "no XHTML given") := by
  constructor
  · intro dialect pass d state earlier r later i before o context takes hi
    refine ⟨executePass_running_iff hi, fun hadmits blocks next h => executePass_of_blocks hi hadmits h,
      fun hadmits message next h => .of_error hi hadmits h, fun hrefused => ?_⟩
    obtain ⟨fault, hfault⟩ := Descriptor.exists_refusal hrefused
    exact ⟨fault, hfault, .of_attempt hi (Expander.attempt_of_refusal hfault)⟩
  · intro resolver config dialect s k a ha
    refine ⟨Resolver.madeBy_of_mem_history ha, fun fault hfault => ⟨?_, ?_⟩⟩
    · rintro ⟨context, state, -, -, hresult⟩
      exact Macros.code_message_ne (hresult.symm.trans hfault)
    · rintro ⟨context, state, -, -, hresult⟩
      exact Macros.xhtml_message_ne (hresult.symm.trans hfault)

/-- A call of `box` in a paragraph, where it may not stand, and a call of `code` without content. -/
def refusedCalls : Document :=
  ⟨[.node .paragraph [bareCall "box"], bareCall "code"], 0⟩

/-- Both calls are refused, the first for its place, the second for its content. -/
theorem executePass_faults_refusedCalls :
    let boxed : ResolvedInvocation Unit := ⟨⟨[0, 0]⟩, 0, .inline, Macros.box⟩
    let coded : ResolvedInvocation Unit := ⟨⟨[1]⟩, 1, .block, Macros.code⟩
    let resolver : Resolver Unit Unit := Registry.empty.withStandard.lookup.resolver
    (∃ fault, Contained .default 1 refusedCalls () [] boxed [coded] ⟨⟨"box", .empty, none⟩, .default, none⟩ fault () ∧
      fault.kind = .placement ∧
      fault.message = "the [box] macro is a standalone macro and cannot be used inline") ∧
    (∀ expand, executePass .default 1 [boxed.running expand, coded] refusedCalls () =
      executePass .default 1 [boxed, coded] refusedCalls ()) ∧
    ∃ a ∈ resolver.history ⟨1, false, .ascending⟩ .default (refusedCalls, ()) 1, ∃ fault,
      a.path = ⟨[1]⟩ ∧ a.result = .error fault ∧ fault.message ≠ "no code given" := by
  intro boxed coded resolver
  obtain ⟨hpasses, hruns⟩ := executePass_faults (σ := Unit)
  have hrefused : ¬ boxed.expander.descriptor.Admits .inline ⟨"box", .empty, none⟩ := fun h => by
    rcases h.place with hblock | hsupports
    · cases hblock
    · cases hsupports
  obtain ⟨hconsulted, -, -, hfault⟩ := hpasses .default 1 refusedCalls () [] boxed [coded] _ rfl
  obtain ⟨fault, hrefusal, hcontained⟩ := hfault hrefused
  have hstandalone : some (Fault.standaloneInline "box") = some fault := hrefusal
  cases hstandalone
  let a : Attempt := ⟨1, ⟨[1]⟩, ⟨⟨"code", .empty, none⟩, .default, none⟩,
    .error (.invalidCall (.contentRequired "code"))⟩
  have ha : a ∈ resolver.history ⟨1, false, .ascending⟩ .default (refusedCalls, ()) 1 := by
    have hresolve : resolver.resolve .default refusedCalls () = (.ok ⟨[boxed, coded], []⟩, ()) := rfl
    have hschedule : schedule .ascending [boxed, coded] = [boxed, coded] :=
      List.mergeSort_of_pairwise (by decide)
    simp only [Resolver.history, Resolver.passes?, Resolver.attempts, Option.elim_some, hresolve, hschedule]
    exact List.mem_cons_of_mem _ List.mem_cons_self
  obtain ⟨⟨e, asked, hasked, hmade⟩, hmessage⟩ := hruns resolver _ _ _ _ a ha
  obtain rfl : Macros.code = e := Option.some.inj (Except.ok.inj hasked)
  exact ⟨⟨_, hcontained, rfl, rfl⟩, hconsulted.2 hrefused, a, ha, _, rfl, rfl, (hmessage _ rfl).1 hmade⟩

end MacroDoc
