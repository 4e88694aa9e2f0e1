import MacroDoc.Expansion.Run
import MacroDoc.Proofs.Expansion.Answers

/-!
# What passes and the freeze do to a document

Both replace invocations by markers of their calls.

* `schedule_perm` : a schedule does not add or lose invocations;
* `executeOne_eq_some`, `executePass_cons` : one invocation, and a pass that runs it first;
* `executePass_marked` : below the markers of a pass stand blocks without spans, or a notice;
* `markers_executePass` : a pass over invocations of its document replaces all of them, in order;
* `freeze_marked`, `get?_freeze`, `get?_freeze_eq_invocation` : the freeze puts references below its markers, and
  leaves only invocations that none of the given markers covers.
-/

namespace MacroDoc

variable {σ : Type}

/-! ## Passes -/

theorem schedule_perm (order : PriorityOrder) (resolved : List (ResolvedInvocation σ)) :
    (schedule order resolved).Perm resolved :=
  List.mergeSort_perm resolved (runsBefore order)

/-- What stands below a marker that a pass wrote: blocks without spans, or the notice of a fault. -/
def Produced (_ : Path) (i : Invocation) (children : List Block) : Prop :=
  (∃ blocks, children = forgetSpans blocks) ∨ ∃ fault : Fault, children = [fault.notice i.identifier]

theorem executeOne_eq_none {dialect : Dialect} {pass : Nat} {r : ResolvedInvocation σ} {d : Document} {state : σ} :
    executeOne dialect pass r d state = none ↔ ¬ d.Invokes r.path := by
  simp only [executeOne, Option.map_eq_none_iff, Document.Invokes]
  cases h : d.get? r.path with
  | none => simp
  | some b =>
    cases hinv : b.invocation? with
    | none => simpa [hinv] using fun i hi => by simp [hi, Block.invocation?] at hinv
    | some i => simpa [hinv] using ⟨i, Block.invocation?_eq_some.1 hinv⟩

theorem executeOne_eq_some {dialect : Dialect} {pass : Nat} {r : ResolvedInvocation σ} {d : Document} {state : σ}
    {e : Execution σ} (h : executeOne dialect pass r d state = some e) :
    ∃ i children, d.get? r.path = some (.leaf (.invocation i)) ∧ Produced r.path i children ∧
      e.document = d.set r.path (.node (.marker i.call) children) := by
  obtain ⟨i, hi, he⟩ := Option.map_eq_some_iff.1 h
  obtain ⟨b, hb, hinv⟩ := Option.bind_eq_some_iff.1 hi
  obtain rfl := Block.invocation?_eq_some.1 hinv
  rcases hrun : r.expander.attempt ⟨d, dialect, r.path, r.placement, i.call⟩ state with ⟨fault | blocks, next⟩
  · simp only [hrun] at he
    exact ⟨i, [fault.notice i.identifier], hb, .inr ⟨fault, rfl⟩, by rw [← he]⟩
  · simp only [hrun] at he
    exact ⟨i, forgetSpans blocks, hb, .inl ⟨blocks, rfl⟩, by rw [← he]⟩

theorem executeOne_invokes {dialect : Dialect} {pass : Nat} {r : ResolvedInvocation σ} {d : Document} {state : σ}
    {e : Execution σ} (h : executeOne dialect pass r d state = some e) {rest : List (ResolvedInvocation σ)}
    (hinv : ∀ r' ∈ r :: rest, d.Invokes r'.path) (hnodup : ((r :: rest).map (·.path)).Nodup) :
    ∀ r' ∈ rest, e.document.Invokes r'.path := by
  intro r' hr'
  obtain ⟨hfresh, -⟩ := List.nodup_cons.1 hnodup
  have hne : r.path ≠ r'.path := by
    intro heq
    exact hfresh (List.mem_map.2 ⟨r', hr', heq.symm⟩)
  obtain ⟨i, children, hi, -, hdoc⟩ := executeOne_eq_some h
  rw [hdoc]
  exact (hinv r' (List.mem_cons_of_mem _ hr')).set ⟨i, hi⟩ hne _

theorem executePass_cons {dialect : Dialect} {pass : Nat} {r : ResolvedInvocation σ} {d : Document} {state : σ}
    {e : Execution σ} (h : executeOne dialect pass r d state = some e) (rest : List (ResolvedInvocation σ)) :
    executePass dialect pass (r :: rest) d state =
      ⟨(executePass dialect pass rest e.document e.state).document,
        (executePass dialect pass rest e.document e.state).state,
        r.path :: (executePass dialect pass rest e.document e.state).markers,
        e.diagnostic?.toList ++ (executePass dialect pass rest e.document e.state).diagnostics⟩ := by
  simp only [executePass, h]

theorem executePass_marked (dialect : Dialect) (pass : Nat) (scheduled : List (ResolvedInvocation σ)) (d : Document)
    (state : σ) :
    Marked Produced (executePass dialect pass scheduled d state).markers d
      (executePass dialect pass scheduled d state).document := by
  induction scheduled generalizing d state with
  | nil => exact .nil d
  | cons r rest ih =>
    cases h : executeOne dialect pass r d state with
    | none =>
      simp only [executePass, h]
      exact ih d state
    | some e =>
      obtain ⟨i, children, hi, hchildren, hdoc⟩ := executeOne_eq_some h
      rw [executePass_cons h]
      exact .cons hi hchildren (hdoc ▸ ih e.document e.state)

/-- A pass over invocations of its document replaces all of them, in order. -/
theorem markers_executePass (dialect : Dialect) (pass : Nat) {scheduled : List (ResolvedInvocation σ)} {d : Document}
    (state : σ) (hinv : ∀ r ∈ scheduled, d.Invokes r.path) (hnodup : (scheduled.map (·.path)).Nodup) :
    (executePass dialect pass scheduled d state).markers = scheduled.map (·.path) := by
  induction scheduled generalizing d state with
  | nil => rfl
  | cons r rest ih =>
    cases h : executeOne dialect pass r d state with
    | none => exact absurd (hinv r List.mem_cons_self) (executeOne_eq_none.1 h)
    | some e =>
      rw [executePass_cons h, ih e.state (executeOne_invokes h hinv hnodup) (List.nodup_cons.1 hnodup).2]
      rfl

/-! ## The freeze -/

/-- What stands below a marker that the freeze wrote: a reference of the call. -/
def Frozen (_ : Path) (i : Invocation) (children : List Block) : Prop :=
  children = [.leaf (.reference i.call)]

theorem nodup_paths_pendingBelow (markers : List Path) (d : Document) :
    ((pendingBelow markers d).map (·.path)).Nodup :=
  (List.filter_sublist.map _).nodup d.nodup_invocations

theorem freeze_marked (markers : List Path) (d : Document) :
    Marked Frozen ((pendingBelow markers d).map (·.path)) d (freeze markers d) :=
  .of_foldl (fun _ hi => (Document.mem_invocations.1 (List.mem_filter.1 hi).1).1) (fun _ _ => rfl)
    (nodup_paths_pendingBelow markers d)

theorem mem_pendingBelow {markers : List Path} {d : Document} {i : PlacedInvocation} :
    i ∈ pendingBelow markers d ↔ i ∈ d.invocations ∧ ∃ m ∈ markers, m.isAncestorOf i.path = true := by
  simp [pendingBelow, List.mem_filter]

theorem invokes_of_mem_pendingBelow (markers : List Path) (d : Document) :
    ∀ p ∈ (pendingBelow markers d).map (·.path), d.Invokes p := by
  intro p hp
  obtain ⟨i, hi, rfl⟩ := List.mem_map.1 hp
  exact Document.invokes_of_mem (mem_pendingBelow.1 hi).1

/-- What is pending does not depend on the order of the markers. -/
theorem pendingBelow_perm {markers markers' : List Path} (hperm : markers.Perm markers') (d : Document) :
    pendingBelow markers d = pendingBelow markers' d :=
  List.filter_congr fun _ _ => hperm.any_eq

theorem pendingBelow_nil (d : Document) : pendingBelow [] d = [] :=
  List.filter_eq_nil_iff.2 fun _ _ => Bool.false_ne_true

theorem freeze_nil (d : Document) : freeze [] d = d := by
  rw [freeze, pendingBelow_nil, List.foldl_nil]

theorem freeze_perm {markers markers' : List Path} (hperm : markers.Perm markers') (d : Document) :
    freeze markers d = freeze markers' d := by
  rw [freeze, freeze, pendingBelow_perm hperm]

theorem get?_freeze {markers : List Path} {d : Document} {i : PlacedInvocation} (hi : i ∈ pendingBelow markers d) :
    (freeze markers d).get? i.path = some (frozen i.invocation.call) := by
  obtain ⟨j, children, hj, hfrozen, hbelow⟩ := (freeze_marked markers d).get?_append_of_mem
    (invokes_of_mem_pendingBelow markers d) (nodup_paths_pendingBelow markers d) (List.mem_map_of_mem hi)
  rw [(Document.mem_invocations.1 (mem_pendingBelow.1 hi).1).1] at hj
  obtain rfl : i.invocation = j := by simpa using hj
  obtain rfl : children = _ := hfrozen
  simpa [frozen] using hbelow []

/-- An invocation that is left after the freeze was there before, and no marker is above it. -/
theorem get?_freeze_eq_invocation {markers : List Path} {d : Document} {p : Path} {i : Invocation}
    (h : (freeze markers d).get? p = some (.leaf (.invocation i))) :
    d.get? p = some (.leaf (.invocation i)) ∧ ∀ m ∈ markers, m.isAncestorOf p = false := by
  rcases (freeze_marked markers d).eq_invocation (invokes_of_mem_pendingBelow markers d)
    (nodup_paths_pendingBelow markers d) h with
    ⟨hpath, hi⟩ | ⟨q, -, -, j, children, r, hfrozen, -, hr⟩
  · refine ⟨hi, ?_⟩
    intro m hm
    rw [Bool.eq_false_iff]
    intro hanc
    apply hpath
    have hmem := mem_pendingBelow.2 ⟨Document.mem_invocations_of_get? hi, m, hm, hanc⟩
    exact List.mem_map_of_mem hmem
  · -- Below a frozen marker stands nothing but its reference.
    rw [hfrozen] at hr
    match r with
    | [] => simp at hr
    | [0] => simp at hr
    | 0 :: k :: r => simp at hr
    | (k + 1) :: r => simp at hr

end MacroDoc
