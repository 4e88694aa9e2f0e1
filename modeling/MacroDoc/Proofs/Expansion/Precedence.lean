import Mathlib.Data.List.Nodup
import MacroDoc.Proofs.Expansion.Priority

/-!
# Which invocation runs first

A pass runs what the registry resolves, by priority and then by the place in the document.

* `PriorityOrder.NoLater`, `pairwise_schedule` : the order of a schedule, by priorities and then by positions;
* `map_key_schedule_of_perm`, `schedule_eq_of_perm` : what a schedule is made from may be given in any order;
* `Resolution.map_resolved`, `Resolver.pairwise_resolved` : what is resolved, and that positions agree with paths;
* `Resolver.executePass_precedence` : the markers of a pass.
-/

namespace MacroDoc

variable {τ σ : Type}

/-! ## Schedules -/

namespace PriorityOrder

variable (order : PriorityOrder)

def Precedes (m n : Int) : Prop :=
  match order with
  | .ascending => m < n
  | .descending => n < m

theorem Precedes.irrefl (m : Int) : ¬ order.Precedes m m := by
  cases order <;> exact Int.lt_irrefl m

variable {order}

theorem Precedes.trans {m n k : Int} (h : order.Precedes m n) (h' : order.Precedes n k) : order.Precedes m k := by
  cases order
  · exact Int.lt_trans h h'
  · exact Int.lt_trans h' h

theorem precedes_or (order : PriorityOrder) (m n : Int) : order.Precedes m n ∨ m = n ∨ order.Precedes n m := by
  cases order
  · exact Int.lt_trichotomy m n
  · exact (Int.lt_trichotomy n m).imp id (.imp_left Eq.symm)

/-- What has priority and position `a` runs no later than what has `b`. -/
def NoLater (order : PriorityOrder) (a b : Int × Nat) : Prop :=
  order.Precedes a.1 b.1 ∨ a.1 = b.1 ∧ a.2 ≤ b.2

theorem NoLater.trans {a b c : Int × Nat} (h : order.NoLater a b) (h' : order.NoLater b c) : order.NoLater a c := by
  rcases h with h | ⟨heq, hle⟩
  · rcases h' with h' | ⟨heq', -⟩
    · exact .inl (h.trans h')
    · exact .inl (heq' ▸ h)
  · rcases h' with h' | ⟨heq', hle'⟩
    · exact .inl (heq ▸ h')
    · exact .inr ⟨heq.trans heq', Nat.le_trans hle hle'⟩

theorem noLater_total (order : PriorityOrder) (a b : Int × Nat) : order.NoLater a b ∨ order.NoLater b a := by
  rcases order.precedes_or a.1 b.1 with h | heq | h
  · exact .inl (.inl h)
  · exact (Nat.le_total a.2 b.2).imp (fun hle => .inr ⟨heq, hle⟩) fun hle => .inr ⟨heq.symm, hle⟩
  · exact .inr (.inl h)

theorem NoLater.antisymm {a b : Int × Nat} (h : order.NoLater a b) (h' : order.NoLater b a) : a = b := by
  rcases h with h | ⟨heq, hle⟩
  · rcases h' with h' | ⟨heq', -⟩
    · exact absurd (h.trans h') (Precedes.irrefl order _)
    · exact absurd (heq' ▸ h) (Precedes.irrefl order _)
  · rcases h' with h' | ⟨-, hle'⟩
    · exact absurd (heq ▸ h') (Precedes.irrefl order _)
    · exact Prod.ext heq (Nat.le_antisymm hle hle')

end PriorityOrder

def ResolvedInvocation.key (r : ResolvedInvocation σ) : Int × Nat :=
  (r.priority, r.position)

/-- `a` runs before `b`: by priority, and among equal priorities by the place in the document. -/
def ResolvedInvocation.RunsFirst (order : PriorityOrder) (a b : ResolvedInvocation σ) : Prop :=
  order.Precedes a.priority b.priority ∨ a.priority = b.priority ∧ a.path < b.path

section Schedule

variable {order : PriorityOrder} {resolved resolved' : List (ResolvedInvocation σ)}

theorem runsBefore_iff {a b : ResolvedInvocation σ} : runsBefore order a b = true ↔ order.NoLater a.key b.key := by
  unfold runsBefore PriorityOrder.NoLater PriorityOrder.Precedes ResolvedInvocation.key
  split
  · next heq => cases order <;> simp [heq]
  · next hne => cases order <;> simp [hne]

theorem pairwise_schedule (order : PriorityOrder) (resolved : List (ResolvedInvocation σ)) :
    (schedule order resolved).Pairwise fun a b => order.NoLater a.key b.key := by
  refine (List.pairwise_mergeSort (fun a b c hab hbc => ?_) (fun a b => ?_) resolved).imp runsBefore_iff.1
  · exact runsBefore_iff.2 ((runsBefore_iff.1 hab).trans (runsBefore_iff.1 hbc))
  · rw [Bool.or_eq_true, runsBefore_iff, runsBefore_iff]
    exact order.noLater_total a.key b.key

theorem schedule_perm_of_perm (hperm : resolved.Perm resolved') :
    (schedule order resolved).Perm (schedule order resolved') :=
  (schedule_perm order resolved).trans (hperm.trans (schedule_perm order resolved').symm)

/-- The priorities and positions of a schedule do not depend on the order of what it is made from. -/
theorem map_key_schedule_of_perm (hperm : resolved.Perm resolved') :
    (schedule order resolved).map (·.key) = (schedule order resolved').map (·.key) := by
  have hsorted := List.pairwise_map.2 (pairwise_schedule order resolved)
  have hsorted' := List.pairwise_map.2 (pairwise_schedule order resolved')
  exact ((schedule_perm_of_perm hperm).map _).eq_of_pairwise (fun _ _ _ _ h h' => h.antisymm h') hsorted hsorted'

/-- Nor does anything else of it, if different entries differ in priority or position. -/
theorem schedule_eq_of_perm (hperm : resolved.Perm resolved')
    (hdistinct : ∀ a ∈ resolved, ∀ b ∈ resolved, a.key = b.key → a = b) :
    schedule order resolved = schedule order resolved' := by
  refine (schedule_perm_of_perm hperm).eq_of_pairwise (fun a b ha hb hab hba => ?_)
    (pairwise_schedule order resolved) (pairwise_schedule order resolved')
  refine hdistinct a ?_ b ?_ (hab.antisymm hba)
  · exact (schedule_perm order resolved).mem_iff.1 ha
  · exact hperm.mem_iff.2 ((schedule_perm order resolved').mem_iff.1 hb)

end Schedule

/-! ## What is resolved -/

/-- The path of an invocation for which an expander was found, with the expander. -/
def found? (a : PlacedInvocation × Except RegistryError (Option (Expander σ))) : Option (Path × Expander σ) :=
  match a.2 with
  | .ok e? => e?.map (a.1.path, ·)
  | .error _ => none

namespace Resolution

variable {position : Nat} {found : List (PlacedInvocation × Option (Expander σ))}

theorem le_position_of_mem {r : ResolvedInvocation σ} (h : r ∈ (ofFound position found).resolved) :
    position ≤ r.position := by
  obtain ⟨⟨f, n⟩, hmem, hr⟩ := List.mem_filterMap.1 h
  obtain ⟨expander, -, rfl⟩ := Option.map_eq_some_iff.1 hr
  exact List.le_snd_of_mem_zipIdx hmem

theorem pairwise_resolved (position : Nat) (hfound : (found.map (·.1)).Pairwise fun i j => i.path < j.path) :
    (ofFound position found).resolved.Pairwise fun a b => a.position < b.position ∧ a.path < b.path := by
  induction found generalizing position with
  | nil => exact .nil
  | cons f found ih =>
    obtain ⟨i, e?⟩ := f
    obtain ⟨hlt, hfound⟩ := List.pairwise_cons.1 hfound
    have hrest := ih (position + 1) hfound
    rw [ofFound_cons]
    cases e? with
    | none => exact hrest
    | some expander =>
      refine List.pairwise_cons.2 ⟨fun r hr => ⟨le_position_of_mem hr, ?_⟩, hrest⟩
      obtain ⟨j, hj, hpath, -⟩ := mem_resolved_ofFound hr
      rw [hpath]
      exact hlt j (List.mem_map_of_mem hj)

theorem map_resolved (position : Nat) (found : List (PlacedInvocation × Option (Expander σ))) :
    (ofFound position found).resolved.map (fun r => (r.path, r.expander)) =
      (found.map fun f => (f.1, (.ok f.2 : Except RegistryError _))).filterMap found? := by
  induction found generalizing position with
  | nil => rfl
  | cons f found ih =>
    obtain ⟨i, _ | expander⟩ := f
    · rw [ofFound_cons]
      exact ih (position + 1)
    · rw [ofFound_cons]
      exact congrArg _ (ih (position + 1))

end Resolution

namespace Resolver

variable {resolver : Resolver τ σ} {dialect : Dialect} {d : Document} {before : τ} {resolution : Resolution σ}

theorem exists_resolution (h : ∀ a ∈ resolver.answers dialect d.invocations before, isFailure a = false) :
    ∃ resolution, (resolver.resolve dialect d before).1 = .ok resolution := by
  cases hlookups : (resolver.resolve dialect d before).1 with
  | ok resolution => exact ⟨resolution, rfl⟩
  | error e =>
    obtain ⟨i, cause, hfind, -⟩ := (resolveFrom_eq_error resolver dialect 0 d.invocations before e).1 hlookups
    have hfailure := h _ (List.mem_of_find?_eq_some hfind)
    cases hfailure

theorem pairwise_resolved (h : (resolver.resolve dialect d before).1 = .ok resolution) :
    resolution.resolved.Pairwise fun a b => a.position < b.position ∧ a.path < b.path := by
  obtain ⟨found, hfst, -, rfl⟩ := resolve_eq_ok h
  exact Resolution.pairwise_resolved 0 (hfst ▸ d.pairwise_invocations)

theorem eq_of_position_eq (h : (resolver.resolve dialect d before).1 = .ok resolution) {a b : ResolvedInvocation σ}
    (ha : a ∈ resolution.resolved) (hb : b ∈ resolution.resolved) (hposition : a.position = b.position) : a = b := by
  have hnodup : (resolution.resolved.map (·.position)).Nodup :=
    List.pairwise_map.2 ((pairwise_resolved h).imp fun hlt => Nat.ne_of_lt hlt.1)
  exact List.inj_on_of_nodup_map hnodup ha hb hposition

/-- A pass over a document runs by priority, and among equal priorities by path. -/
theorem pairwise_schedule_resolved (h : (resolver.resolve dialect d before).1 = .ok resolution)
    (order : PriorityOrder) :
    (schedule order resolution.resolved).Pairwise (ResolvedInvocation.RunsFirst order) := by
  -- The order of positions is that of paths, whichever of the two comes first in the schedule.
  have hagree : (schedule order resolution.resolved).Pairwise fun a b =>
      a.position < b.position ∧ a.path < b.path ∨ b.position < a.position ∧ b.path < a.path :=
    ((schedule_perm order resolution.resolved).pairwise_iff Or.symm).2 ((pairwise_resolved h).imp .inl)
  refine ((pairwise_schedule order resolution.resolved).and hagree).imp ?_
  rintro a b ⟨hbefore, hplaces⟩
  rcases hbefore with hprecedes | ⟨heq, hle⟩
  · exact .inl hprecedes
  · refine .inr ⟨heq, ?_⟩
    rcases hplaces with ⟨-, hlt⟩ | ⟨hgt, -⟩
    · exact hlt
    · exact absurd hle (Nat.not_le.2 hgt)

/-- If a registry answers all lookups for a document, then the markers of a pass stand where the invocations do for
which it has found an expander, each once. They come by priority, the smaller or the greater first as the order says,
and by path where the priorities are equal. A schedule is the same in whatever order its invocations are given; for a
list of any invocations this holds of their priorities and positions. -/
theorem executePass_precedence (resolver : Resolver τ σ) (order : PriorityOrder) (dialect : Dialect) (d : Document)
    (before : τ) :
    ((∀ a ∈ resolver.answers dialect d.invocations before, isFailure a = false) →
      ∃ resolution, (resolver.resolve dialect d before).1 = .ok resolution ∧
        (let scheduled := schedule order resolution.resolved
        (∀ pass state, (executePass dialect pass scheduled d state).markers = scheduled.map (·.path)) ∧
        (scheduled.map (·.path)).Nodup ∧
        (scheduled.map fun r => (r.path, r.expander)).Perm
          ((resolver.answers dialect d.invocations before).filterMap found?) ∧
        scheduled.Pairwise (ResolvedInvocation.RunsFirst order)) ∧
        ∀ resolved, resolved.Perm resolution.resolved → schedule order resolved = schedule order resolution.resolved) ∧
    ∀ resolved resolved' : List (ResolvedInvocation σ), resolved.Perm resolved' →
      (schedule order resolved).map (·.key) = (schedule order resolved').map (·.key) := by
  refine ⟨fun hanswers => ?_, fun _ _ => map_key_schedule_of_perm⟩
  obtain ⟨resolution, h⟩ := exists_resolution hanswers
  have hperm := schedule_perm order resolution.resolved
  have hnodup : ((schedule order resolution.resolved).map (·.path)).Nodup :=
    (hperm.map _).nodup_iff.2 (nodup_paths_resolved h)
  refine ⟨resolution, h, ⟨fun pass state => ?_, hnodup, ?_, pairwise_schedule_resolved h order⟩, ?_⟩
  · exact markers_executePass dialect pass state (fun r hr => invokes_of_mem_resolved h (hperm.mem_iff.1 hr)) hnodup
  · obtain ⟨found, -, hfound, rfl⟩ := resolve_eq_ok h
    rw [hfound, ← Resolution.map_resolved 0 found]
    exact hperm.map _
  · intro resolved hresolved
    refine (schedule_eq_of_perm hresolved.symm fun a ha b hb hkey => ?_).symm
    exact eq_of_position_eq h ha hb (congrArg Prod.snd hkey)

def helloDocument : Document :=
  ⟨[bareCall "echo", .node .paragraph [bareCall "hello"], bareCall "other", bareCall "echo"], 0⟩

/-- The macro `hello` has the smaller priority. It runs first or last, and the calls of `echo` run in their order. -/
theorem executePass_precedence_hello :
    let resolver : Resolver Unit Unit := (helloRegistry 5).lookup.resolver
    ∃ resolution, (resolver.resolve .default helloDocument ()).1 = .ok resolution ∧
      (executePass .default 1 (schedule .ascending resolution.resolved) helloDocument ()).markers =
        [⟨[1, 0]⟩, ⟨[0]⟩, ⟨[3]⟩] ∧
      (executePass .default 1 (schedule .descending resolution.resolved.reverse) helloDocument ()).markers =
        [⟨[0]⟩, ⟨[3]⟩, ⟨[1, 0]⟩] := by
  intro resolver
  let first : ResolvedInvocation Unit := ⟨⟨[0]⟩, 0, .block, echo⟩
  let greeting : ResolvedInvocation Unit := ⟨⟨[1, 0]⟩, 1, .inline, hello 5⟩
  let last : ResolvedInvocation Unit := ⟨⟨[3]⟩, 3, .block, echo⟩
  have hpriorities : first.priority = 1000 ∧ greeting.priority = 5 ∧ last.priority = 1000 := ⟨rfl, rfl, rfl⟩
  have hresolve : (resolver.resolve .default helloDocument ()).1 =
      .ok ⟨[first, greeting, last], [⟨⟨[2]⟩, "other", none⟩]⟩ := rfl
  have hanswers : ∀ a ∈ resolver.answers .default helloDocument.invocations (), isFailure a = false := by
    decide +kernel
  obtain ⟨resolution, h, ⟨hascending, -⟩, -⟩ :=
    (executePass_precedence resolver .ascending .default helloDocument ()).1 hanswers
  obtain ⟨resolution', h', ⟨hdescending, -⟩, hreverse⟩ :=
    (executePass_precedence resolver .descending .default helloDocument ()).1 hanswers
  obtain rfl := Except.ok.inj (h.symm.trans hresolve)
  obtain rfl := Except.ok.inj (h'.symm.trans hresolve)
  refine ⟨_, hresolve, ?_, ?_⟩
  · rw [hascending]
    simp [schedule, List.mergeSort, runsBefore, hpriorities, first, greeting, last]
  · rw [hreverse _ (List.reverse_perm _), hdescending]
    simp [schedule, List.mergeSort, runsBefore, hpriorities, first, greeting, last]

end Resolver

end MacroDoc
