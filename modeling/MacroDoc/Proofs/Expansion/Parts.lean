import MacroDoc.Proofs.Expansion.Priority
import MacroDoc.Proofs.Expansion.Rounds
import MacroDoc.Proofs.Forest.Append

/-!
# The parts of a document

Rounds over a document are rounds over its parts, side by side. A part that is done waits for the others, and all that
is left pending at the limit is frozen in the part where it stands.

* `Attempt.shift`, `Document.attempts_append`, `Document.rounds_append` : what happens in a round happens in a part;
* `Document.findings_append`, `Document.excess_append` : so does what is reported;
* `Document.Outcome.append` : the outcome of the whole by those of the parts;
* `Resolver.expandDocument_append` : runs with macros that look only at their calls;
* `Resolver.not_expandDocument_append` : not so if the registry changes its answers.
-/

namespace MacroDoc

open scoped List

def Attempt.shift (n : Nat) (a : Attempt) : Attempt :=
  { a with path := a.path.shift n }

namespace Document

variable {μ : Meaning} {d e : Document}

/-! ## What happens in a round -/

theorem attempts_append (number : Nat) (d e : Document) :
    (d ++ e).attempts μ number =
      d.attempts μ number ++ (e.attempts μ number).map (Attempt.shift d.blocks.length) := by
  rw [attempts, invocations_append, List.filterMap_append, List.filterMap_map, attempts, attempts,
    List.map_filterMap]
  congr 2
  funext i
  rw [Function.comp_apply, Option.map_map]
  rfl

theorem unknown_append (d e : Document) :
    (d ++ e).unknown μ = d.unknown μ ++ (e.unknown μ).map (·.shift d.blocks.length) := by
  rw [unknown, invocations_append, List.filter_append, List.filter_map]
  rfl

theorem leadsInto_of_mem_attempts {number : Nat} {a : Attempt} (ha : a ∈ d.attempts μ number) :
    a.path.LeadsInto d.blocks.length :=
  leadsInto_of_isSome (by simp [get?_of_mem_attempts ha])

/-- The parts do not get in each other's way. -/
theorem rounds_append (d e : Document) (k : Nat) : (d ++ e).rounds μ k = d.rounds μ k ++ e.rounds μ k := by
  induction k with
  | zero => rfl
  | succ k ih =>
    rw [rounds, ih, attempts_append]
    exact foldl_set_append Attempt.path Attempt.marker (Attempt.shift _) (fun _ => rfl) (fun _ => rfl)
      (fun a ha => leadsInto_of_mem_attempts ha) _ _

theorem roundAttempts_append (d e : Document) (k : Nat) :
    (d ++ e).roundAttempts μ k =
      d.roundAttempts μ k ++ (e.roundAttempts μ k).map (Attempt.shift d.blocks.length) := by
  cases k with
  | zero => rfl
  | succ k =>
    rw [roundAttempts, rounds_append, attempts_append, length_blocks_rounds]
    rfl

theorem roundMarkers_append (d e : Document) (k : Nat) :
    (d ++ e).roundMarkers μ k = d.roundMarkers μ k ++ (e.roundMarkers μ k).map (Path.shift d.blocks.length) := by
  rw [roundMarkers, roundAttempts_append, List.map_append, List.map_map, roundMarkers, roundMarkers, List.map_map]
  rfl

theorem leadsInto_of_mem_roundMarkers {k : Nat} {m : Path} (hm : m ∈ d.roundMarkers μ k) :
    m.LeadsInto d.blocks.length := by
  obtain ⟨a, ha, rfl⟩ := List.mem_map.1 hm
  cases k with
  | zero => cases ha
  | succ k => exact length_blocks_rounds (μ := μ) d k ▸ leadsInto_of_mem_attempts ha

theorem attempted_append (d e : Document) (k : Nat) :
    (d ++ e).attempted μ k = d.attempted μ k + e.attempted μ k := by
  induction k with
  | zero => rfl
  | succ k ih =>
    rw [attempted, ih, roundAttempts_append, List.length_append, List.length_map, attempted, attempted]
    omega

/-! ## What is reported -/

theorem news_append (d e : Document) (k : Nat) :
    (d ++ e).news μ k = d.news μ k ++ (e.news μ k).map (·.shift d.blocks.length) := by
  cases k with
  | zero => exact unknown_append d e
  | succ k =>
    rw [news, rounds_append, unknown_append, roundMarkers_append, List.filter_append, List.filter_map,
      length_blocks_rounds]
    congr 1
    · refine List.filter_congr fun i hi => Path.any_isAncestorOf_append_left
        (fun m hm => leadsInto_of_mem_roundMarkers hm) ?_
      exact length_blocks_rounds (μ := μ) d (k + 1) ▸ leadsInto_of_mem (List.mem_filter.1 hi).1
    · refine congrArg _ (List.filter_congr fun i _ => ?_)
      exact Path.any_isAncestorOf_append_right (fun m hm => leadsInto_of_mem_roundMarkers hm) i.path

theorem append_append_perm {α : Type} (as as' bs bs' : List α) :
    ((as ++ as') ++ (bs ++ bs')).Perm ((as ++ bs) ++ (as' ++ bs')) := by
  rw [List.append_assoc, List.append_assoc]
  exact (List.perm_append_comm_assoc as' bs bs').append_left as

theorem findings_append (dialect : Dialect) (hsource : e.sourceId = d.sourceId) (k : Nat) :
    ((d ++ e).findings μ dialect k).Perm (d.findings μ dialect k ++ e.findings μ dialect k) := by
  induction k with
  | zero => exact .refl _
  | succ k ih =>
    have hnews : ((d ++ e).news μ k).map (fun i => unresolvedDiagnostic dialect (k + 1) d.sourceId i.unresolved) =
        (d.news μ k).map (fun i => unresolvedDiagnostic dialect (k + 1) d.sourceId i.unresolved) ++
          (e.news μ k).map (fun i => unresolvedDiagnostic dialect (k + 1) e.sourceId i.unresolved) := by
      rw [news_append, List.map_append, List.map_map, hsource]
      rfl
    have herrors : ((d ++ e).roundAttempts μ (k + 1)).filterMap (Attempt.diagnostic? d.sourceId) =
        (d.roundAttempts μ (k + 1)).filterMap (Attempt.diagnostic? d.sourceId) ++
          (e.roundAttempts μ (k + 1)).filterMap (Attempt.diagnostic? e.sourceId) := by
      rw [roundAttempts_append, List.filterMap_append, List.filterMap_map, hsource]
      rfl
    rw [findings, findings, findings, sourceId_append, hnews, herrors]
    refine (((ih.append_right _).trans (append_append_perm _ _ _ _)).append_right _).trans ?_
    exact append_append_perm _ _ _ _

theorem pendingBelow_rounds_append (d e : Document) (k : Nat) :
    pendingBelow ((d ++ e).roundMarkers μ k) ((d ++ e).rounds μ k) =
      pendingBelow (d.roundMarkers μ k) (d.rounds μ k) ++
        (pendingBelow (e.roundMarkers μ k) (e.rounds μ k)).map (·.shift d.blocks.length) := by
  rw [roundMarkers_append, rounds_append, ← length_blocks_rounds (μ := μ) d k]
  refine pendingBelow_append (fun m hm => ?_) (fun m hm => ?_)
  · exact (length_blocks_rounds d k).symm ▸ leadsInto_of_mem_roundMarkers hm
  · exact (length_blocks_rounds e k).symm ▸ leadsInto_of_mem_roundMarkers hm

theorem excess_append (hsource : e.sourceId = d.sourceId) (limit : Nat) :
    (d ++ e).excess μ limit = d.excess μ limit ++ e.excess μ limit := by
  rw [excess, pendingBelow_rounds_append, List.map_append, List.map_map, excess, excess, hsource]
  rfl

theorem freeze_rounds_append (d e : Document) (k : Nat) :
    freeze ((d ++ e).roundMarkers μ k) ((d ++ e).rounds μ k) =
      freeze (d.roundMarkers μ k) (d.rounds μ k) ++ freeze (e.roundMarkers μ k) (e.rounds μ k) := by
  rw [roundMarkers_append, rounds_append, ← length_blocks_rounds (μ := μ) d k]
  refine freeze_append (fun m hm => ?_) (fun m hm => ?_)
  · exact (length_blocks_rounds d k).symm ▸ leadsInto_of_mem_roundMarkers hm
  · exact (length_blocks_rounds e k).symm ▸ leadsInto_of_mem_roundMarkers hm

/-! ## The outcome -/

theorem Outcome.passes_append {dialect : Dialect} {limit : Nat} {left d' e' : Document}
    {whole first second : Report} (h : Outcome μ dialect limit (d ++ e) left whole)
    (hd : Outcome μ dialect limit d d' first) (he : Outcome μ dialect limit e e' second) :
    whole.passes = max first.passes second.passes := by
  have hpasses : ∀ k < limit, k < whole.passes ↔ k < max first.passes second.passes := by
    intro k hk
    have hmax : k < max first.passes second.passes ↔ k < first.passes ∨ k < second.passes := by omega
    rw [hmax, h.passes k hk, hd.passes k hk, he.passes k hk, roundAttempts_append, ne_eq, List.append_eq_nil_iff,
      List.map_eq_nil_iff, not_and_or]
  have hbounds := h.passes_le
  have hparts := Nat.max_le.2 ⟨hd.passes_le, he.passes_le⟩
  rcases Nat.lt_trichotomy whole.passes (max first.passes second.passes) with hlt | heq | hlt
  · exact absurd ((hpasses _ (by omega)).2 hlt) (Nat.lt_irrefl _)
  · exact heq
  · exact absurd ((hpasses _ (by omega)).1 hlt) (Nat.lt_irrefl _)

/-- The outcome of the whole by those of its parts. -/
theorem Outcome.append {dialect : Dialect} {limit : Nat} {left d' e' : Document} {whole first second : Report}
    (h : Outcome μ dialect limit (d ++ e) left whole) (hd : Outcome μ dialect limit d d' first)
    (he : Outcome μ dialect limit e e' second) (hsource : e.sourceId = d.sourceId) :
    left = d' ++ e' ∧ whole.passes = max first.passes second.passes ∧
      whole.expansions = first.expansions + second.expansions ∧
      whole.diagnostics.Perm (first.diagnostics ++ second.diagnostics) := by
  refine ⟨?_, h.passes_append hd he, ?_, ?_⟩
  · rw [h.document, hd.document, he.document, freeze_rounds_append]
  · rw [h.expansions, hd.expansions, he.expansions, attempted_append]
  · calc whole.diagnostics
      _ ~ (d ++ e).findings μ dialect limit ++ (d ++ e).excess μ limit := h.diagnostics
      _ ~ (d.findings μ dialect limit ++ e.findings μ dialect limit) ++ (d.excess μ limit ++ e.excess μ limit) :=
        (findings_append dialect hsource limit).append (.of_eq (excess_append hsource limit))
      _ ~ (d.findings μ dialect limit ++ d.excess μ limit) ++ (e.findings μ dialect limit ++ e.excess μ limit) :=
        append_append_perm _ _ _ _
      _ ~ first.diagnostics ++ second.diagnostics := hd.diagnostics.symm.append he.diagnostics.symm

end Document

/-! ## Whole runs -/

/-- For a registry that always answers, and macros that look only at their calls: a run over blocks of two documents
leaves what runs over each of them leave. It takes as many passes as the longer of these, makes the expansions of both,
and reports what both report. -/
theorem Resolver.expandDocument_append {σ : Type} {resolver : Resolver σ σ}
    {find : String → Dialect → Option (Expander σ)}
    (ha : resolver.Answers fun identifier dialect => .ok (find identifier dialect))
    (hlocal : ∀ identifier dialect e, find identifier dialect = some e → e.IsLocal) {config : Config}
    (hconfig : config.maxDepth ≠ 0) (hlenient : config.strict = false) (dialect : Dialect) (as bs : List Block)
    (sourceId : Nat) (state state₁ state₂ : σ) :
    let run (blocks : List Block) (state : σ) := resolver.expandDocument config dialect ⟨blocks, sourceId⟩ state
    ∃ whole first second, (run (as ++ bs) state).result = .ok whole ∧ (run as state₁).result = .ok first ∧
      (run bs state₂).result = .ok second ∧
      (run (as ++ bs) state).document.blocks = (run as state₁).document.blocks ++ (run bs state₂).document.blocks ∧
      whole.passes = max first.passes second.passes ∧
      whole.expansions = first.expansions + second.expansions ∧
      whole.diagnostics.Perm (first.diagnostics ++ second.diagnostics) := by
  intro run
  have hrun := expandDocument_outcome ha hlocal hconfig hlenient dialect
  obtain ⟨whole, hwhole, houtcome⟩ := hrun (⟨as, sourceId⟩ ++ ⟨bs, sourceId⟩) state state
  obtain ⟨first, hfirst, houtcome₁⟩ := hrun ⟨as, sourceId⟩ state₁ state
  obtain ⟨second, hsecond, houtcome₂⟩ := hrun ⟨bs, sourceId⟩ state₂ state
  obtain ⟨hdocument, hreport⟩ := houtcome.append houtcome₁ houtcome₂ rfl
  exact ⟨whole, first, second, hwhole, hfirst, hsecond, congrArg Document.blocks hdocument, hreport⟩

theorem helloRegistry_isLocal (identifier : String) (dialect : Dialect) (e : Expander Unit)
    (he : (helloRegistry 5).find? identifier dialect = some e) : e.IsLocal := by
  rcases helloRegistry_find? he with rfl | rfl
  · exact fun _ _ _ _ _ => rfl
  · exact fun _ _ _ _ _ => rfl

/-- The call of `echo` in the first part is expanded until the limit, and that of `hello` in the second part once. -/
theorem Resolver.expandDocument_append_hello :
    let run (blocks : List Block) :=
      (helloRegistry 5).lookup.resolver.expandDocument ⟨2, false, .ascending⟩ .default ⟨blocks, 0⟩ ()
    ∃ whole first second,
      (run ([bareCall "echo", bareCall "other"] ++ [bareCall "hello"])).result = .ok whole ∧
      (run [bareCall "echo", bareCall "other"]).result = .ok first ∧ (run [bareCall "hello"]).result = .ok second ∧
      (run ([bareCall "echo", bareCall "other"] ++ [bareCall "hello"])).document.blocks =
        (run [bareCall "echo", bareCall "other"]).document.blocks ++ (run [bareCall "hello"]).document.blocks ∧
      whole.passes = max 2 1 ∧ whole.expansions = 2 + 1 ∧
      whole.diagnostics.Perm (first.diagnostics ++ second.diagnostics) := by
  intro run
  obtain ⟨whole, first, second, hwhole, hfirst, hsecond, hblocks, hpasses, hexpansions, hdiagnostics⟩ :=
    expandDocument_append (Lookup.answers_resolver (helloRegistry 5).lookup) helloRegistry_isLocal
      (show Config.maxDepth ⟨2, false, .ascending⟩ ≠ 0 by decide) rfl .default
      [bareCall "echo", bareCall "other"] [bareCall "hello"] 0 () () ()
  have hcounts : (run [bareCall "echo", bareCall "other"]).result.toOption.map (fun r => (r.passes, r.expansions)) =
      some (2, 2) := by decide +kernel
  have hcounts' : (run [bareCall "hello"]).result.toOption.map (fun r => (r.passes, r.expansions)) =
      some (1, 1) := by decide +kernel
  rw [hfirst] at hcounts
  rw [hsecond] at hcounts'
  obtain ⟨hpasses₁, hexpansions₁⟩ := Prod.mk.inj (Option.some.inj hcounts)
  obtain ⟨hpasses₂, hexpansions₂⟩ := Prod.mk.inj (Option.some.inj hcounts')
  exact ⟨whole, first, second, hwhole, hfirst, hsecond, hblocks, by rw [hpasses, hpasses₁, hpasses₂],
    by rw [hexpansions, hexpansions₁, hexpansions₂], hdiagnostics⟩

/-- It is not enough that no lookup fails. With `Resolver.late` the first of two calls of `code` is expanded in the
second pass over both, and a run over either of them alone leaves it as it is. -/
theorem Resolver.not_expandDocument_append :
    ¬ ∀ resolver : Resolver Bool Bool,
      (∀ identifier dialect state, ∃ found, (resolver identifier dialect state).1 = .ok found ∧
        ∀ e ∈ found, e.IsLocal) →
      ∀ config : Config, config.maxDepth ≠ 0 → config.strict = false →
        ∀ (dialect : Dialect) (as bs : List Block) (sourceId : Nat) (state : Bool),
          let run (blocks : List Block) := resolver.expandDocument config dialect ⟨blocks, sourceId⟩ state
          (run (as ++ bs)).document.blocks = (run as).document.blocks ++ (run bs).document.blocks := by
  intro h
  have hlocal : ∀ identifier dialect state, ∃ found, (late identifier dialect state).1 = .ok found ∧
      ∀ e ∈ found, e.IsLocal := by
    intro identifier dialect state
    cases state with
    | false => exact ⟨none, rfl, fun e he => nomatch he⟩
    | true => exact ⟨some Macros.code, rfl, fun e he => Option.mem_some.1 he ▸ fun _ _ _ _ _ => rfl⟩
  have hblocks := h late hlocal ⟨2, false, .ascending⟩ (by decide) rfl .default [codeCall] [codeCall] 0 false
  exact absurd hblocks (by decide +kernel)

end MacroDoc
