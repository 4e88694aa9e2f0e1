import Mathlib.Algebra.GroupWithZero.Nat
import Mathlib.Data.List.Induction
import MacroDoc.Expansion.Pipeline

/-!
# Stages in order

A pipeline sorts its stages anew whenever one is registered. However many there are, they stand as one stable sort of
all registrations would put them, and they run in that order up to the first one that fails.

* `IsStableSort` : the same stages by priority, those of one priority as they were; there is only one such list;
* `Pipeline.ofStages` : a pipeline after some registrations (`isStableSort_ofStages`);
* `Succeeds` : stages that succeed one after the other, with their reports and what the last one leaves;
* `Pipeline.ofStages_perform` : the order of the stages, and what comes of running them.
-/

namespace MacroDoc

variable {σ : Type}

/-! ## Stable sorting -/

/-- `sorted` holds the stages of `stages` by priority, those of one priority in their old order. -/
structure IsStableSort (stages sorted : List (Stage σ)) : Prop where
  perm : sorted.Perm stages
  ordered : sorted.Pairwise fun a b => a.priority ≤ b.priority
  stable : ∀ n : Int, (sorted.filter fun s => s.priority = n) = stages.filter fun s => s.priority = n

def noLater (a b : Stage σ) : Bool :=
  a.priority ≤ b.priority

def sortStages (stages : List (Stage σ)) : List (Stage σ) :=
  stages.mergeSort noLater

theorem noLater_iff {a b : Stage σ} : noLater a b = true ↔ a.priority ≤ b.priority :=
  decide_eq_true_iff

theorem noLater_trans (a b c : Stage σ) (hab : noLater a b = true) (hbc : noLater b c = true) : noLater a c = true :=
  noLater_iff.2 (Int.le_trans (noLater_iff.1 hab) (noLater_iff.1 hbc))

theorem noLater_total (a b : Stage σ) : (noLater a b || noLater b a) = true := by
  rw [Bool.or_eq_true, noLater_iff, noLater_iff]
  exact Int.le_total a.priority b.priority

section Sorting

variable {stages sorted a b : List (Stage σ)}

theorem pairwise_sortStages (stages : List (Stage σ)) :
    (sortStages stages).Pairwise fun a b => a.priority ≤ b.priority :=
  (List.pairwise_mergeSort noLater_trans noLater_total stages).imp noLater_iff.1

theorem filter_sortStages (stages : List (Stage σ)) (n : Int) :
    ((sortStages stages).filter fun s => s.priority = n) = stages.filter fun s => s.priority = n := by
  -- What has one priority is in order as it stands, so the sort keeps it as a sublist.
  have htied : (stages.filter fun s => s.priority = n).Pairwise fun a b => noLater a b := by
    refine List.pairwise_of_forall_mem_list fun a ha b hb => noLater_iff.2 (Int.le_of_eq ?_)
    exact (of_decide_eq_true (List.mem_filter.1 ha).2).trans (of_decide_eq_true (List.mem_filter.1 hb).2).symm
  have hsub : (stages.filter fun s => s.priority = n).Sublist (sortStages stages) :=
    List.sublist_mergeSort noLater_trans noLater_total htied List.filter_sublist
  have hfilter := hsub.filter fun s => decide (s.priority = n)
  rw [List.filter_filter] at hfilter
  simp only [Bool.and_self] at hfilter
  have hlength := ((List.mergeSort_perm stages noLater).filter fun s => decide (s.priority = n)).length_eq
  exact (hfilter.eq_of_length hlength.symm).symm

theorem isStableSort_sortStages (stages : List (Stage σ)) : IsStableSort stages (sortStages stages) where
  perm := List.mergeSort_perm stages _
  ordered := pairwise_sortStages stages
  stable := filter_sortStages stages

theorem mem_of_filter_eq
    (h : ∀ n : Int, (a.filter fun s => s.priority = n) = b.filter fun s => s.priority = n) {s : Stage σ}
    (hs : s ∈ a) : s ∈ b := by
  have hfound : s ∈ a.filter fun t => t.priority = s.priority := List.mem_filter.2 ⟨hs, decide_eq_true rfl⟩
  rw [h] at hfound
  exact (List.mem_filter.1 hfound).1

theorem priority_le_of_mem {s t : Stage σ} (h : (s :: a).Pairwise fun s t => s.priority ≤ t.priority)
    (ht : t ∈ s :: a) : s.priority ≤ t.priority := by
  rcases List.mem_cons.1 ht with rfl | ht
  · exact Int.le_refl _
  · exact (List.pairwise_cons.1 h).1 t ht

theorem eq_of_filter_eq (ha : a.Pairwise fun s t => s.priority ≤ t.priority)
    (hb : b.Pairwise fun s t => s.priority ≤ t.priority)
    (h : ∀ n : Int, (a.filter fun s => s.priority = n) = b.filter fun s => s.priority = n) : a = b := by
  induction a generalizing b with
  | nil =>
    cases b with
    | nil => rfl
    | cons t b => exact absurd (mem_of_filter_eq (fun n => (h n).symm) List.mem_cons_self) List.not_mem_nil
  | cons s a ih =>
    cases b with
    | nil => exact absurd (mem_of_filter_eq h List.mem_cons_self) List.not_mem_nil
    | cons t b =>
      -- Each of the two heads stands in the other list, so neither has the greater priority.
      have hle : s.priority ≤ t.priority :=
        priority_le_of_mem ha (mem_of_filter_eq (fun n => (h n).symm) List.mem_cons_self)
      have hge : t.priority ≤ s.priority := priority_le_of_mem hb (mem_of_filter_eq h List.mem_cons_self)
      have hpriority : s.priority = t.priority := Int.le_antisymm hle hge
      have hhead := h s.priority
      rw [List.filter_cons_of_pos (by simp), List.filter_cons_of_pos (by simp [hpriority])] at hhead
      have heq : s = t := (List.cons.inj hhead).1
      have htail (n : Int) : (a.filter fun s => s.priority = n) = b.filter fun s => s.priority = n := by
        have hn := h n
        rw [List.filter_cons, List.filter_cons, heq] at hn
        split at hn
        · exact (List.cons.inj hn).2
        · exact hn
      rw [heq, ih (List.pairwise_cons.1 ha).2 (List.pairwise_cons.1 hb).2 htail]

/-- There is only one stable sort of a list. -/
theorem IsStableSort.unique (ha : IsStableSort stages a) (hb : IsStableSort stages b) : a = b :=
  eq_of_filter_eq ha.ordered hb.ordered fun n => (ha.stable n).trans (hb.stable n).symm

/-- One more stage at the end of a sorted list, which is sorted again. -/
theorem IsStableSort.register (h : IsStableSort stages sorted) (stage : Stage σ) :
    IsStableSort (stages ++ [stage]) (sortStages (sorted ++ [stage])) where
  perm := (List.mergeSort_perm _ _).trans (h.perm.append_right [stage])
  ordered := pairwise_sortStages _
  stable n := by rw [filter_sortStages, List.filter_append, List.filter_append, h.stable]

end Sorting

/-! ## Stages one after the other -/

/-- Stages that succeed one after the other: their reports, and the document and the state that the last one leaves. -/
inductive Succeeds (dialect : Dialect) : List (Stage σ) → Document → σ → List Report → Document → σ → Prop where
  | nil {d : Document} {state : σ} : Succeeds dialect [] d state [] d state
  | cons {stage : Stage σ} {stages : List (Stage σ)} {d d' d'' : Document} {state state' state'' : σ}
      {report : Report} {reports : List Report} (run : stage.run dialect d state = ⟨.ok report, d', state'⟩)
      (rest : Succeeds dialect stages d' state' reports d'' state'') :
      Succeeds dialect (stage :: stages) d state (report :: reports) d'' state''

section Performing

variable {dialect : Dialect} {stages done rest : List (Stage σ)} {stage : Stage σ} {d d' : Document} {state state' : σ}
  {report more : Report} {reports : List Report} {e : ExpansionError}

theorem performFrom_cons_ok (h : stage.run dialect d state = ⟨.ok more, d', state'⟩) :
    performFrom dialect report (stage :: rest) d state = performFrom dialect (report.merge more) rest d' state' := by
  rw [performFrom, h]

theorem performFrom_cons_error (h : (stage.run dialect d state).result = .error e) :
    performFrom dialect report (stage :: rest) d state = stage.run dialect d state := by
  rw [performFrom, h]

theorem Succeeds.performFrom_append (h : Succeeds dialect done d state reports d' state') (report : Report)
    (rest : List (Stage σ)) : performFrom dialect report (done ++ rest) d state
      = performFrom dialect (reports.foldl Report.merge report) rest d' state' := by
  induction h generalizing report with
  | nil => rfl
  | cons run _ ih => rw [List.cons_append, performFrom_cons_ok run, ih, List.foldl_cons]

/-- Stages either succeed all, or there is a first one that fails. -/
theorem exists_succeeds_or (dialect : Dialect) (stages : List (Stage σ)) (d : Document) (state : σ) :
    (∃ reports d' state', Succeeds dialect stages d state reports d' state') ∨
      ∃ done stage rest reports d' state' e, stages = done ++ stage :: rest ∧
        Succeeds dialect done d state reports d' state' ∧ (stage.run dialect d' state').result = .error e := by
  induction stages generalizing d state with
  | nil => exact .inl ⟨[], d, state, .nil⟩
  | cons stage stages ih =>
    cases hrun : stage.run dialect d state with
    | mk result d₁ state₁ =>
      cases result with
      | error e => exact .inr ⟨[], stage, stages, [], d, state, e, rfl, .nil, by rw [hrun]⟩
      | ok report =>
        rcases ih d₁ state₁ with ⟨reports, d', state', hall⟩ | ⟨done, failing, rest, reports, d', state', e, rfl, hdone, hfail⟩
        · exact .inl ⟨report :: reports, d', state', .cons hrun hall⟩
        · exact .inr ⟨stage :: done, failing, rest, report :: reports, d', state', e, rfl, .cons hrun hdone, hfail⟩

end Performing

theorem Report.foldl_merge (report : Report) (reports : List Report) : reports.foldl merge report
    = ⟨report.passes + (reports.map (·.passes)).sum, report.expansions + (reports.map (·.expansions)).sum,
        report.diagnostics ++ reports.flatMap (·.diagnostics)⟩ := by
  induction reports generalizing report with
  | nil => simp
  | cons more reports ih =>
    rw [List.foldl_cons, ih]
    simp [merge, Nat.add_assoc]

/-! ## Pipelines -/

namespace Pipeline

def ofStages (history : List (Stage σ)) : Pipeline σ :=
  history.foldl register empty

theorem stages_register (p : Pipeline σ) (stage : Stage σ) :
    (p.register stage).stages = sortStages (p.stages ++ [stage]) :=
  rfl

/-- Sorting after each registration comes to the same as sorting once. -/
theorem isStableSort_ofStages (history : List (Stage σ)) : IsStableSort history (ofStages history).stages := by
  induction history using List.reverseRecOn with
  | nil => exact ⟨.refl _, .nil, fun _ => rfl⟩
  | append_singleton history stage ih =>
    rw [ofStages, List.foldl_append, List.foldl_cons, List.foldl_nil, ← ofStages, stages_register]
    exact ih.register stage

/-- After any registrations, the stages of a pipeline are the one stable sort of all that were registered. Either all
of them succeed in that order, or there is a first one that fails. If they succeed, the reports are added up: passes
and expansions by their sums, diagnostics one after the other. If one fails, the run is the run of that stage on what
the stages before it left: its error, the document and the state as it left them, whatever stages stand after it. -/
theorem ofStages_perform (history : List (Stage σ)) (dialect : Dialect) (d : Document) (state : σ) :
    let p := ofStages history
    IsStableSort history p.stages ∧ p.stages = sortStages history ∧
    ((∃ reports d' state', Succeeds dialect p.stages d state reports d' state') ∨
      ∃ done stage rest reports d' state' e, p.stages = done ++ stage :: rest ∧
        Succeeds dialect done d state reports d' state' ∧ (stage.run dialect d' state').result = .error e) ∧
    (∀ reports d' state', Succeeds dialect p.stages d state reports d' state' → p.perform dialect d state
      = ⟨.ok ⟨(reports.map (·.passes)).sum, (reports.map (·.expansions)).sum, reports.flatMap (·.diagnostics)⟩,
          d', state'⟩) ∧
    ∀ done stage rest reports d' state' e, p.stages = done ++ stage :: rest →
      Succeeds dialect done d state reports d' state' → (stage.run dialect d' state').result = .error e →
      p.perform dialect d state = stage.run dialect d' state' ∧
        ∀ others, perform ⟨done ++ stage :: others⟩ dialect d state = stage.run dialect d' state' := by
  intro p
  have hsorted : IsStableSort history p.stages := isStableSort_ofStages history
  have hfail {done stage reports d' state' e} (hdone : Succeeds dialect done d state reports d' state')
      (hfailing : (stage.run dialect d' state').result = .error e) (others : List (Stage σ)) :
      perform ⟨done ++ stage :: others⟩ dialect d state = stage.run dialect d' state' := by
    rw [perform, hdone.performFrom_append, performFrom_cons_error hfailing]
  refine ⟨hsorted, hsorted.unique (isStableSort_sortStages history), exists_succeeds_or dialect p.stages d state, ?_, ?_⟩
  · intro reports d' state' hall
    have hperform := hall.performFrom_append .empty []
    rw [List.append_nil, performFrom, Report.foldl_merge] at hperform
    rw [perform, hperform]
    simp [Report.empty]
  · intro done stage rest reports d' state' e hstages hdone hfailing
    refine ⟨?_, hfail hdone hfailing⟩
    rw [← hfail hdone hfailing rest, ← hstages]

/-- A stage that puts its name at the end of the document. The state lists the names of the stages that have run. -/
def naming (name : String) (priority : Int) : Stage (List String) :=
  ⟨name, priority, fun _ d ran =>
    ⟨.ok ⟨1, 2, [⟨.macroExecution, name, "", none, d.sourceId, 1⟩]⟩,
      { d with blocks := d.blocks ++ [.leaf (.word name)] }, ran ++ [name]⟩⟩

/-- A stage that changes the document and fails. -/
def refusing (name : String) (priority : Int) : Stage (List String) :=
  ⟨name, priority, fun _ d ran =>
    ⟨.error (.invalidConfig .zeroMaxDepth), { d with blocks := d.blocks ++ [.leaf .space] }, ran ++ [name]⟩⟩

/-- Of four stages the third one fails, so the last one does not run; without it all of them do. -/
theorem ofStages_perform_footer :
    let footer := naming "footer" 200
    let header := naming "header" 10
    let check := refusing "check" 100
    let title := naming "title" 10
    let failing := ofStages [footer, header, check, title]
    let succeeding := ofStages [footer, header, title]
    failing.stages = [header, title, check, footer] ∧ succeeding.stages = [header, title, footer] ∧
    failing.perform .default ⟨[], 0⟩ [] = ⟨.error (.invalidConfig .zeroMaxDepth),
      ⟨[.leaf (.word "header"), .leaf (.word "title"), .leaf .space], 0⟩, ["header", "title", "check"]⟩ ∧
    succeeding.perform .default ⟨[], 0⟩ [] = ⟨.ok ⟨3, 6,
        [⟨.macroExecution, "header", "", none, 0, 1⟩, ⟨.macroExecution, "title", "", none, 0, 1⟩,
          ⟨.macroExecution, "footer", "", none, 0, 1⟩]⟩,
      ⟨[.leaf (.word "header"), .leaf (.word "title"), .leaf (.word "footer")], 0⟩, ["header", "title", "footer"]⟩ := by
  intro footer header check title failing succeeding
  have hpriorities : footer.priority = 200 ∧ header.priority = 10 ∧ check.priority = 100 ∧ title.priority = 10 :=
    ⟨rfl, rfl, rfl, rfl⟩
  obtain ⟨-, hfailing, -, -, hfails⟩ := ofStages_perform [footer, header, check, title] .default ⟨[], 0⟩ []
  obtain ⟨-, hsucceeding, -, hsucceeds, -⟩ := ofStages_perform [footer, header, title] .default ⟨[], 0⟩ []
  replace hfailing : failing.stages = [header, title, check, footer] := by
    rw [hfailing]
    simp [sortStages, List.mergeSort, noLater, hpriorities]
  replace hsucceeding : succeeding.stages = [header, title, footer] := by
    rw [hsucceeding]
    simp [sortStages, List.mergeSort, noLater, hpriorities]
  refine ⟨hfailing, hsucceeding, ?_, ?_⟩
  · have hdone : Succeeds .default [header, title] ⟨[], 0⟩ [] _ _ _ := .cons rfl (.cons rfl .nil)
    exact (hfails [header, title] check [footer] _ _ _ _ hfailing hdone rfl).1
  · have hall : Succeeds .default [header, title, footer] ⟨[], 0⟩ [] _ _ _ := .cons rfl (.cons rfl (.cons rfl .nil))
    rw [← hsucceeding] at hall
    exact hsucceeds _ _ _ hall

end Pipeline

end MacroDoc
