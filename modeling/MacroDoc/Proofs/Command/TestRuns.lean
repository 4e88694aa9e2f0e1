import MacroDoc.Command.Test
import MacroDoc.Proofs.Testing.Discovery

/-!
# Running the selected tests

The command looks at a folder, and then it runs the selected tests one after the other. What it does after that depends
on their results only.

* `regroup`, `mapM_runGroup` : running groups of tests is running their tests, and grouping the results;
* `TestRequest.outcomeOf`, `TestRequest.runSelected_eq` : the outcome of a request by the results of the tests;
* `TestRequest.status_outcomeOf` : when that ends well;
* `TestRequest.perform_runs` : the tests that a request runs, and its exit status.
-/

namespace MacroDoc.Command

open Testing
open MacroDoc.Tree (HasFile)

/-! ## Runs of groups -/

theorem mapM_bind_congr {m : Type → Type} [Monad m] [LawfulMonad m] {α β γ : Type} {f : α → m β} {k k' : List β → m γ}
    (xs : List α) (h : ∀ ys, ys.length = xs.length → k ys = k' ys) : xs.mapM f >>= k = xs.mapM f >>= k' := by
  induction xs generalizing k k' with
  | nil => rw [List.mapM_nil, pure_bind, pure_bind, h [] rfl]
  | cons x xs ih =>
    rw [List.mapM_cons]
    simp only [bind_assoc, pure_bind]
    refine bind_congr fun y => ih fun ys hys => h (y :: ys) ?_
    rw [List.length_cons, List.length_cons, hys]

/-- The results of the tests of groups, by group. -/
def regroup : List TestGroup → List TestResult → List ResultGroup
  | [], _ => []
  | g :: groups, results =>
    ⟨some (shownCategory g.category), results.take g.tests.length⟩ :: regroup groups (results.drop g.tests.length)

theorem flatMap_regroup {groups : List TestGroup} {results : List TestResult}
    (h : results.length = (groups.flatMap (·.tests)).length) : (regroup groups results).flatMap (·.results) = results := by
  induction groups generalizing results with
  | nil => exact (List.eq_nil_of_length_eq_zero h).symm
  | cons g groups ih =>
    rw [List.flatMap_cons, List.length_append] at h
    rw [regroup, List.flatMap_cons, ih (by rw [List.length_drop]; omega), List.take_append_drop]

section Groups

variable {m : Type → Type} [Monad m] [LawfulMonad m] (storage : Storage m) (root : String)

theorem mapM_runGroup (groups : List TestGroup) : groups.mapM (runGroup storage root) =
    regroup groups <$> (groups.flatMap (·.tests)).mapM fun t => runTestFile storage (t.location root) := by
  induction groups with
  | nil => simp [regroup]
  | cons g groups ih =>
    rw [List.mapM_cons, List.flatMap_cons, List.mapM_append, runGroup, ih]
    simp only [map_eq_pure_bind, bind_assoc, pure_bind]
    refine mapM_bind_congr g.tests fun first hfirst => bind_congr fun others => ?_
    rw [regroup, ← hfirst, List.take_left, List.drop_left]

end Groups

/-! ## Outcomes -/

theorem status_testOutcome (colored : Bool) (groups : List ResultGroup) :
    (testOutcome colored groups).status = 0 ↔ ∀ x ∈ groups.flatMap (·.results), x.failure = none := by
  unfold testOutcome
  simp only [List.isEmpty_iff]
  split
  · next h => simpa using h
  · next h => simpa using h

namespace TestRequest

/-- The outcome of a request by the groups that there are and the results of the tests that it selects out of them. -/
def outcomeOf (r : TestRequest) (groups : List TestGroup) (results : List TestResult) : Outcome :=
  if groups.isEmpty then .failure (unlines [noTestsLine r.location])
  else
    let warnings := (unansweredRequests r.categories groups).map (unansweredLine groups)
    match selectGroups r.categories groups with
    | [] => .failure (unlines (warnings ++ ["no matching categories found"]))
    | selected =>
      let outcome := testOutcome r.colored (regroup selected results)
      { outcome with messages := unlines warnings ++ outcome.messages }

theorem runSelected_eq {m : Type → Type} [Monad m] [LawfulMonad m] (r : TestRequest) (storage : Storage m)
    (groups : List TestGroup) : r.runSelected storage groups = r.outcomeOf groups <$>
      ((selectGroups r.categories groups).flatMap (·.tests)).mapM fun t => runTestFile storage (t.location r.location) := by
  unfold runSelected outcomeOf
  by_cases hempty : groups.isEmpty = true
  · rw [if_pos hempty]
    have hnil : selectGroups r.categories groups = [] := by
      rw [List.isEmpty_iff.1 hempty]
      rfl
    simp [hnil, hempty]
  · rw [if_neg hempty]
    simp only [if_neg hempty]
    cases hselected : selectGroups r.categories groups with
    | nil => simp
    | cons g selected =>
      simp only [mapM_runGroup, map_eq_pure_bind, bind_assoc, pure_bind]

variable {r : TestRequest} {entries : List (String × Tree Unit)} {results : List TestResult}

/-- A request ends well exactly if it selects a test and none of those that it selects fails. -/
theorem status_outcomeOf (h : results.length = (selectedTests r.categories entries).length) :
    (r.outcomeOf (groupTests (testsIn [] entries)) results).status = 0 ↔
      selectedTests r.categories entries ≠ [] ∧ ∀ x ∈ results, x.failure = none := by
  rw [selectedTests] at h ⊢
  unfold outcomeOf
  by_cases hempty : (groupTests (testsIn [] entries)).isEmpty = true
  · rw [if_pos hempty, List.isEmpty_iff.1 hempty]
    simp [Outcome.failure, selectGroups]
  · simp only [if_neg hempty]
    cases hselected : selectGroups r.categories (groupTests (testsIn [] entries)) with
    | nil => simp [Outcome.failure]
    | cons g selected =>
      rw [hselected] at h
      have hg : g ∈ groupTests (testsIn [] entries) :=
        (mem_selectGroups.1 (hselected ▸ List.mem_cons_self : g ∈ selectGroups r.categories _)).1
      obtain ⟨t, ht⟩ := List.exists_mem_of_ne_nil _ (tests_ne_nil hg)
      have hne : (g :: selected).flatMap (·.tests) ≠ [] :=
        List.ne_nil_of_mem (List.mem_flatMap.2 ⟨g, List.mem_cons_self, ht⟩)
      simp only [status_testOutcome, flatMap_regroup h]
      exact (and_iff_right hne).symm

/-- A request to run the tests of a folder looks at it and then runs certain tests, each once: the files with the name of
a test that stand in a requested folder or below one, or all of them if nothing is requested. Their locations are
different. The outcome depends on the results only, and its status is 0 if and only if there is a test to run and none
of them fails. -/
theorem perform_runs {m : Type → Type} [Monad m] [LawfulMonad m] (storage : Storage m) (r : TestRequest)
    (entries : List (String × Tree Unit)) (looking : m Unit)
    (hlook : storage.look r.location = looking >>= fun _ => pure (some (.folder entries)))
    (hrun : r.listCategories = false) (hentries : (Tree.folder entries).Lawful)
    (hrequested : ∀ c ∈ r.categories, trimSlashes c ≠ "") :
    ∃ (tests : List FoundTest) (outcome : List TestResult → Outcome),
      (r.perform storage = looking >>= fun _ =>
        outcome <$> tests.mapM fun t => runTestFile storage (t.location r.location)) ∧
      (∀ t, t ∈ tests ↔ isTestName t.name = true ∧ HasFile entries t.names ∧
        (r.categories = [] ∨ ∃ c ∈ r.categories, requestedFolders c <+: t.folders)) ∧
      (tests.map (·.location r.location)).Nodup ∧
      ∀ results, results.length = tests.length →
        ((outcome results).status = 0 ↔ tests ≠ [] ∧ ∀ x ∈ results, x.failure = none) := by
  refine ⟨selectedTests r.categories entries, r.outcomeOf (groupTests (testsIn [] entries)), ?_, fun t => ?_, ?_, ?_⟩
  · rw [perform, hlook]
    simp only [bind_assoc, pure_bind, hrun, groupsAt, runSelected_eq]
    rfl
  · exact mem_selectedTests hentries hrequested
  · exact nodup_locations hentries r.location
  · exact fun results h => status_outcomeOf h

/-- Of two folders one is requested twice, and its name is only the beginning of the name of the other one. The test in it
is run, once, and passes. -/
theorem perform_runs_builtin :
    let files : List (String × Tree (Option String)) :=
      [("builtin", .folder [("code.test.md", .file (some "---\n# nothing is expected\n---\nany text")),
        ("notes.md", .file none)]), ("builtins", .folder [("code.test.md", .file (some "no front matter"))])]
    let storage := (Tree.folder files).storage
    let request : TestRequest := ⟨".", ["/builtin/", "builtin"], false, false⟩
    ∃ (tests : List FoundTest) (outcome : List TestResult → Outcome),
      request.perform storage = outcome (tests.map fun t => runTestFile storage (t.location ".")) ∧
      tests = [⟨["builtin"], "code.test.md"⟩] ∧ (request.perform storage).status = 0 := by
  intro files storage request
  have hcode : (Tree.folder [("code.test.md", Tree.file ()), ("notes.md", .file ())]).Lawful :=
    .folder (by decide) (by decide) (by simp) (by simp [Tree.Lawful.file])
  have hothers : (Tree.folder [("code.test.md", Tree.file ())]).Lawful :=
    .folder (by decide) (by decide) (by simp) (by simp [Tree.Lawful.file])
  have hlawful : (Tree.folder (Tree.outlineEach files)).Lawful :=
    .folder (by decide) (by decide) (by simp +contextual [files, Tree.outlineEach, Tree.outline, or_imp])
      (by simpa [files, Tree.outlineEach, Tree.outline] using ⟨hcode, hothers⟩)
  have hlook : storage.look "." = some (.folder (Tree.outlineEach files)) := by
    have herror : locationError? "." = none := by decide +kernel
    have hnames : Tree.names "." = ["."] := by decide +kernel
    simp only [storage, Tree.storage, Tree.find, herror, hnames]
    rfl
  obtain ⟨tests, outcome, hperform, htests, hnodup, hstatus⟩ :=
    perform_runs (m := Id) storage request (Tree.outlineEach files) (pure ()) hlook rfl hlawful (by decide)
  have hfiles (names : List String) : HasFile (Tree.outlineEach files) names ↔ names = ["builtin", "code.test.md"] ∨
      names = ["builtin", "notes.md"] ∨ names = ["builtins", "code.test.md"] := by
    simp [files, Tree.outlineEach, Tree.outline, Tree.hasFile_cons_file, Tree.hasFile_cons_folder, Tree.not_hasFile_nil,
      and_or_left, exists_or, or_assoc]
  have hmem (t : FoundTest) : t ∈ tests ↔ t = ⟨["builtin"], "code.test.md"⟩ := by
    rw [htests, hfiles]
    constructor
    · rintro ⟨hname, hfile, hfolder⟩
      obtain ⟨folders, name⟩ := t
      have hnames {folder last : String} (h : FoundTest.names ⟨folders, name⟩ = [folder, last]) :
          folders = [folder] ∧ name = last := List.append_singleton_inj.1 h
      obtain h | h | h := hfile
      · obtain ⟨rfl, rfl⟩ := hnames h
        rfl
      · obtain ⟨rfl, rfl⟩ := hnames h
        exact absurd hname (by decide)
      · obtain ⟨rfl, rfl⟩ := hnames h
        exact absurd hfolder (by decide +kernel)
    · rintro rfl
      exact ⟨by decide, .inl rfl, .inr ⟨"builtin", by decide, by decide +kernel⟩⟩
  have hone : tests = [⟨["builtin"], "code.test.md"⟩] :=
    List.perm_singleton.1 ((List.perm_ext_iff_of_nodup hnodup.of_map (List.nodup_singleton _)).2 (by simpa using hmem))
  refine ⟨tests, outcome, hperform.trans (by rw [hone]; rfl), hone, ?_⟩
  rw [hperform, hone]
  refine (hstatus _ (by rw [hone]; rfl)).2 ⟨by rw [hone]; exact List.cons_ne_nil _ _, ?_⟩
  decide +kernel

end TestRequest

end MacroDoc.Command
