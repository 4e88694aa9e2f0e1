import Mathlib.Data.List.Nodup
import MacroDoc.Proofs.Storage.Files
import MacroDoc.Testing.Discovery

/-!
# Which tests are found and selected

* `mem_testsIn`, `nodup_testsIn` : the tests of a folder, each found once;
* `FoundTest.category_eq`, `covers_iff` : the category of a test and the requests for it, by names of folders;
* `nodup_categories`, `mem_tests_iff`, `exists_group` : grouping loses and repeats no test;
* `selectedTests` : the tests that requests select out of a folder (`mem_selectedTests`, `nodup_locations`).
-/

namespace MacroDoc.Testing

open MacroDoc.Tree (HasFile)

variable {folders : List String} {entries inner : List (String × Tree Unit)} {t : FoundTest} {name : String}

/-! ## Found tests -/

/-- A test stands in the folders that the search has passed and in those that lead from there to a file with the name of
a test. -/
theorem mem_testsIn : t ∈ testsIn folders entries ↔
    isTestName t.name = true ∧ ∃ below, t.folders = folders ++ below ∧ HasFile entries (below ++ [t.name]) := by
  induction folders, entries using testsIn.induct with
  | case1 folders =>
    rw [testsIn]
    constructor
    · exact fun h => absurd h List.not_mem_nil
    · rintro ⟨-, below, -, h⟩
      exact absurd h Tree.not_hasFile_nil
  | case2 folders name content rest hname ih =>
    rw [testsIn, if_pos hname, List.mem_cons, ih]
    constructor
    · rintro (rfl | ⟨htest, below, hfolders, hfile⟩)
      · exact ⟨hname, [], (List.append_nil folders).symm, Tree.hasFile_cons_file.2 (.inl rfl)⟩
      · exact ⟨htest, below, hfolders, Tree.hasFile_cons_file.2 (.inr hfile)⟩
    · rintro ⟨htest, below, hfolders, hfile⟩
      rcases Tree.hasFile_cons_file.1 hfile with heq | hfile
      · obtain ⟨rfl, hlast⟩ := List.append_singleton_inj.1 (heq.trans (List.nil_append [name]).symm)
        obtain ⟨_, _⟩ := t
        rw [List.append_nil] at hfolders
        exact .inl (congrArg₂ FoundTest.mk hfolders hlast)
      · exact .inr ⟨htest, below, hfolders, hfile⟩
  | case3 folders name content rest hname ih =>
    rw [testsIn, if_neg hname, ih]
    constructor
    · rintro ⟨htest, below, hfolders, hfile⟩
      exact ⟨htest, below, hfolders, Tree.hasFile_cons_file.2 (.inr hfile)⟩
    · rintro ⟨htest, below, hfolders, hfile⟩
      rcases Tree.hasFile_cons_file.1 hfile with heq | hfile
      · obtain ⟨-, hlast⟩ := List.append_singleton_inj.1 (heq.trans (List.nil_append [name]).symm)
        exact absurd (hlast ▸ htest) hname
      · exact ⟨htest, below, hfolders, hfile⟩
  | case4 folders name inner rest ihinner ihrest =>
    rw [testsIn, List.mem_append, ihinner, ihrest, ← and_or_left]
    refine and_congr_right fun htest => ?_
    constructor
    · rintro (⟨below, hfolders, hfile⟩ | ⟨below, hfolders, hfile⟩)
      · refine ⟨name :: below, ?_, Tree.hasFile_cons_folder.2 (.inl ⟨_, List.cons_append, hfile⟩)⟩
        rw [hfolders, List.append_assoc, List.singleton_append]
      · exact ⟨below, hfolders, Tree.hasFile_cons_folder.2 (.inr hfile)⟩
    · rintro ⟨below, hfolders, hfile⟩
      rcases Tree.hasFile_cons_folder.1 hfile with ⟨more, heq, hfile⟩ | hfile
      · cases below with
        | nil =>
          obtain ⟨-, rfl⟩ := List.cons.inj heq
          cases hfile
        | cons first below =>
          obtain ⟨rfl, rfl⟩ := List.cons.inj heq
          refine .inl ⟨below, ?_, hfile⟩
          rw [hfolders, List.append_assoc, List.singleton_append]
      · exact .inr ⟨below, hfolders, hfile⟩

/-- No test is found twice, as the names in a folder are different. -/
theorem nodup_testsIn (h : (Tree.folder entries).Lawful) : (testsIn folders entries).Nodup := by
  induction folders, entries using testsIn.induct with
  | case1 folders =>
    rw [testsIn]
    exact List.nodup_nil
  | case2 folders name content rest hname ih =>
    rw [testsIn, if_pos hname]
    refine List.nodup_cons.2 ⟨fun hmem => ?_, ih h.tail⟩
    obtain ⟨-, below, hfolders, hfile⟩ := mem_testsIn.1 hmem
    obtain rfl := List.self_eq_append_right.1 hfolders
    exact h.not_mem_tail hfile.mem_names
  | case3 folders name content rest hname ih =>
    rw [testsIn, if_neg hname]
    exact ih h.tail
  | case4 folders name inner rest ihinner ihrest =>
    rw [testsIn]
    refine List.nodup_append.2 ⟨ihinner (h.of_mem List.mem_cons_self), ihrest h.tail, ?_⟩
    rintro t hinner _ hrest rfl
    obtain ⟨-, below, hfolders, -⟩ := mem_testsIn.1 hinner
    obtain ⟨-, below', hfolders', hfile⟩ := mem_testsIn.1 hrest
    have hbelow : name :: below = below' := by
      rw [hfolders, List.append_assoc] at hfolders'
      exact List.append_cancel_left hfolders'
    rw [← hbelow] at hfile
    exact h.not_mem_tail hfile.mem_names

theorem hasFile_names_of_mem (h : t ∈ testsIn [] entries) : HasFile entries t.names := by
  obtain ⟨-, below, hfolders, hfile⟩ := mem_testsIn.1 h
  rw [FoundTest.names, hfolders]
  exact hfile

/-! ## Categories -/

theorem FoundTest.category_eq (h : ∀ n ∈ t.folders, '\\' ∉ n.toList) : t.category = "/".intercalate t.folders := by
  have hplain (names : List (List Char)) (h : ∀ n ∈ names, '\\' ∉ n) : '\\' ∉ ['/'].intercalate names := by
    induction names with
    | nil => exact List.not_mem_nil
    | cons n names ih =>
      obtain ⟨hn, hnames⟩ := List.forall_mem_cons.1 h
      by_cases hnil : names = []
      · rw [hnil, List.intercalate_singleton]
        exact hn
      · rw [List.intercalate_cons_of_ne_nil hnil]
        simp [hn, ih hnames]
  have hmem : '\\' ∉ ("/".intercalate t.folders).toList := by
    rw [Tree.toList_joined]
    refine hplain _ fun l hl => ?_
    obtain ⟨n, hn, rfl⟩ := List.mem_map.1 hl
    exact h n hn
  have hself : ("/".intercalate t.folders).toList.map (fun c => if c = '\\' then '/' else c)
      = ("/".intercalate t.folders).toList := by
    refine (List.map_congr_left fun c hc => if_neg ?_).trans (List.map_id _)
    rintro rfl
    exact hmem hc
  rw [category, hself, String.ofList_toList]

def requestedFolders (requested : String) : List String :=
  Tree.names (trimSlashes requested)

/-- A request covers the tests in the folder that it names and those below it. -/
theorem covers_iff {requested : String} (hne : trimSlashes requested ≠ "") (hslash : ∀ n ∈ t.folders, '/' ∉ n.toList)
    (hplain : ∀ n ∈ t.folders, '\\' ∉ n.toList) :
    covers requested t.category = true ↔ requestedFolders requested <+: t.folders := by
  rw [requestedFolders, ← Tree.names_prefix_iff hne hslash, covers, FoundTest.category_eq hplain, Bool.or_eq_true,
    decide_eq_true_eq, List.isPrefixOf_iff_prefix]

/-! ## Groups -/

theorem nodup_eraseDups {α : Type} [BEq α] [LawfulBEq α] : ∀ l : List α, l.eraseDups.Nodup
  | [] => List.nodup_nil
  | a :: l => by
    rw [List.eraseDups_cons]
    refine List.nodup_cons.2 ⟨fun hmem => ?_, nodup_eraseDups _⟩
    have hne := (List.mem_filter.1 (List.mem_eraseDups.1 hmem)).2
    simp at hne
termination_by l => l.length
decreasing_by
  have hle := List.length_filter_le (fun b => !b == a) l
  simp only [List.length_cons]
  omega

theorem nodup_categories (tests : List FoundTest) : ((groupTests tests).map (·.category)).Nodup := by
  rw [groupTests, List.map_map]
  exact (List.map_id _).symm ▸ nodup_eraseDups _

theorem tests_of_mem_groupTests {tests : List FoundTest} {g : TestGroup} (h : g ∈ groupTests tests) :
    g.tests = (tests.mergeSort FoundTest.precedes).filter fun t => t.category = g.category := by
  obtain ⟨c, -, rfl⟩ := List.mem_map.1 h
  rfl

theorem mem_tests_iff {tests : List FoundTest} {g : TestGroup} (h : g ∈ groupTests tests) :
    t ∈ g.tests ↔ t ∈ tests ∧ t.category = g.category := by
  rw [tests_of_mem_groupTests h, List.mem_filter, List.mem_mergeSort, decide_eq_true_eq]

theorem exists_group {tests : List FoundTest} (h : t ∈ tests) : ∃ g ∈ groupTests tests, g.category = t.category := by
  refine ⟨_, List.mem_map_of_mem (List.mem_eraseDups.2 (List.mem_map_of_mem ?_)), rfl⟩
  exact List.mem_mergeSort.2 h

theorem tests_ne_nil {tests : List FoundTest} {g : TestGroup} (h : g ∈ groupTests tests) : g.tests ≠ [] := by
  obtain ⟨c, hc, rfl⟩ := List.mem_map.1 h
  obtain ⟨t, ht, rfl⟩ := List.mem_map.1 (List.mem_eraseDups.1 hc)
  exact List.ne_nil_of_mem (List.mem_filter.2 ⟨ht, decide_eq_true rfl⟩)

/-- The tests below a folder that the requests select, in the order in which they run. -/
def selectedTests (requested : List String) (entries : List (String × Tree Unit)) : List FoundTest :=
  (selectGroups requested (groupTests (testsIn [] entries))).flatMap (·.tests)

variable {requested : List String}

theorem mem_selectGroups {groups : List TestGroup} {g : TestGroup} : g ∈ selectGroups requested groups ↔
    g ∈ groups ∧ (requested = [] ∨ ∃ r ∈ requested, covers r g.category = true) := by
  rw [selectGroups, List.mem_filter, Bool.or_eq_true, List.isEmpty_iff, List.any_eq_true]

theorem mem_selectedTests_iff_covers : t ∈ selectedTests requested entries ↔
    t ∈ testsIn [] entries ∧ (requested = [] ∨ ∃ r ∈ requested, covers r t.category = true) := by
  rw [selectedTests, List.mem_flatMap]
  constructor
  · rintro ⟨g, hg, ht⟩
    obtain ⟨hgroup, hselected⟩ := mem_selectGroups.1 hg
    obtain ⟨htest, hcategory⟩ := (mem_tests_iff hgroup).1 ht
    exact ⟨htest, hcategory ▸ hselected⟩
  · rintro ⟨htest, hselected⟩
    obtain ⟨g, hgroup, hcategory⟩ := exists_group htest
    refine ⟨g, mem_selectGroups.2 ⟨hgroup, hcategory ▸ hselected⟩, (mem_tests_iff hgroup).2 ⟨htest, hcategory.symm⟩⟩

/-- However requests overlap, no test is selected twice. -/
theorem nodup_selectedTests (h : (Tree.folder entries).Lawful) : (selectedTests requested entries).Nodup := by
  have hsub : (selectGroups requested (groupTests (testsIn [] entries))).Sublist (groupTests (testsIn [] entries)) :=
    List.filter_sublist
  have hdifferent := List.pairwise_map.1 ((hsub.map (·.category)).nodup (nodup_categories _))
  refine List.nodup_flatMap.2 ⟨fun g hg => ?_, hdifferent.imp_of_mem fun {a b} ha hb hne => ?_⟩
  · rw [tests_of_mem_groupTests (hsub.subset hg)]
    exact (((List.mergeSort_perm _ _).nodup_iff).2 (nodup_testsIn h)).filter _
  · intro t hta htb
    have hcategory := ((mem_tests_iff (hsub.subset ha)).1 hta).2
    exact hne (hcategory.symm.trans ((mem_tests_iff (hsub.subset hb)).1 htb).2)

/-- The selected tests are the files with the name of a test that stand in a requested folder or below one; all of them
if nothing is requested. -/
theorem mem_selectedTests (h : (Tree.folder entries).Lawful) (hrequested : ∀ r ∈ requested, trimSlashes r ≠ "") :
    t ∈ selectedTests requested entries ↔ isTestName t.name = true ∧ HasFile entries t.names ∧
      (requested = [] ∨ ∃ r ∈ requested, requestedFolders r <+: t.folders) := by
  rw [mem_selectedTests_iff_covers]
  have hfound : t ∈ testsIn [] entries ↔ isTestName t.name = true ∧ HasFile entries t.names := by
    rw [mem_testsIn]
    refine and_congr_right fun _ => ?_
    simp only [List.nil_append, exists_eq_left', FoundTest.names]
  rw [hfound, and_assoc]
  refine and_congr_right fun _ => and_congr_right fun hfile => or_congr_right (exists_congr fun r => ?_)
  refine and_congr_right fun hr => covers_iff (hrequested r hr) (fun n hn => ?_) (fun n hn => ?_)
  · exact h.noSlash hfile n (List.mem_append_left _ hn)
  · refine h.noBackslash hfile n ?_
    rw [FoundTest.names, List.dropLast_concat]
    exact hn

theorem nodup_locations (h : (Tree.folder entries).Lawful) (root : String) :
    ((selectedTests requested entries).map (·.location root)).Nodup := by
  refine (nodup_selectedTests h).map_on fun a ha b hb heq => ?_
  have hfile {t : FoundTest} (ht : t ∈ selectedTests requested entries) : HasFile entries t.names :=
    hasFile_names_of_mem (mem_selectedTests_iff_covers.1 ht).1
  have hne (t : FoundTest) : t.names ≠ [] := by simp [FoundTest.names]
  have hjoined : "/".intercalate a.names = "/".intercalate b.names := by
    have hlists := congrArg String.toList heq
    simp only [FoundTest.location, String.toList_append] at hlists
    exact String.toList_inj.1 (List.append_cancel_left hlists)
  have hnames : a.names = b.names := by
    rw [← Tree.names_joined (hne a) (h.noSlash (hfile ha)), hjoined, Tree.names_joined (hne b) (h.noSlash (hfile hb))]
  obtain ⟨hfolders, hname⟩ := List.append_singleton_inj.1 hnames
  cases a
  cases b
  exact congrArg₂ FoundTest.mk hfolders hname

end MacroDoc.Testing
