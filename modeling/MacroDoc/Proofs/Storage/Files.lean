import Mathlib.Data.List.Nodup
import MacroDoc.Storage.Memory

/-!
# Files and the names that lead to them

* `Tree.names_joined`, `Tree.joined_names` : a location and its names;
* `Tree.names_prefix_iff` : that a location lies below another one, by their names;
* `Tree.Lawful` : a tree as a storage of files has it;
* `Tree.HasFile` : the names that lead to a file.
-/

namespace MacroDoc

namespace Tree

/-! ## Names in a location -/

theorem split_eq_splitOn (c : Char) (text : List Char) : Text.split c text = text.splitOn c := by
  induction text with
  | nil => rfl
  | cons d text ih =>
    rw [Text.split, List.splitOn_cons_eq_if_modifyHead, ih]
    by_cases h : d = c
    · rw [if_pos h, if_pos (beq_iff_eq.2 h)]
    · rw [if_neg h, if_neg (by simpa using h)]
      cases hsplit : text.splitOn c with
      | nil => exact absurd hsplit (List.splitOn_ne_nil c text)
      | cons piece pieces => rfl

theorem map_ofList_toList (names : List String) : (names.map String.toList).map String.ofList = names := by
  simp [List.map_map, Function.comp_def]

theorem toList_joined (names : List String) :
    ("/".intercalate names).toList = ['/'].intercalate (names.map String.toList) :=
  String.toList_intercalate

theorem names_joined {names : List String} (hne : names ≠ []) (h : ∀ n ∈ names, '/' ∉ n.toList) :
    Tree.names ("/".intercalate names) = names := by
  rw [Tree.names, split_eq_splitOn, toList_joined, List.splitOn_intercalate '/' ?_ (by simpa using hne),
    map_ofList_toList]
  intro l hl
  obtain ⟨n, hn, rfl⟩ := List.mem_map.1 hl
  exact h n hn

theorem joined_names (location : String) : "/".intercalate (Tree.names location) = location := by
  rw [← String.toList_inj, toList_joined, Tree.names, split_eq_splitOn, List.map_map]
  rw [show String.toList ∘ String.ofList = id from funext fun _ => String.toList_ofList, List.map_id]
  exact List.intercalate_splitOn '/'

theorem names_append_slash (a b : String) : Tree.names (a ++ "/" ++ b) = Tree.names a ++ Tree.names b := by
  rw [Tree.names, Tree.names, Tree.names, split_eq_splitOn, split_eq_splitOn, split_eq_splitOn, ← List.map_append,
    ← List.splitOn_append_cons_self]
  simp

theorem joined_append {a b : List String} (ha : a ≠ []) (hb : b ≠ []) :
    "/".intercalate (a ++ b) = "/".intercalate a ++ "/" ++ "/".intercalate b := by
  have hjoin (a b : List (List Char)) (ha : a ≠ []) (hb : b ≠ []) :
      ['/'].intercalate (a ++ b) = ['/'].intercalate a ++ '/' :: ['/'].intercalate b := by
    induction a with
    | nil => exact absurd rfl ha
    | cons l a ih =>
      rw [List.cons_append, List.intercalate_cons_of_ne_nil (by simp [hb])]
      by_cases hnil : a = []
      · simp [hnil]
      · rw [ih hnil, List.intercalate_cons_of_ne_nil hnil]
        simp
  rw [← String.toList_inj, toList_joined, List.map_append, hjoin _ _ (by simpa using ha) (by simpa using hb)]
  simp

/-- A location lies below another one, or is the same, exactly if its names begin with those of the other. -/
theorem names_prefix_iff {location : String} (hne : location ≠ "") {names : List String}
    (h : ∀ n ∈ names, '/' ∉ n.toList) :
    ("/".intercalate names = location ∨ (location ++ "/").toList <+: ("/".intercalate names).toList)
      ↔ Tree.names location <+: names := by
  constructor
  · rintro (heq | ⟨rest, hrest⟩)
    · have hnames : names ≠ [] := by
        rintro rfl
        exact hne (heq ▸ rfl)
      have hsame : Tree.names location = names := by rw [← heq, names_joined hnames h]
      exact hsame ▸ List.prefix_refl (Tree.names location)
    · have heq : "/".intercalate names = location ++ "/" ++ String.ofList rest := by
        rw [← String.toList_inj, ← hrest]
        simp
      have hnames : names ≠ [] := by
        rintro rfl
        have hlength := congrArg (fun s : String => s.toList.length) heq
        simp at hlength
      rw [← names_joined hnames h, heq, names_append_slash]
      exact List.prefix_append _ _
  · rintro ⟨below, rfl⟩
    by_cases hbelow : below = []
    · exact .inl (by rw [hbelow, List.append_nil, joined_names])
    · refine .inr ?_
      have hlocation : Tree.names location ≠ [] := by
        rw [Tree.names, split_eq_splitOn]
        simp [List.splitOn_ne_nil]
      rw [joined_append hlocation hbelow, joined_names, String.toList_append (s := location ++ "/")]
      exact List.prefix_append _ _

/-! ## Files of a tree -/

variable {α : Type}

/-- In each folder the names are different and hold no slash, and names of folders hold no backslash. -/
inductive Lawful : Tree α → Prop where
  | file (content : α) : Lawful (.file content)
  | folder {entries : List (String × Tree α)} (distinct : (entries.map (·.1)).Nodup)
      (noSlash : ∀ e ∈ entries, '/' ∉ e.1.toList)
      (noBackslash : ∀ name inner, (name, folder inner) ∈ entries → '\\' ∉ name.toList)
      (inner : ∀ e ∈ entries, Lawful e.2) : Lawful (.folder entries)

/-- Names lead to a file from the entries of a folder. -/
inductive HasFile : List (String × Tree α) → List String → Prop where
  | here {entries : List (String × Tree α)} {name : String} {content : α} (h : (name, file content) ∈ entries) :
      HasFile entries [name]
  | inside {entries inner : List (String × Tree α)} {name : String} {names : List String}
      (h : (name, folder inner) ∈ entries) (rest : HasFile inner names) : HasFile entries (name :: names)

variable {entries inner : List (String × Tree α)} {name : String} {names : List String} {content : α} {tree : Tree α}

theorem not_hasFile_nil : ¬ HasFile ([] : List (String × Tree α)) names := by
  rintro (h | ⟨h, -⟩)
  · exact List.not_mem_nil h
  · exact List.not_mem_nil h

theorem hasFile_cons_file :
    HasFile ((name, file content) :: entries) names ↔ names = [name] ∨ HasFile entries names := by
  constructor
  · rintro (h | ⟨h, rest⟩)
    · rcases List.mem_cons.1 h with heq | h
      · exact .inl (by rw [(Prod.mk.inj heq).1])
      · exact .inr (.here h)
    · rcases List.mem_cons.1 h with heq | h
      · cases (Prod.mk.inj heq).2
      · exact .inr (.inside h rest)
  · rintro (rfl | h | ⟨h, rest⟩)
    · exact .here List.mem_cons_self
    · exact .here (List.mem_cons_of_mem _ h)
    · exact .inside (List.mem_cons_of_mem _ h) rest

theorem hasFile_cons_folder : HasFile ((name, folder inner) :: entries) names ↔
    (∃ more, names = name :: more ∧ HasFile inner more) ∨ HasFile entries names := by
  constructor
  · rintro (h | ⟨h, rest⟩)
    · rcases List.mem_cons.1 h with heq | h
      · cases (Prod.mk.inj heq).2
      · exact .inr (.here h)
    · rcases List.mem_cons.1 h with heq | h
      · obtain ⟨rfl, hfolder⟩ := Prod.mk.inj heq
        obtain rfl := folder.inj hfolder
        exact .inl ⟨_, rfl, rest⟩
      · exact .inr (.inside h rest)
  · rintro (⟨more, rfl, h⟩ | h | ⟨h, rest⟩)
    · exact .inside List.mem_cons_self h
    · exact .here (List.mem_cons_of_mem _ h)
    · exact .inside (List.mem_cons_of_mem _ h) rest

theorem HasFile.mem_names (h : HasFile entries (name :: names)) : name ∈ entries.map (·.1) := by
  cases h with
  | here h => exact List.mem_map_of_mem (f := Prod.fst) h
  | inside h => exact List.mem_map_of_mem (f := Prod.fst) h

theorem Lawful.tail {e : String × Tree α} (h : (Tree.folder (e :: entries)).Lawful) : (Tree.folder entries).Lawful := by
  cases h with
  | folder distinct noSlash noBackslash inner =>
    refine .folder (List.nodup_cons.1 distinct).2 (fun e he => noSlash e (List.mem_cons_of_mem _ he)) ?_
      fun e he => inner e (List.mem_cons_of_mem _ he)
    exact fun name inner h => noBackslash name inner (List.mem_cons_of_mem _ h)

theorem Lawful.not_mem_tail (h : (Tree.folder ((name, tree) :: entries)).Lawful) : name ∉ entries.map (·.1) := by
  cases h with
  | folder distinct => exact (List.nodup_cons.1 distinct).1

theorem Lawful.of_mem {e : String × Tree α} (h : (Tree.folder entries).Lawful) (he : e ∈ entries) : e.2.Lawful := by
  cases h with
  | folder _ _ _ inner => exact inner e he

theorem Lawful.noSlash (h : (Tree.folder entries).Lawful) (hfile : HasFile entries names) : ∀ n ∈ names, '/' ∉ n.toList := by
  induction hfile with
  | here hmem =>
    cases h with
    | folder _ noSlash => exact List.forall_mem_singleton.2 (noSlash _ hmem)
  | inside hmem _ ih =>
    have hinner := ih (h.of_mem hmem)
    cases h with
    | folder _ noSlash => exact List.forall_mem_cons.2 ⟨noSlash _ hmem, hinner⟩

theorem Lawful.noBackslash (h : (Tree.folder entries).Lawful) (hfile : HasFile entries names) :
    ∀ n ∈ names.dropLast, '\\' ∉ n.toList := by
  induction hfile with
  | here => exact List.forall_mem_nil _
  | @inside _ inner name names hmem rest ih =>
    have hne : names ≠ [] := by
      rintro rfl
      cases rest
    rw [List.dropLast_cons_of_ne_nil hne]
    have hinner := ih (h.of_mem hmem)
    cases h with
    | folder _ _ noBackslash => exact List.forall_mem_cons.2 ⟨noBackslash _ _ hmem, hinner⟩

end Tree

end MacroDoc
