/-!
# Macro parameters

Parameters are pairs of a name and a value, sorted by name, each name once. Keeping them sorted makes every
listing of a call the same, whatever the order in which its parameters were written.

* `Parameters.insert` : set a value, in place of an earlier one;
* `Parameters.get?` : look a value up;
* `Parameters.ofList` : insert from left to right, so a repeated name keeps its last value.
-/

namespace MacroDoc

/-- Set `name` to `value` in a list sorted by name. -/
def insertSorted (name value : String) : List (String × String) → List (String × String)
  | [] => [(name, value)]
  | (n, v) :: rest =>
    if name < n then (name, value) :: (n, v) :: rest
    else if name = n then (name, value) :: rest
    else (n, v) :: insertSorted name value rest

theorem mem_insertSorted {name value : String} {p : String × String} {l : List (String × String)}
    (h : p ∈ insertSorted name value l) : p = (name, value) ∨ p ∈ l := by
  induction l with
  | nil => simpa [insertSorted] using h
  | cons q rest ih =>
    obtain ⟨n, v⟩ := q
    simp only [insertSorted] at h
    split at h
    · simpa using h
    · split at h
      · rcases List.mem_cons.1 h with h | h
        · exact .inl h
        · exact .inr (List.mem_cons_of_mem _ h)
      · rcases List.mem_cons.1 h with h | h
        · exact .inr (h ▸ List.mem_cons_self)
        · exact (ih h).imp_right (List.mem_cons_of_mem _)

theorem sorted_insertSorted {name value : String} {l : List (String × String)}
    (h : l.Pairwise fun a b => a.1 < b.1) : (insertSorted name value l).Pairwise fun a b => a.1 < b.1 := by
  induction l with
  | nil => simp [insertSorted]
  | cons q rest ih =>
    obtain ⟨n, v⟩ := q
    obtain ⟨hq, hrest⟩ := List.pairwise_cons.1 h
    simp only [insertSorted]
    split
    · next hlt =>
      refine List.pairwise_cons.2 ⟨fun p hp => ?_, h⟩
      rcases List.mem_cons.1 hp with rfl | hp
      · exact hlt
      · exact String.lt_trans hlt (hq p hp)
    · next hge =>
      split
      · next heq => exact List.pairwise_cons.2 ⟨fun p hp => heq ▸ hq p hp, hrest⟩
      · next hne =>
        refine List.pairwise_cons.2 ⟨fun p hp => ?_, ih hrest⟩
        rcases mem_insertSorted hp with rfl | hp
        · exact Std.lt_of_le_of_ne (String.not_lt.1 hge) (Ne.symm hne)
        · exact hq p hp

/-- Parameters of a call: pairs of name and value in strictly increasing order of the names. -/
structure Parameters where
  entries : List (String × String)
  sorted : entries.Pairwise fun a b => a.1 < b.1
  deriving DecidableEq

namespace Parameters

def empty : Parameters := ⟨[], List.Pairwise.nil⟩

instance : Inhabited Parameters := ⟨empty⟩

/-- Set a parameter, in place of an earlier value of that name. -/
def insert (ps : Parameters) (name value : String) : Parameters :=
  ⟨insertSorted name value ps.entries, sorted_insertSorted ps.sorted⟩

def get? (ps : Parameters) (name : String) : Option String :=
  ps.entries.lookup name

def contains (ps : Parameters) (name : String) : Bool :=
  (ps.get? name).isSome

/-- Insert pairs from left to right. -/
def ofList (pairs : List (String × String)) : Parameters :=
  pairs.foldl (fun ps (name, value) => ps.insert name value) empty

end Parameters

end MacroDoc
