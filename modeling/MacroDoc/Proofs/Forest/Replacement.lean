import MacroDoc.Proofs.Forest.Marking

/-!
# Replacing a block

A replacement at a path is a lawful update: it returns what stood there, changes that and nothing else, and can be
taken back.

* `Document.replace?_eq` : the block that stood at the path, and the document with the new one there;
* `Document.set_of_none`, `Document.set_set` : nothing is put where nothing stands, and what is put last stays;
* `Document.Replaces` : what stands at each path after a block has been replaced;
* `Document.replace?_lawful` : all laws of a replacement.
-/

namespace MacroDoc

theorem Block.descend?_eq_getAt? (b : Block) {path : List Nat} (h : path ≠ []) :
    b.descend? path = getAt? path b.children := by
  obtain ⟨i, path, rfl⟩ := List.exists_cons_of_ne_nil h
  rw [getAt?_cons, descend?]

theorem Path.not_covers_of_isAncestorOf {p q : Path} (h : q.isAncestorOf p = true) : ¬ p.indices <+: q.indices := by
  obtain ⟨r, hr, hp⟩ := Path.isAncestorOf_iff.1 h
  intro hpq
  have hlength := hpq.length_le
  rw [hp, List.length_append] at hlength
  exact hr (List.length_eq_zero_iff.1 (by omega))

theorem Path.covers_iff {p q : Path} : q.indices <+: p.indices ↔ q = p ∨ q.isAncestorOf p = true := by
  rw [Path.isAncestorOf_iff]
  constructor
  · rintro ⟨r, hr⟩
    by_cases hnil : r = []
    · left
      cases p
      cases q
      simpa [hnil] using hr
    · exact .inr ⟨r, hnil, hr.symm⟩
  · rintro (rfl | ⟨r, -, hr⟩)
    · exact List.prefix_rfl
    · exact ⟨r, hr.symm⟩

namespace Document

variable {d : Document} {p : Path} {old : Block}

/-! ## One path -/

theorem set_of_none (h : d.get? p = none) (new : Block) : d.set p new = d := by
  by_cases hp : p.indices = []
  · obtain ⟨p⟩ := p
    subst hp
    rw [set_nil]
  · rw [get?_eq_descend? d hp] at h
    apply eq_of_root
    · rw [root_set d hp, Block.put_of_none h]
    · rw [sourceId_set]

/-- A replacement succeeds exactly if a block stands at the path, and returns that block. -/
theorem replace?_eq (d : Document) (p : Path) (new : Block) :
    d.replace? p new = (d.get? p).map fun old => (old, d.set p new) := by
  obtain ⟨_ | ⟨i, path⟩⟩ := p
  · rfl
  · cases h : d.get? ⟨i :: path⟩ with
    | none =>
      simp only [get?] at h
      simp [replace?, replaceAt?, h]
    | some old =>
      simp only [get?] at h
      simp [set, replace?, replaceAt?, modifyAt?_const_cons, h]

theorem set_set (d : Document) (p : Path) (new last : Block) : (d.set p new).set p last = d.set p last := by
  by_cases hp : p.indices = []
  · obtain ⟨p⟩ := p
    subst hp
    rfl
  · apply eq_of_root
    · rw [root_set _ hp, root_set _ hp, root_set _ hp, Block.put_put]
    · simp only [sourceId_set]

/-! ## All paths -/

/-- `d'` is `d` with `new` in the place of the block `old` at `p`. A path that `p` does not cover is there if it was
there before. Above `p` a block keeps its kind, its own data and the number of its children; at any other path it is
the same. -/
structure Replaces (d : Document) (p : Path) (old new : Block) (d' : Document) : Prop where
  sourceId : d'.sourceId = d.sourceId
  before : d.get? p = some old
  here : d'.get? p = some new
  below : ∀ q, q ≠ [] → d'.get? ⟨p.indices ++ q⟩ = getAt? q new.children
  exists_iff : ∀ q, ¬ p.indices <+: q.indices → ((d'.get? q).isSome ↔ (d.get? q).isSome)
  above : ∀ q, q.isAncestorOf p = true → (d'.get? q).map Block.shape = (d.get? q).map Block.shape
  apart : ∀ q, ¬ p.indices <+: q.indices → q.isAncestorOf p = false → d'.get? q = d.get? q

theorem replaces_set (h : d.get? p = some old) (new : Block) : d.Replaces p old new (d.set p new) where
  sourceId := sourceId_set d p new
  before := h
  here := get?_set_self (Option.isSome_of_eq_some h) new
  below q hq := by rw [get?_set_append (Option.isSome_of_eq_some h), Block.descend?_eq_getAt? new hq]
  exists_iff q hq := by
    have hshape := congrArg Option.isSome (shape_get?_set (d := d) hq new)
    rw [Option.isSome_map, Option.isSome_map] at hshape
    rw [hshape]
  above q hq := shape_get?_set (Path.not_covers_of_isAncestorOf hq) new
  apart q hq hanc := by
    refine get?_set_of_apart hq ?_ new
    rintro hqp
    rcases Path.covers_iff.1 hqp with rfl | habove
    · exact hq List.prefix_rfl
    · rw [habove] at hanc
      cases hanc

/-- A replacement at a path fails and changes nothing if no block stands there. Otherwise it returns the old block, which
the new one replaces; a second replacement returns the new block and leaves what it would have left at once, so that
putting the old block back restores the document. Replacements at paths that do not cover each other commute: each
returns what it returns alone, and in either order they leave the same document. -/
theorem replace?_lawful (d : Document) (p : Path) (new : Block) :
    (d.get? p = none → d.replace? p new = none ∧ d.set p new = d) ∧
    (∀ old, d.get? p = some old →
      d.replace? p new = some (old, d.set p new) ∧ d.Replaces p old new (d.set p new) ∧
      (∀ last, (d.set p new).replace? p last = some (new, d.set p last)) ∧
      (d.set p new).replace? p old = some (new, d)) ∧
    ∀ q other, ¬ p.indices <+: q.indices → ¬ q.indices <+: p.indices →
      (d.set p new).replace? q other = (d.replace? q other).map fun (old, e) => (old, e.set p new) := by
  refine ⟨fun h => ?_, fun old h => ?_, fun q other hpq hqp => ?_⟩
  · exact ⟨by rw [replace?_eq, h]; rfl, set_of_none h new⟩
  · have hagain (last : Block) : (d.set p new).replace? p last = some (new, d.set p last) := by
      rw [replace?_eq, get?_set_self (Option.isSome_of_eq_some h), set_set]
      rfl
    have hback : d.set p old = d := by rw [← set_set d p new, set_back h]
    exact ⟨by rw [replace?_eq, h]; rfl, replaces_set h new, hagain, by rw [hagain, hback]⟩
  · rw [replace?_eq, replace?_eq, get?_set_of_apart hpq hqp, Option.map_map, set_comm hqp hpq]
    rfl

/-- In a document with a marker in a paragraph, the word below the marker is replaced and put back. Nothing stands at a
path below the word, and replacing the marker at top level is not affected. -/
theorem replace?_lawful_marked :
    let d : Document := ⟨[.node .paragraph [.node (.marker ⟨"a", .empty, none⟩) [.leaf (.word "x")], .leaf .space],
      .node (.marker ⟨"b", .empty, none⟩) [.leaf (.word "y")]], 0⟩
    let p : Path := ⟨[0, 0, 0]⟩
    let new : Block := .node .group [.leaf .newLine]
    d.get? p = some (.leaf (.word "x")) ∧ (d.set p new).get? ⟨[0, 0, 0, 0]⟩ = some (.leaf .newLine) ∧
      (d.set p new).replace? p (.leaf (.word "x")) = some (new, d) ∧
      d.get? ⟨[0, 0, 0, 0]⟩ = none ∧ d.set ⟨[0, 0, 0, 0]⟩ new = d ∧
      (d.set p new).replace? ⟨[1]⟩ new = (d.replace? ⟨[1]⟩ new).map fun (old, e) => (old, e.set p new) := by
  intro d p new
  have hword : d.get? p = some (.leaf (.word "x")) := rfl
  have hnone : d.get? ⟨[0, 0, 0, 0]⟩ = none := rfl
  obtain ⟨-, hreplaces, -, hback⟩ := (replace?_lawful d p new).2.1 _ hword
  refine ⟨hword, ?_, hback, hnone, ((replace?_lawful d ⟨[0, 0, 0, 0]⟩ new).1 hnone).2, ?_⟩
  · exact hreplaces.below [0] (by decide)
  · exact (replace?_lawful d p new).2.2 ⟨[1]⟩ new (by decide) (by decide)

end Document

end MacroDoc
