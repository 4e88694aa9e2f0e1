import MacroDoc.Proofs.Forest.Visit

/-!
# Invocations that become markers

All that a run ever does to a document is to replace invocations by markers of their calls, one after the other.

* `Marked` : such a sequence of replacements; `Marked.of_foldl` gives it for any invocations of a document;
* `Document.Extends` : all else stays, at the paths where it was; every `Marked` document extends the one before it
  (`Marked.extends`);
* `Marked.get?_append_of_mem`, `Marked.eq_invocation` : what stands at the markers and below them, and which
  invocations are left; `Marked.get?_of_quiet` : a block without invocations stays.
-/

namespace MacroDoc

/-! ## Paths that cover others -/

theorem Path.isAncestorOf_iff {p q : Path} :
    p.isAncestorOf q = true ↔ ∃ r, r ≠ [] ∧ q.indices = p.indices ++ r := by
  simp only [Path.isAncestorOf, Bool.and_eq_true, decide_eq_true_eq, List.isPrefixOf_iff_prefix]
  constructor
  · rintro ⟨hlen, r, hr⟩
    refine ⟨r, ?_, hr.symm⟩
    rintro rfl
    simp [← hr] at hlen
  · rintro ⟨r, hr, hq⟩
    refine ⟨?_, r, hq.symm⟩
    simpa [hq, List.length_pos_iff] using hr

theorem Path.apart_append {p q : List Nat} (h : ¬ p <+: q) (h' : ¬ q <+: p) (r : List Nat) :
    ¬ q <+: p ++ r ∧ ¬ p ++ r <+: q := by
  constructor
  · intro hq
    rcases List.prefix_or_prefix_of_prefix hq (List.prefix_append p r) with hqp | hpq
    · exact h' hqp
    · exact h hpq
  · intro hp
    exact h ((List.prefix_append p r).trans hp)

/-! ## Replacements -/

/-- `d'` is `d` with the invocations at `paths` replaced, one after the other, by markers of their calls. The blocks
below a marker are related by `R` to its path and its invocation. -/
inductive Marked (R : Path → Invocation → List Block → Prop) : List Path → Document → Document → Prop where
  | nil (d : Document) : Marked R [] d d
  | cons {p : Path} {i : Invocation} {children : List Block} {paths : List Path} {d d' : Document}
      (here : d.get? p = some (.leaf (.invocation i))) (below : R p i children)
      (rest : Marked R paths (d.set p (.node (.marker i.call) children)) d') : Marked R (p :: paths) d d'

def Document.Invokes (d : Document) (p : Path) : Prop :=
  ∃ i, d.get? p = some (.leaf (.invocation i))

theorem Document.invokes_of_mem {d : Document} {i : PlacedInvocation} (h : i ∈ d.invocations) : d.Invokes i.path :=
  ⟨i.invocation, (Document.mem_invocations.1 h).1⟩

/-- Putting a block at one invocation leaves the other invocations where they are. -/
theorem Document.Invokes.set {d : Document} {p q : Path} (hq : d.Invokes q) (hp : d.Invokes p) (hne : p ≠ q)
    (new : Block) : (d.set p new).Invokes q := by
  obtain ⟨i, hi⟩ := hq
  obtain ⟨j, hj⟩ := hp
  exact ⟨i, (get?_set_eq_leaf (apart_of_leaves hj hi hne) new _).2 hi⟩

/-- An invocation covers no other path of its document. -/
theorem Document.Invokes.not_covers {d : Document} {p q : Path} (hp : d.Invokes p) (hq : (d.get? q).isSome)
    (hne : p ≠ q) : ¬ p.indices <+: q.indices := by
  obtain ⟨i, hi⟩ := hp
  intro hpq
  exact hne (eq_of_get?_leaf hi hpq hq).symm

theorem Document.Invokes.isAncestorOf_eq_false {d : Document} {p q : Path} (hp : d.Invokes p)
    (hq : (d.get? q).isSome) : p.isAncestorOf q = false := by
  rw [Bool.eq_false_iff]
  intro hanc
  obtain ⟨r, hr, hpre⟩ := Path.isAncestorOf_iff.1 hanc
  refine hp.not_covers hq ?_ ⟨r, hpre.symm⟩
  rintro rfl
  exact hr (List.append_right_eq_self.1 hpre.symm)

namespace Marked

variable {R : Path → Invocation → List Block → Prop} {paths : List Path} {d d' : Document}

/-- Any invocations of a document can be replaced one after the other. -/
theorem of_foldl {α : Type} {path : α → Path} {invocation : α → Invocation} {children : α → List Block} {xs : List α}
    (hinv : ∀ x ∈ xs, d.get? (path x) = some (.leaf (.invocation (invocation x))))
    (hR : ∀ x ∈ xs, R (path x) (invocation x) (children x)) (hnodup : (xs.map path).Nodup) :
    Marked R (xs.map path) d
      (xs.foldl (fun d x => d.set (path x) (.node (.marker (invocation x).call) (children x))) d) := by
  induction xs generalizing d with
  | nil => exact .nil d
  | cons x xs ih =>
    obtain ⟨hfresh, hnodup⟩ := List.nodup_cons.1 hnodup
    have hx := hinv x List.mem_cons_self
    refine .cons hx (hR x List.mem_cons_self) (ih ?_ (fun y hy => hR y (List.mem_cons_of_mem _ hy)) hnodup)
    intro y hy
    have hy' := hinv y (List.mem_cons_of_mem _ hy)
    have hne : path x ≠ path y := by
      intro heq
      exact hfresh (List.mem_map.2 ⟨y, hy, heq.symm⟩)
    exact (Document.get?_set_eq_leaf (Document.apart_of_leaves hx hy' hne) _ _).2 hy'

theorem get?_eq_leaf (h : Marked R paths d d') {q : Path} (hq : ∀ p ∈ paths, ¬ p.indices <+: q.indices) (l : Leaf) :
    d'.get? q = some (.leaf l) ↔ d.get? q = some (.leaf l) := by
  induction h with
  | nil d => rfl
  | cons here below rest ih =>
    rw [ih fun p hp => hq p (List.mem_cons_of_mem _ hp)]
    exact Document.get?_set_eq_leaf (hq _ List.mem_cons_self) _ l

theorem get?_of_apart (h : Marked R paths d d') {q : Path}
    (hq : ∀ p ∈ paths, ¬ p.indices <+: q.indices ∧ ¬ q.indices <+: p.indices) : d'.get? q = d.get? q := by
  induction h with
  | nil d => rfl
  | cons here below rest ih =>
    rw [ih fun p hp => hq p (List.mem_cons_of_mem _ hp)]
    obtain ⟨hpq, hqp⟩ := hq _ List.mem_cons_self
    exact Document.get?_set_of_apart hpq hqp _

/-- A path that no marker covers stays where it stands. -/
theorem placementAt_eq (h : Marked R paths d d') {q : Path} (hq : ∀ p ∈ paths, ¬ p.indices <+: q.indices) :
    d'.placementAt q = d.placementAt q := by
  induction h with
  | nil d => rfl
  | cons here below rest ih =>
    rw [ih fun p hp => hq p (List.mem_cons_of_mem _ hp)]
    exact Document.placementAt_set (hq _ List.mem_cons_self) _

theorem get?_of_quiet (h : Marked R paths d d') {q : Path} {b : Block} (hq : d.get? q = some b)
    (hquiet : ∀ r i, b.descend? r ≠ some (.leaf (.invocation i))) : d'.get? q = some b := by
  induction h with
  | nil d => exact hq
  | @cons p i children paths d d' here below rest ih =>
    have hcovered : ¬ q.indices <+: p.indices := by
      rintro ⟨r, hr⟩
      have hbelow := Document.get?_append d (Document.ne_nil_of_isSome_get? (Option.isSome_of_eq_some hq)) r
      rw [hr, here, hq] at hbelow
      exact hquiet r i hbelow.symm
    have hcovers : ¬ p.indices <+: q.indices := by
      intro hpq
      obtain rfl := Document.eq_of_get?_leaf here hpq (Option.isSome_of_eq_some hq)
      exact hcovered List.prefix_rfl
    exact ih ((Document.get?_set_of_apart hcovers hcovered _).trans hq)

theorem get?_leaf_of_not_mem (h : Marked R paths d d') (hinv : ∀ p ∈ paths, d.Invokes p) {q : Path} {l : Leaf}
    (hq : d.get? q = some (.leaf l)) (hmem : q ∉ paths) : d'.get? q = some (.leaf l) := by
  refine (h.get?_eq_leaf ?_ l).2 hq
  intro p hp
  apply (hinv p hp).not_covers (by simp [hq])
  rintro rfl
  exact hmem hp

/-- An invocation that is not replaced stays, where it stands. -/
theorem mem_invocations_of_not_mem (h : Marked R paths d d') (hinv : ∀ p ∈ paths, d.Invokes p)
    {i : PlacedInvocation} (hi : i ∈ d.invocations) (hmem : i.path ∉ paths) : i ∈ d'.invocations := by
  obtain ⟨hget, hplace⟩ := Document.mem_invocations.1 hi
  refine Document.mem_invocations.2 ⟨h.get?_leaf_of_not_mem hinv hget hmem, ?_⟩
  rw [hplace, h.placementAt_eq fun p hp => ?_]
  refine (hinv p hp).not_covers (by rw [hget]; rfl) fun heq => ?_
  exact hmem (heq ▸ hp)

/-- A marker that stands for an invocation of the document from before keeps its call and all that is below it. -/
theorem get?_append_of_mem (h : Marked R paths d d') (hinv : ∀ p ∈ paths, d.Invokes p) (hnodup : paths.Nodup)
    {p : Path} (hp : p ∈ paths) :
    ∃ i children, d.get? p = some (.leaf (.invocation i)) ∧ R p i children ∧
      ∀ r, d'.get? ⟨p.indices ++ r⟩ = (Block.node (.marker i.call) children).descend? r := by
  induction h with
  | nil d => cases hp
  | @cons p₀ i children paths d d' here below rest ih =>
    obtain ⟨hfresh, hnodup⟩ := List.nodup_cons.1 hnodup
    have hother : ∀ q ∈ paths, p₀ ≠ q ∧ d.Invokes q := fun q hq =>
      ⟨fun heq => hfresh (heq ▸ hq), hinv q (List.mem_cons_of_mem _ hq)⟩
    rcases List.mem_cons.1 hp with rfl | hp
    · refine ⟨i, children, here, below, ?_⟩
      intro r
      rw [rest.get?_of_apart fun q hq => ?_]
      · exact Document.get?_set_append (by simp [here]) _ r
      · obtain ⟨hne, j, hj⟩ := hother q hq
        exact Path.apart_append (Document.apart_of_leaves here hj hne)
          (Document.apart_of_leaves hj here (Ne.symm hne)) r
    · obtain ⟨j, childrenj, hj, hR, hbelow⟩ :=
        ih (fun q hq => (hother q hq).2.set ⟨i, here⟩ (hother q hq).1 _) hnodup hp
      obtain ⟨hne, k, hk⟩ := hother p hp
      exact ⟨j, childrenj, (Document.get?_set_eq_leaf (Document.apart_of_leaves here hk hne) _ _).1 hj, hR, hbelow⟩

/-- An invocation that is there afterwards was there before and is not replaced, or stands below a marker. -/
theorem eq_invocation (h : Marked R paths d d') (hinv : ∀ p ∈ paths, d.Invokes p) (hnodup : paths.Nodup)
    {q : Path} {j : Invocation} (hq : d'.get? q = some (.leaf (.invocation j))) :
    (q ∉ paths ∧ d.get? q = some (.leaf (.invocation j))) ∨
      ∃ p ∈ paths, p.isAncestorOf q = true ∧ ∃ i children r, R p i children ∧ q.indices = p.indices ++ r ∧
        (Block.node (.marker i.call) children).descend? r = some (.leaf (.invocation j)) := by
  by_cases hcover : ∃ p ∈ paths, p.indices <+: q.indices
  · obtain ⟨p, hp, r, hr⟩ := hcover
    obtain ⟨i, children, -, hR, hbelow⟩ := h.get?_append_of_mem hinv hnodup hp
    have hdesc : (Block.node (.marker i.call) children).descend? r = some (.leaf (.invocation j)) := by
      rw [← hbelow r, hr, hq]
    have hne : r ≠ [] := by
      rintro rfl
      simp at hdesc
    exact .inr ⟨p, hp, Path.isAncestorOf_iff.2 ⟨r, hne, hr.symm⟩, i, children, r, hR, hr.symm, hdesc⟩
  · have hcover : ∀ p ∈ paths, ¬ p.indices <+: q.indices := fun p hp hpq => hcover ⟨p, hp, hpq⟩
    exact .inl ⟨fun hmem => hcover q hmem List.prefix_rfl, (h.get?_eq_leaf hcover _).1 hq⟩

end Marked

/-! ## What stays -/

/-- `d'` is `d` except that invocations may have become markers of their calls, with any blocks below them. Every
path stays. -/
structure Document.Extends (d d' : Document) : Prop where
  sourceId : d'.sourceId = d.sourceId
  length_blocks : d'.blocks.length = d.blocks.length
  shape : ∀ p b, d.get? p = some b → b.invocation? = none → ∃ b', d'.get? p = some b' ∧ b'.shape = b.shape
  invocation : ∀ p i, d.get? p = some (.leaf (.invocation i)) →
    d'.get? p = some (.leaf (.invocation i)) ∨ ∃ children, d'.get? p = some (.node (.marker i.call) children)

namespace Document.Extends

variable {d d' d'' : Document}

theorem refl (d : Document) : d.Extends d :=
  ⟨rfl, rfl, fun _ b h _ => ⟨b, h, rfl⟩, fun _ _ h => .inl h⟩

theorem marker (h : d.Extends d') {p : Path} {call : Call} {children : List Block}
    (hp : d.get? p = some (.node (.marker call) children)) :
    ∃ children', d'.get? p = some (.node (.marker call) children') := by
  obtain ⟨b', hb', hshape⟩ := h.shape p _ hp rfl
  obtain ⟨children', rfl, -⟩ := Block.shape_eq_node.1 hshape
  exact ⟨children', hb'⟩

theorem trans (h : d.Extends d') (h' : d'.Extends d'') : d.Extends d'' where
  sourceId := h'.sourceId.trans h.sourceId
  length_blocks := h'.length_blocks.trans h.length_blocks
  shape p b hb hnone := by
    obtain ⟨b', hb', hshape⟩ := h.shape p b hb hnone
    have hnone' : b'.invocation? = none := by
      cases b with
      | leaf l => rw [Block.shape_eq_leaf.1 hshape, hnone]
      | node c children =>
        obtain ⟨children', rfl, -⟩ := Block.shape_eq_node.1 hshape
        rfl
    obtain ⟨b'', hb'', hshape'⟩ := h'.shape p b' hb' hnone'
    exact ⟨b'', hb'', hshape'.trans hshape⟩
  invocation p i hi := by
    rcases h.invocation p i hi with hsame | ⟨children, hmarker⟩
    · exact h'.invocation p i hsame
    · exact .inr (h'.marker hmarker)

theorem isSome_get? (h : d.Extends d') {p : Path} (hp : (d.get? p).isSome) : (d'.get? p).isSome := by
  obtain ⟨b, hb⟩ := Option.isSome_iff_exists.1 hp
  cases hinv : b.invocation? with
  | none =>
    obtain ⟨b', hb', -⟩ := h.shape p b hb hinv
    simp [hb']
  | some i =>
    obtain rfl := Block.invocation?_eq_some.1 hinv
    rcases h.invocation p i hb with hsame | ⟨children, hmarker⟩
    · simp [hsame]
    · simp [hmarker]

theorem set {p : Path} {i : Invocation} (hp : d.get? p = some (.leaf (.invocation i))) (children : List Block) :
    d.Extends (d.set p (.node (.marker i.call) children)) where
  sourceId := Document.sourceId_set d p _
  length_blocks := Document.length_blocks_set d p _
  shape q b hb hnone := by
    have hcover : ¬ p.indices <+: q.indices := by
      intro hpq
      obtain rfl := Document.eq_of_get?_leaf hp hpq (by simp [hb])
      obtain rfl := Option.some.inj (hb.symm.trans hp)
      simp [Block.invocation?] at hnone
    have hshape := Document.shape_get?_set (d := d) hcover (.node (.marker i.call) children)
    rw [hb] at hshape
    exact Option.map_eq_some_iff.1 hshape
  invocation q j hj := by
    by_cases hpq : p = q
    · subst hpq
      obtain ⟨rfl⟩ : i = j := by simpa [hp] using hj
      exact .inr ⟨children, Document.get?_set_self (by simp [hp]) _⟩
    · exact .inl ((Document.get?_set_eq_leaf (Document.apart_of_leaves hp hj hpq) _ _).2 hj)

end Document.Extends

/-- Replacing invocations by markers of their calls keeps all else. -/
theorem Marked.extends {R : Path → Invocation → List Block → Prop} {paths : List Path} {d d' : Document}
    (h : Marked R paths d d') : d.Extends d' := by
  induction h with
  | nil d => exact .refl d
  | cons here below rest ih => exact (Document.Extends.set here _).trans ih

end MacroDoc
