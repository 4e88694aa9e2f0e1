import Mathlib.Data.List.Perm.Subperm
import MacroDoc.Proofs.Forest.MarkerCount

/-!
# Markers above a path

The nesting depth of a path is the number of markers above it.

* `Document.Marks` : a marker stands at a path;
* `Document.markersAbove`, `Document.markerDepth` : the markers above a path, and their number;
* `Document.markerDepth_below` : one level more below a marker, if there are no markers in between;
* `Document.Extends.markerDepth_eq` : the depth of a path never changes;
* `Document.length_le_of_nested` : markers that are nested in each other are no more than their depths allow;
* `Marked.marks_iff` : where markers stand after invocations have become markers.
-/

namespace MacroDoc

def Document.Marks (d : Document) (p : Path) : Prop :=
  ∃ call children, d.get? p = some (.node (.marker call) children)

/-- The paths of the markers above a path, in document order. -/
def Document.markersAbove (d : Document) (path : Path) : List Path :=
  (d.markers.map (·.1)).filter (·.isAncestorOf path)

/-- The number of markers above a path. -/
def Document.markerDepth (d : Document) (path : Path) : Nat :=
  (d.markersAbove path).length

/-! ## Ancestors -/

theorem Path.isAncestorOf_trans {p q r : Path} (h : p.isAncestorOf q = true) (h' : q.isAncestorOf r = true) :
    p.isAncestorOf r = true := by
  obtain ⟨a, ha, hq⟩ := Path.isAncestorOf_iff.1 h
  obtain ⟨b, -, hr⟩ := Path.isAncestorOf_iff.1 h'
  exact Path.isAncestorOf_iff.2 ⟨a ++ b, by simp [ha], by rw [hr, hq, List.append_assoc]⟩

theorem Path.isAncestorOf_irrefl (p : Path) : p.isAncestorOf p = false := by
  simp [Path.isAncestorOf]

theorem Path.ancestors_comparable {p q r : Path} (hp : p.isAncestorOf r = true) (hq : q.isAncestorOf r = true) :
    p.isAncestorOf q = true ∨ p = q ∨ q.isAncestorOf p = true := by
  obtain ⟨a, -, ha⟩ := Path.isAncestorOf_iff.1 hp
  obtain ⟨b, -, hb⟩ := Path.isAncestorOf_iff.1 hq
  have hpr : p.indices <+: r.indices := ⟨a, ha.symm⟩
  have hqr : q.indices <+: r.indices := ⟨b, hb.symm⟩
  have hcover {p q : Path} (h : p.indices <+: q.indices) : p = q ∨ p.isAncestorOf q = true := by
    obtain ⟨t, ht⟩ := h
    by_cases hnil : t = []
    · left
      obtain ⟨p⟩ := p
      obtain ⟨q⟩ := q
      simpa [hnil] using ht
    · exact .inr (Path.isAncestorOf_iff.2 ⟨t, hnil, ht.symm⟩)
  rcases List.prefix_or_prefix_of_prefix hpr hqr with h | h
  · rcases hcover h with heq | hanc
    · exact .inr (.inl heq)
    · exact .inl hanc
  · rcases hcover h with heq | hanc
    · exact .inr (.inl heq.symm)
    · exact .inr (.inr hanc)

namespace Document

variable {d d' : Document} {p path : Path}

theorem isSome_of_marks (h : d.Marks p) : (d.get? p).isSome := by
  obtain ⟨call, children, hp⟩ := h
  rw [hp]
  rfl

theorem exists_node_of_isAncestorOf (hanc : p.isAncestorOf path = true) (hp : p.indices ≠ [])
    (hpath : (d.get? path).isSome) : ∃ c children, d.get? p = some (.node c children) := by
  obtain ⟨r, hr, heq⟩ := Path.isAncestorOf_iff.1 hanc
  have hget : d.get? path = d.get? p >>= Block.descend? r := by
    rw [← get?_append d hp r, ← heq]
  rw [hget] at hpath
  cases hblock : d.get? p with
  | none =>
    rw [hblock] at hpath
    cases hpath
  | some b =>
    cases b with
    | node c children => exact ⟨c, children, rfl⟩
    | leaf l =>
      rw [hblock] at hpath
      exact absurd (Block.eq_nil_of_descend?_leaf hpath) hr

/-! ## The markers above a path -/

theorem mem_paths_markers : p ∈ d.markers.map (·.1) ↔ d.Marks p := by
  simp only [markers, markersIn, List.mem_map, List.mem_filterMap, Option.map_eq_some_iff]
  constructor
  · rintro ⟨_, ⟨v, hv, ⟨call, children⟩, hmarker, rfl⟩, rfl⟩
    refine ⟨call, children, ?_⟩
    show d.get? v.path = _
    rw [(mem_walk.1 hv).1]
    cases hblock : v.block with
    | leaf l => simp [hblock, Block.marker?] at hmarker
    | node c children => cases c <;> simp_all [Block.marker?]
  · rintro ⟨call, children, hp⟩
    exact ⟨(p, call, children), ⟨⟨p, d.placementAt p, _⟩, mem_walk.2 ⟨hp, rfl⟩, (call, children), rfl, rfl⟩, rfl⟩

theorem nodup_paths_markers (d : Document) : (d.markers.map (·.1)).Nodup := by
  have hpairwise : d.markers.Pairwise fun m n => m.1 < n.1 := by
    refine List.pairwise_filterMap.2 (d.pairwise_walk.imp fun hlt m hm n hn => ?_)
    obtain ⟨_, -, rfl⟩ := Option.map_eq_some_iff.1 hm
    obtain ⟨_, -, rfl⟩ := Option.map_eq_some_iff.1 hn
    exact hlt
  refine List.pairwise_map.2 (hpairwise.imp fun {m n} hlt heq => ?_)
  rw [heq] at hlt
  exact List.lt_irrefl n.1.indices hlt

theorem mem_markersAbove : p ∈ d.markersAbove path ↔ d.Marks p ∧ p.isAncestorOf path = true := by
  rw [markersAbove, List.mem_filter, mem_paths_markers]

theorem nodup_markersAbove (d : Document) (path : Path) : (d.markersAbove path).Nodup :=
  d.nodup_paths_markers.filter _

theorem markerDepth_of_markers_nil (h : d.markers = []) (path : Path) : d.markerDepth path = 0 := by
  rw [markerDepth, markersAbove, h]
  rfl

theorem not_marks_of_markers_nil (h : d.markers = []) : ¬ d.Marks p := by
  rw [← mem_paths_markers, h]
  exact List.not_mem_nil

/-- The depth of a path is one more than that of a marker above it, if there are no markers in between. -/
theorem markerDepth_below {m : Path} (hm : d.Marks m) (hpath : m.isAncestorOf path = true)
    (hbetween : ∀ p, m.isAncestorOf p = true → p.isAncestorOf path = true → ¬ d.Marks p) :
    d.markerDepth path = d.markerDepth m + 1 := by
  have hperm : (d.markersAbove path).Perm (m :: d.markersAbove m) := by
    have hfresh : m ∉ d.markersAbove m := by
      rw [mem_markersAbove, Path.isAncestorOf_irrefl]
      exact fun h => Bool.noConfusion h.2
    refine (List.perm_ext_iff_of_nodup (d.nodup_markersAbove path)
      (List.nodup_cons.2 ⟨hfresh, d.nodup_markersAbove m⟩)).2 fun p => ?_
    rw [List.mem_cons, mem_markersAbove, mem_markersAbove]
    constructor
    · rintro ⟨hp, hanc⟩
      rcases Path.ancestors_comparable hanc hpath with habove | rfl | hbelow
      · exact .inr ⟨hp, habove⟩
      · exact .inl rfl
      · exact absurd hp (hbetween p hbelow hanc)
    · rintro (rfl | ⟨hp, hanc⟩)
      · exact ⟨hm, hpath⟩
      · exact ⟨hp, Path.isAncestorOf_trans hanc hpath⟩
  rw [markerDepth, hperm.length_eq, List.length_cons, markerDepth]

/-- Markers stay where they are, and above a path of the document there are no new ones, so that its depth stays. -/
theorem Extends.markerDepth_eq (h : d.Extends d') (hpath : (d.get? path).isSome) :
    d'.markerDepth path = d.markerDepth path := by
  have hperm : (d'.markersAbove path).Perm (d.markersAbove path) := by
    refine (List.perm_ext_iff_of_nodup (d'.nodup_markersAbove path) (d.nodup_markersAbove path)).2 fun p => ?_
    rw [mem_markersAbove, mem_markersAbove]
    refine and_congr_left fun hanc => ⟨?_, ?_⟩
    · rintro ⟨call, children', hp'⟩
      have hne : p.indices ≠ [] := ne_nil_of_isSome_get? (by rw [hp']; rfl)
      obtain ⟨c, children, hp⟩ := exists_node_of_isAncestorOf hanc hne hpath
      obtain ⟨b', hb', hshape⟩ := h.shape p _ hp rfl
      obtain rfl := Option.some.inj (hp'.symm.trans hb')
      obtain ⟨rfl, -⟩ : c = .marker call ∧ _ := by simpa [eq_comm] using hshape
      exact ⟨call, children, hp⟩
    · rintro ⟨call, children, hp⟩
      obtain ⟨children', hp'⟩ := h.marker hp
      exact ⟨call, children', hp'⟩
  exact hperm.length_eq

/-- Markers that are nested in each other are no more than the depth of each of them allows. -/
theorem length_le_of_nested {limit : Nat} (hdepth : ∀ p, d.Marks p → d.markerDepth p < limit) {chain : List Path}
    (hmarks : ∀ p ∈ chain, d.Marks p) (hnested : chain.Pairwise fun p q => p.isAncestorOf q = true) :
    chain.length ≤ limit := by
  rcases chain.eq_nil_or_concat with rfl | ⟨outer, last, rfl⟩
  · exact Nat.zero_le _
  rw [List.concat_eq_append] at hmarks hnested ⊢
  obtain ⟨houter, -, hlast⟩ := List.pairwise_append.1 hnested
  have hnodup : outer.Nodup := by
    refine houter.imp fun {p q} hanc heq => ?_
    rw [heq, Path.isAncestorOf_irrefl] at hanc
    cases hanc
  have hsub : outer ⊆ d.markersAbove last := by
    intro p hp
    exact mem_markersAbove.2 ⟨hmarks p (List.mem_append_left _ hp), hlast p hp last List.mem_cons_self⟩
  have hle : outer.length ≤ d.markerDepth last := (List.Nodup.subperm hnodup hsub).length_le
  have hlt := hdepth last (hmarks last (List.mem_append_right _ List.mem_cons_self))
  rw [List.length_append, List.length_singleton]
  omega

end Document

/-! ## Where new markers stand -/

theorem markerCount_le_of_mem {blocks : List Block} {b : Block} (hb : b ∈ blocks) :
    b.markerCount ≤ markerCount blocks := by
  induction blocks with
  | nil => cases hb
  | cons first rest ih =>
    rw [markerCount_cons]
    rcases List.mem_cons.1 hb with rfl | hb
    · omega
    · have hrest := ih hb
      omega

theorem Block.markerCount_le_of_descend? {b below : Block} {path : List Nat} (h : b.descend? path = some below) :
    below.markerCount ≤ b.markerCount := by
  induction path generalizing b with
  | nil =>
    obtain rfl : b = below := by simpa using h
    exact Nat.le_refl _
  | cons i path ih =>
    cases b with
    | leaf l => simp at h
    | node c children =>
      rw [descend?_node_cons] at h
      obtain ⟨child, hchild, hbelow⟩ := Option.bind_eq_some_iff.1 h
      have hmem := markerCount_le_of_mem (List.mem_of_getElem? hchild)
      have hdown := ih hbelow
      rw [markerCount_node]
      omega

/-- No marker stands below a marker that has none among its children. -/
theorem Block.eq_nil_of_descend?_marker {call call' : Call} {children children' : List Block} {r : List Nat}
    (hcount : MacroDoc.markerCount children = 0)
    (h : (Block.node (.marker call) children).descend? r = some (.node (.marker call') children')) : r = [] := by
  cases r with
  | nil => rfl
  | cons i r =>
    rw [descend?_node_cons] at h
    obtain ⟨child, hchild, hbelow⟩ := Option.bind_eq_some_iff.1 h
    have hmem := markerCount_le_of_mem (List.mem_of_getElem? hchild)
    have hdown := markerCount_le_of_descend? hbelow
    rw [markerCount_node, Container.markerCount] at hdown
    omega

namespace Marked

variable {R : Path → Invocation → List Block → Prop} {paths : List Path} {d d' : Document}

/-- At a path that no marker covers, the shape is as it was. -/
theorem shape_get? (h : Marked R paths d d') {q : Path} (hq : ∀ p ∈ paths, ¬ p.indices <+: q.indices) :
    (d'.get? q).map Block.shape = (d.get? q).map Block.shape := by
  induction h with
  | nil d => rfl
  | cons here below rest ih =>
    rw [ih fun p hp => hq p (List.mem_cons_of_mem _ hp)]
    exact Document.shape_get?_set (hq _ List.mem_cons_self) _

/-- A marker of the new document was there before, or it has taken the place of an invocation, if the blocks below new
markers have none. -/
theorem marks_iff (h : Marked R paths d d') (hinv : ∀ p ∈ paths, d.Invokes p) (hnodup : paths.Nodup)
    (hbelow : ∀ p i children, R p i children → markerCount children = 0) {q : Path} :
    d'.Marks q ↔ d.Marks q ∨ q ∈ paths := by
  constructor
  · rintro ⟨call, children, hq⟩
    by_cases hcover : ∃ p ∈ paths, p.indices <+: q.indices
    · right
      obtain ⟨p, hp, r, hr⟩ := hcover
      obtain ⟨i, below, -, hR, hget⟩ := h.get?_append_of_mem hinv hnodup hp
      have hdescend : (Block.node (.marker i.call) below).descend? r = some (.node (.marker call) children) := by
        rw [← hget r, hr, hq]
      obtain rfl := Block.eq_nil_of_descend?_marker (hbelow p i below hR) hdescend
      obtain rfl : p = q := by
        obtain ⟨p⟩ := p
        obtain ⟨q⟩ := q
        simpa using hr
      exact hp
    · left
      have huncovered : ∀ p ∈ paths, ¬ p.indices <+: q.indices := fun p hp hpq => hcover ⟨p, hp, hpq⟩
      have hshape := h.shape_get? huncovered
      rw [hq] at hshape
      obtain ⟨b, hb, hnode⟩ := Option.map_eq_some_iff.1 hshape.symm
      obtain ⟨children', rfl, -⟩ := Block.shape_eq_node.1 hnode
      exact ⟨call, children', hb⟩
  · rintro (⟨call, children, hq⟩ | hq)
    · obtain ⟨children', hq'⟩ := h.extends.marker hq
      exact ⟨call, children', hq'⟩
    · obtain ⟨i, below, -, -, hget⟩ := h.get?_append_of_mem hinv hnodup hq
      exact ⟨i.call, below, by simpa using hget []⟩

end Marked

end MacroDoc
