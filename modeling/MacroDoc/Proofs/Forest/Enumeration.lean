import Mathlib.Data.List.Induction
import MacroDoc.Proofs.Forest.Nesting

/-!
# A walk enumerates the forest

A walk visits the paths of the forest in their order. The placement of a visit is decided by one block above it, and
what lies inside a block is visited directly after it.

* `Document.Hosts` : the nearest block above a path that is no marker; `Document.placementAt_eq_inline` says that it
  decides the placement;
* `Visit.Encloses` : the blocks that lie strictly inside a visited block, each with its path;
* `Visit.inside` : the visits of these blocks, which follow the visit in a run of their own
  (`Document.infix_walk`);
* `Document.walk_enumerates` : all of it for any forest.
-/

namespace MacroDoc

theorem Block.descend?_singleton (c : Container) (children : List Block) (i : Nat) :
    (Block.node c children).descend? [i] = children[i]? := by
  rw [descend?_node_cons]
  cases children[i]? <;> rfl

/-! ## The block that decides the placement -/

/-- The container `c` at `a` is the nearest block above `path` that is no marker. -/
structure Document.Hosts (d : Document) (a path : Path) (c : Container) : Prop where
  above : a.isAncestorOf path = true
  container : ∃ children, d.get? a = some (.node c children)
  unmarked : ∀ call, c ≠ .marker call
  between : ∀ b, a.isAncestorOf b = true → b.isAncestorOf path = true → d.Marks b

theorem Container.placementWithin_of_unmarked (c : Container) (hc : ∀ call, c ≠ .marker call)
    (placement : Placement) : c.placementWithin placement = if c.isInline then .inline else .block := by
  cases c with
  | marker call => exact absurd rfl (hc call)
  | _ => rfl

/-- What is above a child is its parent, or above that. -/
theorem Path.isAncestorOf_child {a p : Path} {i : Nat} :
    a.isAncestorOf (p.child i) = true ↔ a = p ∨ a.isAncestorOf p = true := by
  constructor
  · intro h
    obtain ⟨r, hr, hpath⟩ := Path.isAncestorOf_iff.1 h
    obtain ⟨s, j, rfl⟩ := r.eq_nil_or_concat.resolve_left hr
    obtain ⟨hp, -⟩ : p.indices = a.indices ++ s ∧ i = j := by
      rw [Path.child, List.concat_eq_append, ← List.append_assoc] at hpath
      simpa using List.append_inj' hpath rfl
    by_cases hs : s = []
    · left
      cases a
      cases p
      simpa [hs] using hp.symm
    · exact .inr (Path.isAncestorOf_iff.2 ⟨s, hs, hp⟩)
  · have hchild : p.isAncestorOf (p.child i) = true := Path.isAncestorOf_iff.2 ⟨[i], by simp, rfl⟩
    rintro (rfl | h)
    · exact hchild
    · exact Path.isAncestorOf_trans h hchild

namespace Document

variable {d : Document} {a p path : Path} {c : Container} {children : List Block}

theorem Hosts.of_parent (hp : d.get? p = some (.node c children)) (hc : ∀ call, c ≠ .marker call) (i : Nat) :
    d.Hosts p (p.child i) c where
  above := Path.isAncestorOf_child.2 (.inl rfl)
  container := ⟨children, hp⟩
  unmarked := hc
  between b hpb hb := by
    rcases Path.isAncestorOf_child.1 hb with rfl | hbp
    · rw [Path.isAncestorOf_irrefl] at hpb
      cases hpb
    · have hself := Path.isAncestorOf_trans hpb hbp
      rw [Path.isAncestorOf_irrefl] at hself
      cases hself

theorem Hosts.eq_parent (hp : d.get? p = some (.node c children)) (hc : ∀ call, c ≠ .marker call) {i : Nat}
    {c' : Container} (h : d.Hosts a (p.child i) c') : c' = c := by
  rcases Path.isAncestorOf_child.1 h.above with rfl | hanc
  · obtain ⟨children', hsame⟩ := h.container
    rw [hp] at hsame
    cases hsame
    rfl
  · obtain ⟨call, children', hmarker⟩ := h.between p hanc (Path.isAncestorOf_child.2 (.inl rfl))
    rw [hp] at hmarker
    cases hmarker
    exact absurd rfl (hc call)

/-- The children of a marker have the host that the marker has. -/
theorem hosts_child_of_marks (hp : d.Marks p) (i : Nat) : d.Hosts a (p.child i) c ↔ d.Hosts a p c := by
  constructor
  · intro h
    refine ⟨?_, h.container, h.unmarked, fun b hab hbp => h.between b hab (Path.isAncestorOf_child.2 (.inr hbp))⟩
    rcases Path.isAncestorOf_child.1 h.above with rfl | hanc
    · obtain ⟨children, hsame⟩ := h.container
      obtain ⟨call, children', hmarker⟩ := hp
      rw [hsame] at hmarker
      cases hmarker
      exact absurd rfl (h.unmarked call)
    · exact hanc
  · intro h
    refine ⟨Path.isAncestorOf_child.2 (.inr h.above), h.container, h.unmarked, fun b hab hb => ?_⟩
    rcases Path.isAncestorOf_child.1 hb with rfl | hbp
    · exact hp
    · exact h.between b hab hbp

theorem not_hosts_top (i : Nat) : ¬ d.Hosts a ⟨[i]⟩ c := by
  intro h
  obtain ⟨children, ha⟩ := h.container
  have habove : a.isAncestorOf ((⟨[]⟩ : Path).child i) = true := h.above
  rcases Path.isAncestorOf_child.1 habove with rfl | hanc
  · simp at ha
  · obtain ⟨r, hr, hnil⟩ := Path.isAncestorOf_iff.1 hanc
    exact hr (List.append_eq_nil_iff.1 hnil.symm).2

theorem exists_parent (hp : p.indices ≠ []) {i : Nat} (h : (d.get? (p.child i)).isSome) :
    ∃ c children, d.get? p = some (.node c children) ∧ (children[i]?).isSome := by
  obtain ⟨c, children, hnode⟩ := exists_node_of_isAncestorOf (Path.isAncestorOf_child.2 (.inl rfl)) hp h
  have hget : d.get? (p.child i) = children[i]? := by
    rw [Path.child, get?_append d hp, hnode]
    exact Block.descend?_singleton c children i
  exact ⟨c, children, hnode, hget ▸ h⟩

theorem placementAt_child (hp : d.get? p = some (.node c children)) {i : Nat} (hi : (children[i]?).isSome) :
    d.placementAt (p.child i) = c.placementWithin (d.placementAt p) := by
  obtain ⟨child, hchild⟩ := Option.isSome_iff_exists.1 hi
  rw [Path.child, placementAt_append hp]
  simp [Block.placementAt, hchild]

theorem placementAt_top (d : Document) (i : Nat) : d.placementAt ⟨[i]⟩ = .block := by
  simp only [placementAt]
  cases d.blocks[i]? <;> simp [Block.placementAt]

/-- A block stands inline exactly if the nearest block above it that is no marker holds inline text. -/
theorem placementAt_eq_inline (hpath : (d.get? path).isSome) :
    d.placementAt path = .inline ↔ ∃ a c, d.Hosts a path c ∧ c.isInline = true := by
  obtain ⟨indices⟩ := path
  -- From the root downwards: a marker passes on what holds for itself, any other container decides.
  induction indices using List.reverseRecOn with
  | nil => simp at hpath
  | append_singleton p i ih =>
    by_cases hp : p = []
    · subst hp
      rw [List.nil_append, placementAt_top]
      simp only [reduceCtorEq, false_iff]
      rintro ⟨a, c, hosts, -⟩
      exact not_hosts_top i hosts
    · obtain ⟨c, children, hnode, hi⟩ := exists_parent (p := ⟨p⟩) hp hpath
      have hplace : d.placementAt ⟨p ++ [i]⟩ = c.placementWithin (d.placementAt ⟨p⟩) := placementAt_child hnode hi
      by_cases hc : ∃ call, c = .marker call
      · obtain ⟨call, rfl⟩ := hc
        have hmarks : d.Marks ⟨p⟩ := ⟨call, children, hnode⟩
        have hsame : d.placementAt ⟨p ++ [i]⟩ = d.placementAt ⟨p⟩ := hplace
        rw [hsame, ih (by rw [hnode]; rfl)]
        exact exists₂_congr fun a c => and_congr_left fun _ => (hosts_child_of_marks hmarks i).symm
      · have hc : ∀ call, c ≠ .marker call := fun call heq => hc ⟨call, heq⟩
        rw [hplace, c.placementWithin_of_unmarked hc]
        constructor
        · intro h
          refine ⟨⟨p⟩, c, .of_parent hnode hc i, ?_⟩
          by_contra hblock
          simp [hblock] at h
        · rintro ⟨a, c', hosts, hinline⟩
          obtain rfl := Hosts.eq_parent hnode hc hosts
          rw [if_pos hinline]

end Document

/-! ## What lies inside a block -/

/-- The blocks that lie strictly inside the block of a visit, with their paths: its children, and the children of
these blocks. -/
inductive Visit.Encloses (v : Visit) : Path → Block → Prop where
  | child {c : Container} {children : List Block} {i : Nat} {b : Block} (parent : v.block = .node c children)
      (here : children[i]? = some b) : Encloses v (v.path.child i) b
  | deeper {q : Path} {c : Container} {children : List Block} {i : Nat} {b : Block}
      (parent : Encloses v q (.node c children)) (here : children[i]? = some b) : Encloses v (q.child i) b

/-- A block inside another one is where a path leads down from that. -/
theorem Visit.encloses_iff {v : Visit} {q : Path} {b : Block} :
    v.Encloses q b ↔ ∃ r, r ≠ [] ∧ q.indices = v.path.indices ++ r ∧ v.block.descend? r = some b := by
  constructor
  · intro h
    induction h with
    | @child c children i b parent here => exact ⟨[i], by simp, rfl, by simp [parent, here]⟩
    | @deeper q c children i b parent here ih =>
      obtain ⟨r, hr, hq, hdescend⟩ := ih
      refine ⟨r ++ [i], by simp, by simp [Path.child, hq], ?_⟩
      rw [Block.descend?_append, hdescend]
      simp [here]
  · rintro ⟨r, hr, hq, hdescend⟩
    obtain ⟨q⟩ := q
    simp only at hq
    subst hq
    induction r using List.reverseRecOn generalizing b with
    | nil => exact absurd rfl hr
    | append_singleton r i ih =>
      rw [Block.descend?_append] at hdescend
      obtain ⟨outer, houter, hinner⟩ := Option.bind_eq_some_iff.1 hdescend
      cases outer with
      | leaf l => simp at hinner
      | node c children =>
        have hchild : children[i]? = some b := by rwa [Block.descend?_singleton] at hinner
        rw [← List.append_assoc]
        by_cases hnil : r = []
        · subst hnil
          have hparent : v.block = .node c children := by simpa using houter
          rw [List.append_nil]
          exact .child hparent hchild
        · exact .deeper (ih hnil houter) hchild

/-- The visits of the blocks inside the block of a visit. -/
def Visit.inside (v : Visit) : List Visit :=
  match v.block with
  | .leaf _ => []
  | .node c children => walkChildren v.path (c.placementWithin v.placement) 0 children

mutual

theorem infix_walkBlock {path : Path} {placement : Placement} {v : Visit} :
    ∀ b : Block, v ∈ walkBlock path placement b → v :: v.inside <:+: walkBlock path placement b
  | .leaf l, hv => by
    obtain rfl := List.mem_singleton.1 (walkBlock.eq_1 path placement l ▸ hv)
    rw [walkBlock]
    exact List.infix_rfl
  | .node c children, hv => by
    rw [walkBlock] at hv ⊢
    rcases List.mem_cons.1 hv with rfl | hv
    · exact List.infix_rfl
    · exact (infix_walkChildren children hv).trans (List.infix_cons List.infix_rfl)

theorem infix_walkChildren {parent : Path} {placement : Placement} {i : Nat} {v : Visit} :
    ∀ blocks : List Block, v ∈ walkChildren parent placement i blocks →
      v :: v.inside <:+: walkChildren parent placement i blocks
  | [], hv => by simp [walkChildren] at hv
  | b :: blocks, hv => by
    rw [walkChildren] at hv ⊢
    rcases List.mem_append.1 hv with hv | hv
    · exact (infix_walkBlock b hv).trans (List.prefix_append _ _).isInfix
    · exact (infix_walkChildren blocks hv).trans (List.suffix_append _ _).isInfix

end

namespace Document

variable {d : Document} {v w : Visit}

theorem infix_walk (hv : v ∈ d.walk) : v :: v.inside <:+: d.walk :=
  infix_walkChildren d.blocks hv

/-- What a path leads to below a visited block is what it leads to below that path. -/
theorem encloses_of_isAncestorOf (hv : v ∈ d.walk) (hw : w ∈ d.walk) :
    v.path.isAncestorOf w.path = true ↔ v.Encloses w.path w.block := by
  have hvblock := (mem_walk.1 hv).1
  have hwblock := (mem_walk.1 hw).1
  rw [Path.isAncestorOf_iff, Visit.encloses_iff]
  refine exists_congr fun r => and_congr_right fun _ => ?_
  constructor
  · intro hpath
    refine ⟨hpath, ?_⟩
    have hget := get?_append d (ne_nil_of_isSome_get? (by rw [hvblock]; rfl)) r
    rw [← hpath, hvblock, hwblock] at hget
    exact hget.symm
  · exact fun h => h.1

theorem mem_inside (hv : v ∈ d.walk) : w ∈ v.inside ↔ w ∈ d.walk ∧ v.path.isAncestorOf w.path = true := by
  obtain ⟨hvblock, hvplace⟩ := mem_walk.1 hv
  constructor
  · intro hw
    refine ⟨(infix_walk hv).subset (List.mem_cons_of_mem _ hw), ?_⟩
    unfold Visit.inside at hw
    cases hblock : v.block with
    | leaf l => simp [hblock] at hw
    | node c children =>
      rw [hblock] at hw
      obtain ⟨j, q, b, -, hpath, -⟩ := (mem_walkChildren children).1 hw
      exact Path.isAncestorOf_iff.2 ⟨(0 + j) :: q, List.cons_ne_nil _ _, by rw [hpath]⟩
  · rintro ⟨hw, hanc⟩
    obtain ⟨hwblock, hwplace⟩ := mem_walk.1 hw
    obtain ⟨r, hr, hpath, hdescend⟩ := Visit.encloses_iff.1 ((encloses_of_isAncestorOf hv hw).1 hanc)
    obtain ⟨j, q, rfl⟩ := List.exists_cons_of_ne_nil hr
    have hplace : w.placement = v.block.placementAt (j :: q) v.placement := by
      rw [hwplace, hvplace, show w.path = ⟨v.path.indices ++ j :: q⟩ by rw [← hpath], placementAt_append hvblock]
    unfold Visit.inside
    cases hblock : v.block with
    | leaf l => simp [hblock] at hdescend
    | node c children =>
      rw [hblock] at hdescend hplace
      rw [Block.descend?_node_cons] at hdescend
      obtain ⟨b, hb, hbelow⟩ := Option.bind_eq_some_iff.1 hdescend
      refine (mem_walkChildren children).2 ⟨j, q, b, hb, ?_, hbelow, ?_⟩
      · rw [Nat.zero_add, ← hpath]
      · simpa [Block.placementAt, hb] using hplace

/-- The visits below a visit are one run, in the order of the walk. -/
theorem filter_walk_eq_inside (hv : v ∈ d.walk) : d.walk.filter (fun w => v.path.isAncestorOf w.path) = v.inside := by
  have hfilter := d.pairwise_walk.filter fun w => v.path.isAncestorOf w.path
  have hinside := d.pairwise_walk.sublist ((List.sublist_cons_self v v.inside).trans (infix_walk hv).sublist)
  have hnodup {l : List Visit} (h : l.Pairwise fun v w => v.path < w.path) : l.Nodup := by
    refine h.imp fun {v w} hvw heq => ?_
    rw [heq] at hvw
    exact List.lt_irrefl w.path.indices hvw
  refine List.Perm.eq_of_pairwise (fun v w _ _ hvw hwv => ?_) hfilter hinside ?_
  · exact absurd (List.lt_trans hvw hwv) (List.lt_irrefl v.path.indices)
  · refine (List.perm_ext_iff_of_nodup (hnodup hfilter) (hnodup hinside)).2 fun w => ?_
    rw [List.mem_filter, mem_inside hv]

end Document

/-! ## The whole walk -/

/-- A walk of any forest: the paths increase strictly, and they are the paths at which a block stands. A visit has the
block at its path, and it is inline exactly if the nearest block above that is no marker exists and holds inline text.
What is below the path of a visit is what lies strictly inside its block, and the visits of these blocks are one run
that follows it directly. -/
theorem Document.walk_enumerates (d : Document) :
    d.walk.Pairwise (fun v w => v.path < w.path) ∧
    (∀ path, (∃ v ∈ d.walk, v.path = path) ↔ (d.get? path).isSome) ∧
    ∀ v ∈ d.walk,
      d.get? v.path = some v.block ∧
      (v.placement = .inline ↔ ∃ a c, d.Hosts a v.path c ∧ c.isInline = true) ∧
      (∀ w ∈ d.walk, v.path.isAncestorOf w.path = true ↔ v.Encloses w.path w.block) ∧
      v :: d.walk.filter (fun w => v.path.isAncestorOf w.path) <:+: d.walk := by
  refine ⟨d.pairwise_walk, fun path => ?_, fun v hv => ?_⟩
  · constructor
    · rintro ⟨v, hv, rfl⟩
      rw [(mem_walk.1 hv).1]
      rfl
    · intro hpath
      obtain ⟨b, hb⟩ := Option.isSome_iff_exists.1 hpath
      exact ⟨⟨path, d.placementAt path, b⟩, mem_walk.2 ⟨hb, rfl⟩, rfl⟩
  · obtain ⟨hblock, hplace⟩ := mem_walk.1 hv
    refine ⟨hblock, ?_, fun w hw => encloses_of_isAncestorOf hv hw, ?_⟩
    · rw [hplace]
      exact placementAt_eq_inline (by rw [hblock]; rfl)
    · rw [filter_walk_eq_inside hv]
      exact infix_walk hv

def markedDocument : Document :=
  ⟨[.node .paragraph [.node (.marker ⟨"a", .empty, none⟩) [.leaf (.word "x")], .leaf .space],
    .node (.marker ⟨"b", .empty, none⟩) [.leaf (.word "y")]], 0⟩

/-- The word below the marker in the paragraph stands inline, since the paragraph is the nearest block above it that is
no marker. The visits below the paragraph are the next three. -/
theorem Document.walk_enumerates_marked :
    (∃ v ∈ markedDocument.walk, v.path = ⟨[0, 0, 0]⟩ ∧ v.placement = .inline ∧
      ∃ a c, markedDocument.Hosts a ⟨[0, 0, 0]⟩ c ∧ c.isInline = true) ∧
    ∃ v ∈ markedDocument.walk,
      (markedDocument.walk.filter fun w => v.path.isAncestorOf w.path).map (·.path) =
        [⟨[0, 0]⟩, ⟨[0, 0, 0]⟩, ⟨[0, 1]⟩] ∧
      v :: markedDocument.walk.filter (fun w => v.path.isAncestorOf w.path) <:+: markedDocument.walk := by
  obtain ⟨-, -, hvisits⟩ := markedDocument.walk_enumerates
  constructor
  · have hword : ⟨⟨[0, 0, 0]⟩, .inline, .leaf (.word "x")⟩ ∈ markedDocument.walk := mem_walk.2 ⟨rfl, rfl⟩
    obtain ⟨-, hplace, -⟩ := hvisits _ hword
    exact ⟨_, hword, rfl, rfl, hplace.1 rfl⟩
  · obtain ⟨v, hv, hpath⟩ : ∃ v ∈ markedDocument.walk, v.path = ⟨[0]⟩ :=
      (markedDocument.walk_enumerates.2.1 ⟨[0]⟩).2 rfl
    obtain ⟨-, -, -, hrun⟩ := hvisits v hv
    refine ⟨v, hv, ?_, hrun⟩
    rw [hpath]
    decide +kernel

end MacroDoc
