import MacroDoc.Proofs.Forest.Position

/-!
# Visits of a walk

A walk visits every block of a forest once, in the order of the paths.

* `Document.placementAt` : the placement at a path, which a block put elsewhere does not change
  (`Document.placementAt_set`);
* `Document.mem_walk` : a visit is a path with the block at it and the placement there;
* `Document.pairwise_walk` : the paths of a walk increase strictly;
* `Document.mem_invocations`, `Document.pairwise_invocations`, `Document.nodup_invocations` : the same for
  invocations.
-/

namespace MacroDoc

/-! ## Placements -/

/-- The placement at a path below a block that stands at `placement`. -/
def Block.placementAt : List Nat → Placement → Block → Placement
  | [], placement, _ => placement
  | _ :: _, placement, .leaf _ => placement
  | i :: path, placement, .node c children =>
    (children[i]?).elim placement fun child => placementAt path (c.placementWithin placement) child

def Document.placementAt (d : Document) (path : Path) : Placement :=
  match path.indices with
  | [] => .block
  | i :: path => (d.blocks[i]?).elim .block fun b => b.placementAt path .block

theorem Block.placementAt_append {b b' : Block} {p : List Nat} (h : b.descend? p = some b') (q : List Nat)
    (placement : Placement) :
    b.placementAt (p ++ q) placement = b'.placementAt q (b.placementAt p placement) := by
  induction p generalizing b placement with
  | nil =>
    obtain rfl : b = b' := by simpa using h
    rfl
  | cons i p ih =>
    cases b with
    | leaf l => simp at h
    | node c children =>
      rw [descend?_node_cons] at h
      obtain ⟨child, hchild, hbelow⟩ := Option.bind_eq_some_iff.1 h
      simp only [List.cons_append, placementAt, hchild, Option.elim_some]
      exact ih hbelow _

/-- A block that is put at a path does not move what the path does not cover. -/
theorem Block.placementAt_put {p q : List Nat} (h : ¬ p <+: q) (new b : Block) (placement : Placement) :
    (b.put p new).placementAt q placement = b.placementAt q placement := by
  induction q generalizing p b placement with
  | nil =>
    simp only [placementAt]
  | cons j q ih =>
    cases p with
    | nil => simp at h
    | cons i p =>
      cases b with
      | leaf l => rfl
      | node c children =>
        rw [put_node_cons]
        by_cases hij : i = j
        · subst hij
          have hpq : ¬ p <+: q := fun hp => h (by simpa using hp)
          cases hi : children[i]? <;> simp [placementAt, hi, ih hpq]
        · simp only [placementAt, List.getElem?_modify_ne _ _ hij]

namespace Document

variable {d : Document} {p q : Path}

theorem placementAt_eq_root (d : Document) (p : Path) : d.placementAt p = d.root.placementAt p.indices .block := by
  obtain ⟨_ | ⟨i, p⟩⟩ := p
  · rfl
  · rfl

theorem placementAt_append {b : Block} (h : d.get? p = some b) (q : List Nat) :
    d.placementAt ⟨p.indices ++ q⟩ = b.placementAt q (d.placementAt p) := by
  have hp := ne_nil_of_isSome_get? (by rw [h]; rfl)
  rw [get?_eq_descend? d hp] at h
  rw [placementAt_eq_root, placementAt_eq_root, Block.placementAt_append h]

theorem placementAt_set (h : ¬ p.indices <+: q.indices) (new : Block) :
    (d.set p new).placementAt q = d.placementAt q := by
  rw [placementAt_eq_root, placementAt_eq_root, root_set d (ne_nil_of_apart h), Block.placementAt_put h]

end Document

/-! ## What is visited -/

mutual

theorem mem_walkBlock {path : Path} {placement : Placement} {v : Visit} :
    ∀ b : Block, v ∈ walkBlock path placement b ↔
      ∃ q, v.path = ⟨path.indices ++ q⟩ ∧ b.descend? q = some v.block ∧ v.placement = b.placementAt q placement
  | .leaf l => by
    rw [walkBlock, List.mem_singleton]
    constructor
    · rintro rfl
      exact ⟨[], by simp [Block.placementAt]⟩
    · rintro ⟨_ | ⟨i, q⟩, hpath, hblock, hplacement⟩
      · obtain ⟨vpath, vplacement, vblock⟩ := v
        simp only [List.append_nil, Block.descend?_nil, Option.some.injEq, Block.placementAt] at *
        rw [hpath, hplacement, ← hblock]
      · simp at hblock
  | .node c children => by
    rw [walkBlock, List.mem_cons, mem_walkChildren children]
    constructor
    · rintro (rfl | ⟨j, q, b, hb, hpath, hblock, hplacement⟩)
      · exact ⟨[], by simp [Block.placementAt]⟩
      · exact ⟨j :: q, by simpa using hpath, by simpa [hb] using hblock,
          by simpa [Block.placementAt, hb] using hplacement⟩
    · rintro ⟨_ | ⟨j, q⟩, hpath, hblock, hplacement⟩
      · obtain ⟨vpath, vplacement, vblock⟩ := v
        simp only [List.append_nil, Block.descend?_nil, Option.some.injEq, Block.placementAt] at *
        exact .inl (by rw [hpath, hplacement, ← hblock])
      · cases hb : children[j]? with
        | none => simp [hb] at hblock
        | some b =>
          exact .inr ⟨j, q, b, hb, by simpa using hpath, by simpa [hb] using hblock,
            by simpa [Block.placementAt, hb] using hplacement⟩

theorem mem_walkChildren {parent : Path} {placement : Placement} {i : Nat} {v : Visit} :
    ∀ blocks : List Block, v ∈ walkChildren parent placement i blocks ↔
      ∃ j q b, blocks[j]? = some b ∧ v.path = ⟨parent.indices ++ (i + j) :: q⟩ ∧ b.descend? q = some v.block ∧
        v.placement = b.placementAt q placement
  | [] => by simp [walkChildren]
  | b :: blocks => by
    rw [walkChildren, List.mem_append, mem_walkBlock b, mem_walkChildren blocks]
    constructor
    · rintro (⟨q, hpath, h⟩ | ⟨j, q, b', hb, hpath, h⟩)
      · exact ⟨0, q, b, rfl, by simpa [Path.child] using hpath, h⟩
      · exact ⟨j + 1, q, b', by simpa using hb, by rw [hpath, show i + 1 + j = i + (j + 1) by omega], h⟩
    · rintro ⟨_ | j, q, b', hb, hpath, h⟩
      · obtain rfl : b = b' := by simpa using hb
        exact .inl ⟨q, by simpa [Path.child] using hpath, h⟩
      · exact .inr ⟨j, q, b', by simpa using hb, by rw [hpath, show i + 1 + j = i + (j + 1) by omega], h⟩

end

theorem Block.invocation?_eq_some {b : Block} {i : Invocation} :
    b.invocation? = some i ↔ b = .leaf (.invocation i) := by
  cases b with
  | leaf l => cases l <;> simp [Block.invocation?]
  | node c children => simp [Block.invocation?]

/-- A visit is a path with the block at it and the placement there. -/
theorem Document.mem_walk {d : Document} {v : Visit} :
    v ∈ d.walk ↔ d.get? v.path = some v.block ∧ v.placement = d.placementAt v.path := by
  rw [Document.walk, MacroDoc.walk, mem_walkChildren]
  constructor
  · rintro ⟨j, q, b, hb, hpath, hblock, hplacement⟩
    rw [hpath, hplacement]
    simp [Document.get?_cons, Document.placementAt, hb, hblock]
  · rintro ⟨hblock, hplacement⟩
    obtain ⟨⟨_ | ⟨j, q⟩⟩, placement, block⟩ := v
    · simp at hblock
    · rw [Document.get?_cons] at hblock
      cases hb : d.blocks[j]? with
      | none => simp [hb] at hblock
      | some b =>
        exact ⟨j, q, b, hb, by simp, by simpa [hb] using hblock,
          by simpa [Document.placementAt, hb] using hplacement⟩

theorem Document.mem_invocations {d : Document} {i : PlacedInvocation} :
    i ∈ d.invocations ↔
      d.get? i.path = some (.leaf (.invocation i.invocation)) ∧ i.placement = d.placementAt i.path := by
  simp only [Document.invocations, invocationsIn, List.mem_filterMap, Option.map_eq_some_iff]
  constructor
  · rintro ⟨v, hv, j, hj, rfl⟩
    obtain ⟨hblock, hplacement⟩ := Document.mem_walk.1 hv
    exact ⟨by rw [hblock, Block.invocation?_eq_some.1 hj], hplacement⟩
  · rintro ⟨hblock, hplacement⟩
    exact ⟨⟨i.path, i.placement, _⟩, Document.mem_walk.2 ⟨hblock, hplacement⟩, i.invocation, rfl, rfl⟩

theorem Document.mem_invocations_of_get? {d : Document} {path : Path} {i : Invocation}
    (h : d.get? path = some (.leaf (.invocation i))) : ⟨path, d.placementAt path, i⟩ ∈ d.invocations :=
  Document.mem_invocations.2 ⟨h, rfl⟩

/-! ## The order of visits -/

/-- What comes first after a common start decides the order of paths. -/
theorem Path.lt_of_append {path p q : List Nat} (h : p < q) : (⟨path ++ p⟩ : Path) < ⟨path ++ q⟩ :=
  List.append_left_lt h

mutual

theorem pairwise_walkBlock {path : Path} {placement : Placement} :
    ∀ b : Block, (walkBlock path placement b).Pairwise fun v w => v.path < w.path
  | .leaf l => by simp [walkBlock]
  | .node c children => by
    rw [walkBlock, List.pairwise_cons]
    refine ⟨fun v hv => ?_, pairwise_walkChildren children⟩
    obtain ⟨j, q, b, -, hpath, -⟩ := (mem_walkChildren children).1 hv
    have hlt : (⟨path.indices ++ []⟩ : Path) < ⟨path.indices ++ (0 + j) :: q⟩ :=
      Path.lt_of_append (List.nil_lt_cons _ _)
    rw [hpath]
    simpa using hlt

theorem pairwise_walkChildren {parent : Path} {placement : Placement} {i : Nat} :
    ∀ blocks : List Block, (walkChildren parent placement i blocks).Pairwise fun v w => v.path < w.path
  | [] => by simp [walkChildren]
  | b :: blocks => by
    rw [walkChildren, List.pairwise_append]
    refine ⟨pairwise_walkBlock b, pairwise_walkChildren blocks, ?_⟩
    intro v hv w hw
    obtain ⟨q, hv, -⟩ := (mem_walkBlock b).1 hv
    obtain ⟨j, r, -, -, hw, -⟩ := (mem_walkChildren blocks).1 hw
    rw [hv, hw, Path.child, List.append_assoc]
    exact Path.lt_of_append (List.cons_lt_cons_iff.2 (.inl (by omega)))

end

theorem Document.pairwise_walk (d : Document) : d.walk.Pairwise fun v w => v.path < w.path :=
  pairwise_walkChildren d.blocks

theorem Document.pairwise_invocations (d : Document) : d.invocations.Pairwise fun i j => i.path < j.path := by
  refine List.pairwise_filterMap.2 (d.pairwise_walk.imp fun hlt i hi j hj => ?_)
  obtain ⟨-, -, rfl⟩ := Option.map_eq_some_iff.1 hi
  obtain ⟨-, -, rfl⟩ := Option.map_eq_some_iff.1 hj
  exact hlt

theorem Document.nodup_invocations (d : Document) : (d.invocations.map (·.path)).Nodup := by
  refine List.pairwise_map.2 (d.pairwise_invocations.imp fun {i j} hlt heq => ?_)
  rw [heq] at hlt
  exact List.lt_irrefl j.path.indices hlt

end MacroDoc
