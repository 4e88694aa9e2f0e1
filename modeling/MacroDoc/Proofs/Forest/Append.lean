import MacroDoc.Expansion.Run
import MacroDoc.Proofs.Forest.Visit

/-!
# Documents one after the other

In `d ++ e` the blocks of `e` come after those of `d`, and their paths are shifted by the number of these.

* `Path.shift`, `Path.LeadsInto` : the paths of the second document, and those of the first;
* `Document.invocations_append` : the invocations are those of both documents;
* `Document.set_append_left`, `Document.set_append_right` : a block is put into one of them;
* `pendingBelow_append`, `freeze_append` : so the freeze of the whole is that of its parts.
-/

namespace MacroDoc

/-! ## Paths -/

namespace Path

/-- The path of a block when `n` more blocks stand before all others. -/
def shift (n : Nat) : Path → Path
  | ⟨[]⟩ => ⟨[]⟩
  | ⟨i :: path⟩ => ⟨(n + i) :: path⟩

/-- The path leads to one of the first `n` blocks, or below it. -/
def LeadsInto (n : Nat) (p : Path) : Prop :=
  ∃ i path, p = ⟨i :: path⟩ ∧ i < n

theorem shift_cons (n i : Nat) (path : List Nat) : shift n ⟨i :: path⟩ = ⟨(n + i) :: path⟩ := rfl

theorem shift_child (n : Nat) {p : Path} (hp : p.indices ≠ []) (i : Nat) :
    (p.child i).shift n = (p.shift n).child i := by
  obtain ⟨_ | ⟨j, p⟩⟩ := p
  · exact absurd rfl hp
  · rfl

@[simp] theorem isAncestorOf_shift (n : Nat) (p q : Path) :
    (p.shift n).isAncestorOf (q.shift n) = p.isAncestorOf q := by
  have hindex (i j : Nat) : (n + i == n + j) = (i == j) := by
    rw [Bool.eq_iff_iff, beq_iff_eq, beq_iff_eq, Nat.add_left_cancel_iff]
  obtain ⟨_ | ⟨i, p⟩⟩ := p <;> obtain ⟨_ | ⟨j, q⟩⟩ := q <;> simp [shift, isAncestorOf, List.isPrefixOf, hindex]

theorem LeadsInto.isAncestorOf_shift {n : Nat} {p : Path} (h : p.LeadsInto n) (q : Path) :
    p.isAncestorOf (q.shift n) = false := by
  obtain ⟨i, p, rfl, hi⟩ := h
  obtain ⟨_ | ⟨j, q⟩⟩ := q
  · rfl
  · have hne : i ≠ n + j := by omega
    simp [shift, isAncestorOf, List.isPrefixOf, hne]

theorem LeadsInto.shift_isAncestorOf {n m : Nat} {p q : Path} (hp : p.LeadsInto n) (hq : q.LeadsInto m) :
    (q.shift n).isAncestorOf p = false := by
  obtain ⟨i, p, rfl, hi⟩ := hp
  obtain ⟨j, q, rfl, -⟩ := hq
  have hne : n + j ≠ i := by omega
  simp [shift, isAncestorOf, List.isPrefixOf, hne]

/-- What is below markers of both documents and leads into the first is below markers of the first. -/
theorem any_isAncestorOf_append_left {n m : Nat} {markers markers' : List Path}
    (hmarkers' : ∀ q ∈ markers', q.LeadsInto m) {p : Path} (hp : p.LeadsInto n) :
    (markers ++ markers'.map (shift n)).any (·.isAncestorOf p) = markers.any (·.isAncestorOf p) := by
  rw [List.any_append, List.any_map, Bool.or_eq_left_iff_imp, List.any_eq_true]
  rintro ⟨q, hq, hanc⟩
  rw [Function.comp_apply, hp.shift_isAncestorOf (hmarkers' q hq)] at hanc
  cases hanc

theorem any_isAncestorOf_append_right {n : Nat} {markers markers' : List Path}
    (hmarkers : ∀ p ∈ markers, p.LeadsInto n) (q : Path) :
    (markers ++ markers'.map (shift n)).any (·.isAncestorOf (q.shift n)) = markers'.any (·.isAncestorOf q) := by
  have hfirst : markers.any (·.isAncestorOf (q.shift n)) = false := by
    rw [List.any_eq_false]
    intro p hp
    rw [(hmarkers p hp).isAncestorOf_shift, Bool.not_eq_true]
  simp only [List.any_append, hfirst, List.any_map, Function.comp_def, isAncestorOf_shift, Bool.false_or]

end Path

/-! ## Walks -/

def Visit.shift (n : Nat) (v : Visit) : Visit :=
  { v with path := v.path.shift n }

def PlacedInvocation.shift (n : Nat) (i : PlacedInvocation) : PlacedInvocation :=
  { i with path := i.path.shift n }

mutual

theorem walkBlock_shift (n : Nat) {path : Path} (hpath : path.indices ≠ []) (placement : Placement) :
    ∀ b : Block, walkBlock (path.shift n) placement b = (walkBlock path placement b).map (Visit.shift n)
  | .leaf l => by simp [walkBlock, Visit.shift]
  | .node c children => by
    rw [walkBlock, walkBlock, List.map_cons, walkChildren_shift n hpath]
    rfl

theorem walkChildren_shift (n : Nat) {parent : Path} (hparent : parent.indices ≠ []) (placement : Placement) (i : Nat) :
    ∀ blocks : List Block,
      walkChildren (parent.shift n) placement i blocks = (walkChildren parent placement i blocks).map (Visit.shift n)
  | [] => by simp [walkChildren]
  | b :: blocks => by
    have hchild : (parent.child i).indices ≠ [] := List.append_ne_nil_of_right_ne_nil _ (List.cons_ne_nil _ _)
    rw [walkChildren, walkChildren, List.map_append, ← Path.shift_child n hparent, walkBlock_shift n hchild,
      walkChildren_shift n hparent]

end

theorem walkChildren_top_shift (n i : Nat) (placement : Placement) (blocks : List Block) :
    walkChildren ⟨[]⟩ placement (n + i) blocks = (walkChildren ⟨[]⟩ placement i blocks).map (Visit.shift n) := by
  induction blocks generalizing i with
  | nil => simp [walkChildren]
  | cons b blocks ih =>
    have hchild : Path.child ⟨[]⟩ (n + i) = (Path.child ⟨[]⟩ i).shift n := rfl
    have hne : (Path.child ⟨[]⟩ i).indices ≠ [] := List.cons_ne_nil _ _
    rw [walkChildren, walkChildren, List.map_append, hchild, walkBlock_shift n hne, Nat.add_assoc, ih (i + 1)]

theorem walkChildren_append (parent : Path) (placement : Placement) (i : Nat) (as bs : List Block) :
    walkChildren parent placement i (as ++ bs) =
      walkChildren parent placement i as ++ walkChildren parent placement (i + as.length) bs := by
  induction as generalizing i with
  | nil => simp [walkChildren]
  | cons a as ih =>
    rw [List.cons_append, walkChildren, walkChildren, ih, List.append_assoc, List.length_cons, Nat.add_right_comm i 1,
      Nat.add_assoc]

/-! ## Documents -/

theorem modify_append_left {as : List Block} {i : Nat} (hi : i < as.length) (bs : List Block) (f : Block → Block) :
    (as ++ bs).modify i f = as.modify i f ++ bs := by
  rw [List.modify_eq_set, List.modify_eq_set, List.getElem?_append_left hi, List.set_append_left _ _ hi]

theorem modify_append_right (as bs : List Block) (i : Nat) (f : Block → Block) :
    (as ++ bs).modify (as.length + i) f = as ++ bs.modify i f := by
  rw [List.modify_eq_set, List.modify_eq_set, List.getElem?_append_right (Nat.le_add_right _ _),
    List.set_append_right _ _ (Nat.le_add_right _ _), Nat.add_sub_cancel_left]

instance : Append Document :=
  ⟨fun d e => ⟨d.blocks ++ e.blocks, d.sourceId⟩⟩

namespace Document

variable {d : Document} {p : Path}

@[simp] theorem blocks_append (d e : Document) : (d ++ e).blocks = d.blocks ++ e.blocks := rfl

@[simp] theorem sourceId_append (d e : Document) : (d ++ e).sourceId = d.sourceId := rfl

theorem invocations_append (d e : Document) :
    (d ++ e).invocations = d.invocations ++ e.invocations.map (·.shift d.blocks.length) := by
  simp only [invocations, invocationsIn, MacroDoc.walk, blocks_append]
  rw [walkChildren_append, Nat.add_comm 0, walkChildren_top_shift, List.filterMap_append, List.filterMap_map,
    List.map_filterMap]
  congr 2
  funext v
  simp only [Function.comp_apply, Option.map_map]
  rfl

theorem leadsInto_of_isSome (h : (d.get? p).isSome) : p.LeadsInto d.blocks.length := by
  obtain ⟨_ | ⟨i, p⟩⟩ := p
  · simp at h
  · refine ⟨i, p, rfl, ?_⟩
    rw [get?_cons] at h
    obtain ⟨b, hb⟩ := Option.isSome_iff_exists.1 h
    obtain ⟨top, htop, -⟩ := Option.bind_eq_some_iff.1 hb
    exact (List.getElem?_eq_some_iff.1 htop).1

theorem leadsInto_of_mem {i : PlacedInvocation} (h : i ∈ d.invocations) : i.path.LeadsInto d.blocks.length :=
  leadsInto_of_isSome (by simp [(mem_invocations.1 h).1])

theorem blocks_set_cons (d : Document) (i : Nat) (path : List Nat) (new : Block) :
    (d.set ⟨i :: path⟩ new).blocks = d.blocks.modify i (·.put path new) := by
  have hroot := root_set d (p := ⟨i :: path⟩) (List.cons_ne_nil _ _) new
  simpa [root] using hroot

theorem ext_blocks {d e : Document} (hblocks : d.blocks = e.blocks) (hsource : d.sourceId = e.sourceId) : d = e := by
  cases d
  cases e
  congr

theorem set_append_left (h : p.LeadsInto d.blocks.length) (e : Document) (new : Block) :
    (d ++ e).set p new = d.set p new ++ e := by
  obtain ⟨i, path, rfl, hi⟩ := h
  apply ext_blocks
  · rw [blocks_append, blocks_set_cons, blocks_set_cons, blocks_append, modify_append_left hi]
  · rw [sourceId_set, sourceId_append, sourceId_append, sourceId_set]

theorem set_append_right (d e : Document) (p : Path) (new : Block) :
    (d ++ e).set (p.shift d.blocks.length) new = d ++ e.set p new := by
  obtain ⟨_ | ⟨i, path⟩⟩ := p
  · rfl
  · apply ext_blocks
    · rw [Path.shift_cons, blocks_append, blocks_set_cons, blocks_set_cons, blocks_append,
        modify_append_right]
    · rw [sourceId_set, sourceId_append, sourceId_append]

theorem foldl_set_append {α : Type} (path : α → Path) (new : α → Block) (shift : α → α) {d : Document}
    (hpath : ∀ x, path (shift x) = (path x).shift d.blocks.length) (hnew : ∀ x, new (shift x) = new x) {xs : List α}
    (hxs : ∀ x ∈ xs, (path x).LeadsInto d.blocks.length) (ys : List α) (e : Document) :
    (xs ++ ys.map shift).foldl (fun d x => d.set (path x) (new x)) (d ++ e) =
      xs.foldl (fun d x => d.set (path x) (new x)) d ++ ys.foldl (fun d x => d.set (path x) (new x)) e := by
  induction xs generalizing d with
  | nil =>
    rw [List.nil_append, List.foldl_nil, List.foldl_map]
    induction ys generalizing e with
    | nil => rfl
    | cons y ys ih =>
      rw [List.foldl_cons, List.foldl_cons, hpath, hnew, set_append_right, ih]
  | cons x xs ih =>
    have hlength := length_blocks_set d (path x) (new x)
    rw [List.cons_append, List.foldl_cons, List.foldl_cons, set_append_left (hxs x List.mem_cons_self)]
    refine ih ?_ ?_
    · intro y
      rw [hlength, hpath]
    · intro y hy
      rw [hlength]
      exact hxs y (List.mem_cons_of_mem _ hy)

end Document

/-! ## The freeze -/

section Freeze

variable {d e : Document} {markers markers' : List Path}

theorem pendingBelow_append (hmarkers : ∀ m ∈ markers, m.LeadsInto d.blocks.length)
    (hmarkers' : ∀ m ∈ markers', m.LeadsInto e.blocks.length) :
    pendingBelow (markers ++ markers'.map (Path.shift d.blocks.length)) (d ++ e) =
      pendingBelow markers d ++ (pendingBelow markers' e).map (·.shift d.blocks.length) := by
  rw [pendingBelow, Document.invocations_append, List.filter_append, List.filter_map]
  congr 1
  · exact List.filter_congr fun i hi =>
      Path.any_isAncestorOf_append_left hmarkers' (Document.leadsInto_of_mem hi)
  · refine congrArg _ (List.filter_congr fun i _ => ?_)
    exact Path.any_isAncestorOf_append_right hmarkers i.path

theorem freeze_append (hmarkers : ∀ m ∈ markers, m.LeadsInto d.blocks.length)
    (hmarkers' : ∀ m ∈ markers', m.LeadsInto e.blocks.length) :
    freeze (markers ++ markers'.map (Path.shift d.blocks.length)) (d ++ e) = freeze markers d ++ freeze markers' e := by
  rw [freeze, pendingBelow_append hmarkers hmarkers']
  refine Document.foldl_set_append PlacedInvocation.path (fun i => frozen i.invocation.call) (·.shift d.blocks.length)
    (fun _ => rfl) (fun _ => rfl) ?_ _ e
  intro i hi
  exact Document.leadsInto_of_mem (List.mem_filter.1 hi).1

end Freeze

end MacroDoc
