import MacroDoc.Document

/-!
# Blocks at paths

What stands at a path of a document after another block was put at some path:

* at the path and below it, the new block and what is below it (`Document.get?_set_append`);
* at every other path, a block of the same shape as before (`Document.shape_get?_set`), and the same block if the
  paths are apart (`Document.get?_set_of_apart`). Putting the old block back gives the old document
  (`Document.set_back`).

The shape of a block is the block without what its children are. A leaf is its own shape, so a leaf that is not
covered by the path stays (`Document.get?_set_eq_leaf`).
-/

namespace MacroDoc

/-! ## Shapes -/

/-- A block without what its children are: a leaf, or a container and the number of its children. -/
inductive Shape where
  | leaf (leaf : Leaf)
  | node (container : Container) (arity : Nat)
  deriving DecidableEq

def Block.shape : Block → Shape
  | leaf l => .leaf l
  | node c children => .node c children.length

@[simp] theorem Block.shape_leaf (l : Leaf) : (Block.leaf l).shape = .leaf l := rfl

@[simp] theorem Block.shape_node (c : Container) (children : List Block) :
    (Block.node c children).shape = .node c children.length := rfl

theorem Block.shape_eq_leaf {b : Block} {l : Leaf} : b.shape = .leaf l ↔ b = .leaf l := by
  cases b <;> simp

theorem Block.shape_eq_node {b : Block} {c : Container} {n : Nat} :
    b.shape = .node c n ↔ ∃ children, b = .node c children ∧ children.length = n := by
  cases b <;> simp [and_assoc]

theorem ne_nil_of_apart {p q : List Nat} (h : ¬ p <+: q) : p ≠ [] := by
  rintro rfl
  exact h List.nil_prefix

/-! ## Below a block -/

/-- The block at a path below a block. The empty path leads to the block itself. -/
def Block.descend? : List Nat → Block → Option Block
  | [], b => some b
  | i :: path, b => b.children[i]? >>= descend? path

/-- The block with `new` at a path below it. Nothing changes if there is no block at the path. -/
def Block.put : List Nat → Block → Block → Block
  | [], _, new => new
  | i :: path, b, new => b.withChildren (b.children.modify i fun child => put path child new)

namespace Block

@[simp] theorem descend?_nil (b : Block) : b.descend? [] = some b := rfl

@[simp] theorem descend?_leaf_cons (l : Leaf) (i : Nat) (path : List Nat) :
    (leaf l).descend? (i :: path) = none := by
  simp [descend?, children]

@[simp] theorem descend?_node_cons (c : Container) (children : List Block) (i : Nat) (path : List Nat) :
    (node c children).descend? (i :: path) = children[i]? >>= descend? path := rfl

@[simp] theorem put_nil (new b : Block) : b.put [] new = new := rfl

@[simp] theorem put_leaf_cons (new : Block) (l : Leaf) (i : Nat) (path : List Nat) :
    (leaf l).put (i :: path) new = leaf l := rfl

@[simp] theorem put_node_cons (new : Block) (c : Container) (children : List Block) (i : Nat) (path : List Nat) :
    (node c children).put (i :: path) new = node c (children.modify i (·.put path new)) := rfl

theorem descend?_append (b : Block) (p q : List Nat) :
    b.descend? (p ++ q) = b.descend? p >>= descend? q := by
  induction p generalizing b with
  | nil => rfl
  | cons i p ih =>
    cases b with
    | leaf l => simp
    | node c children => cases h : children[i]? <;> simp [h, ih]

theorem eq_nil_of_descend?_leaf {l : Leaf} {path : List Nat} (h : ((leaf l).descend? path).isSome) : path = [] := by
  cases path with
  | nil => rfl
  | cons i path => simp at h

theorem shape_put (new : Block) {path : List Nat} (h : path ≠ []) (b : Block) : (b.put path new).shape = b.shape := by
  cases path with
  | nil => exact absurd rfl h
  | cons i path => cases b <;> simp

theorem put_of_none {path : List Nat} {b : Block} (h : b.descend? path = none) (new : Block) :
    b.put path new = b := by
  induction path generalizing b with
  | nil => cases h
  | cons i path ih =>
    cases b with
    | leaf l => rfl
    | node c children =>
      rw [put_node_cons]
      cases hi : children[i]? with
      | none => rw [List.modify_eq_self (List.getElem?_eq_none_iff.1 hi)]
      | some child =>
        have hnone : child.descend? path = none := by simpa [hi] using h
        rw [List.modify_eq_set, hi, Option.getD_some, ih hnone]
        obtain ⟨hlt, rfl⟩ := List.getElem?_eq_some_iff.1 hi
        rw [List.set_getElem_self]

theorem descend?_put_append {b : Block} {p : List Nat} (h : (b.descend? p).isSome) (new : Block) (q : List Nat) :
    (b.put p new).descend? (p ++ q) = new.descend? q := by
  induction p generalizing b with
  | nil => rfl
  | cons i p ih =>
    cases b with
    | leaf l => simp at h
    | node c children =>
      cases hi : children[i]? with
      | none => simp [hi] at h
      | some child =>
        have hc : (child.descend? p).isSome := by simpa [hi] using h
        simp [hi, ih hc]

/-- At a path that the new block does not cover, the shape is as it was. -/
theorem shape_descend?_put {p q : List Nat} (h : ¬ p <+: q) (new b : Block) :
    ((b.put p new).descend? q).map shape = (b.descend? q).map shape := by
  induction q generalizing p b with
  | nil =>
    have hp := ne_nil_of_apart h
    simp [shape_put new hp]
  | cons j q ih =>
    cases p with
    | nil => simp at h
    | cons i p =>
      cases b with
      | leaf l => rfl
      | node c children =>
        by_cases hij : i = j
        · subst hij
          have hpq : ¬ p <+: q := fun hp => h (by simpa using hp)
          cases hi : children[i]? <;> simp [hi, ih hpq]
        · simp [List.getElem?_modify_ne _ _ hij]

theorem descend?_put_of_apart {p q : List Nat} (h : ¬ p <+: q) (h' : ¬ q <+: p) (new b : Block) :
    (b.put p new).descend? q = b.descend? q := by
  induction q generalizing p b with
  | nil => simp at h'
  | cons j q ih =>
    cases p with
    | nil => simp at h
    | cons i p =>
      cases b with
      | leaf l => rfl
      | node c children =>
        by_cases hij : i = j
        · subst hij
          have hpq : ¬ p <+: q := fun hp => h (by simpa using hp)
          have hqp : ¬ q <+: p := fun hp => h' (by simpa using hp)
          cases hi : children[i]? <;> simp [hi, ih hpq hqp]
        · simp [List.getElem?_modify_ne _ _ hij]

/-- Blocks at paths apart can be put in either order. -/
theorem put_comm {p q : List Nat} (h : ¬ p <+: q) (h' : ¬ q <+: p) (x y b : Block) :
    (b.put q y).put p x = (b.put p x).put q y := by
  induction q generalizing p b with
  | nil => simp at h'
  | cons j q ih =>
    cases p with
    | nil => simp at h
    | cons i p =>
      cases b with
      | leaf l => rfl
      | node c children =>
        by_cases hij : i = j
        · subst hij
          have hpq : ¬ p <+: q := fun hp => h (by simpa using hp)
          have hqp : ¬ q <+: p := fun hp => h' (by simpa using hp)
          simp only [put_node_cons, List.modify_modify_eq, Function.comp_def, ih hpq hqp]
        · simp only [put_node_cons]
          rw [List.modify_modify_ne _ _ _ (Ne.symm hij)]

theorem put_put (x y : Block) (p : List Nat) (b : Block) : (b.put p x).put p y = b.put p y := by
  induction p generalizing b with
  | nil => rfl
  | cons i p ih =>
    cases b with
    | leaf l => rfl
    | node c children => simp only [put_node_cons, List.modify_modify_eq, Function.comp_def, ih]

theorem put_self {p : List Nat} {b b' : Block} (h : b.descend? p = some b') : b.put p b' = b := by
  induction p generalizing b with
  | nil => exact (Option.some.inj h).symm
  | cons i p ih =>
    cases b with
    | leaf l => rfl
    | node c children =>
      rw [descend?_node_cons] at h
      obtain ⟨child, hchild, hbelow⟩ := Option.bind_eq_some_iff.1 h
      rw [put_node_cons, List.modify_eq_set, hchild, Option.getD_some, ih hbelow]
      obtain ⟨hlt, rfl⟩ := List.getElem?_eq_some_iff.1 hchild
      rw [List.set_getElem_self]

end Block

/-! ## In a forest -/

theorem getAt?_cons (i : Nat) (path : List Nat) (blocks : List Block) :
    getAt? (i :: path) blocks = blocks[i]? >>= Block.descend? path := by
  induction path generalizing i blocks with
  | nil => cases h : blocks[i]? <;> simp [getAt?, h]
  | cons j path ih =>
    simp only [getAt?, ih]
    rfl

/-- Where a block stands at the path, changing it to `new` puts `new` there. -/
theorem modifyAt?_const_cons (i : Nat) (path : List Nat) (new : Block) (blocks : List Block) :
    modifyAt? (fun _ => some new) (i :: path) blocks =
      (getAt? (i :: path) blocks).map fun _ => blocks.modify i (·.put path new) := by
  induction path generalizing i blocks with
  | nil =>
    cases h : blocks[i]? with
    | none => simp [modifyAt?, getAt?, h]
    | some b => simp [modifyAt?, getAt?, h, List.modify_eq_set]
  | cons j path ih =>
    cases h : blocks[i]? with
    | none => simp [modifyAt?, getAt?, h]
    | some b => simp [modifyAt?, getAt?, h, ih, Function.comp_def, Block.put, List.modify_eq_set]

namespace Document

variable {d : Document} {p q : Path}

/-- The document as one block, with its top-level blocks below it. -/
def root (d : Document) : Block :=
  .node .group d.blocks

theorem eq_of_root {d d' : Document} (h : d.root = d'.root) (hsource : d.sourceId = d'.sourceId) : d = d' := by
  obtain ⟨blocks, sourceId⟩ := d
  obtain ⟨blocks', sourceId'⟩ := d'
  have hblocks : blocks = blocks' := by simpa [root] using h
  have hsource : sourceId = sourceId' := hsource
  rw [hblocks, hsource]

@[simp] theorem get?_nil (d : Document) : d.get? ⟨[]⟩ = none := rfl

theorem get?_cons (d : Document) (i : Nat) (path : List Nat) :
    d.get? ⟨i :: path⟩ = d.blocks[i]? >>= Block.descend? path :=
  getAt?_cons i path d.blocks

/-- What stands at a path of the document stands there below its root. -/
theorem get?_eq_descend? (d : Document) (hp : p.indices ≠ []) : d.get? p = d.root.descend? p.indices := by
  obtain ⟨_ | ⟨i, p⟩⟩ := p
  · exact absurd rfl hp
  · exact d.get?_cons i p

theorem ne_nil_of_isSome_get? (h : (d.get? p).isSome) : p.indices ≠ [] := by
  rintro hp
  obtain ⟨p⟩ := p
  subst hp
  simp at h

theorem get?_append (d : Document) (hp : p.indices ≠ []) (q : List Nat) :
    d.get? ⟨p.indices ++ q⟩ = d.get? p >>= Block.descend? q := by
  have hpq : p.indices ++ q ≠ [] := List.append_ne_nil_of_left_ne_nil hp q
  rw [get?_eq_descend? d hp, get?_eq_descend? d hpq, Block.descend?_append]

@[simp] theorem sourceId_set (d : Document) (p : Path) (new : Block) : (d.set p new).sourceId = d.sourceId := by
  unfold set replace?
  cases replaceAt? p new d.blocks <;> rfl

/-- A document is changed as its root is. -/
theorem root_set (d : Document) (hp : p.indices ≠ []) (new : Block) :
    (d.set p new).root = d.root.put p.indices new := by
  obtain ⟨_ | ⟨i, p⟩⟩ := p
  · exact absurd rfl hp
  · cases h : d.get? ⟨i :: p⟩ with
    | none =>
      have hroot : d.root.descend? (i :: p) = none := by rw [← h, get?_eq_descend? d hp]
      rw [Block.put_of_none hroot]
      simp only [get?] at h
      simp [set, replace?, replaceAt?, h]
    | some b =>
      simp only [get?] at h
      simp [set, replace?, replaceAt?, modifyAt?_const_cons, h, root]

@[simp] theorem set_nil (d : Document) (new : Block) : d.set ⟨[]⟩ new = d := rfl

@[simp] theorem length_blocks_set (d : Document) (p : Path) (new : Block) :
    (d.set p new).blocks.length = d.blocks.length := by
  by_cases hp : p.indices = []
  · obtain ⟨p⟩ := p
    subst hp
    rw [set_nil]
  · have hshape : (d.set p new).root.shape = d.root.shape := by rw [root_set d hp, Block.shape_put new hp]
    simpa [root] using hshape

theorem get?_set_append (h : (d.get? p).isSome) (new : Block) (q : List Nat) :
    (d.set p new).get? ⟨p.indices ++ q⟩ = new.descend? q := by
  have hp := ne_nil_of_isSome_get? h
  have hpq : p.indices ++ q ≠ [] := List.append_ne_nil_of_left_ne_nil hp q
  rw [get?_eq_descend? d hp] at h
  rw [get?_eq_descend? _ hpq, root_set d hp]
  exact Block.descend?_put_append h new q

theorem get?_set_self (h : (d.get? p).isSome) (new : Block) : (d.set p new).get? p = some new := by
  simpa using get?_set_append h new []

theorem shape_get?_set (h : ¬ p.indices <+: q.indices) (new : Block) :
    ((d.set p new).get? q).map Block.shape = (d.get? q).map Block.shape := by
  have hp := ne_nil_of_apart h
  by_cases hq : q.indices = []
  · obtain ⟨q⟩ := q
    subst hq
    rfl
  · rw [get?_eq_descend? _ hq, get?_eq_descend? d hq, root_set d hp]
    exact Block.shape_descend?_put h new d.root

theorem get?_set_of_apart (h : ¬ p.indices <+: q.indices) (h' : ¬ q.indices <+: p.indices) (new : Block) :
    (d.set p new).get? q = d.get? q := by
  have hp := ne_nil_of_apart h
  have hq := ne_nil_of_apart h'
  rw [get?_eq_descend? _ hq, get?_eq_descend? d hq, root_set d hp]
  exact Block.descend?_put_of_apart h h' new d.root

theorem set_comm (h : ¬ p.indices <+: q.indices) (h' : ¬ q.indices <+: p.indices) (x y : Block) :
    (d.set q y).set p x = (d.set p x).set q y := by
  have hp := ne_nil_of_apart h
  have hq := ne_nil_of_apart h'
  apply eq_of_root
  · rw [root_set _ hp, root_set _ hq, root_set _ hq, root_set _ hp]
    exact Block.put_comm h h' x y d.root
  · simp only [sourceId_set]

/-- A block that is put back undoes what was put in its place. -/
theorem set_back {b : Block} (h : d.get? p = some b) (new : Block) : (d.set p new).set p b = d := by
  have hp := ne_nil_of_isSome_get? (Option.isSome_of_eq_some h)
  rw [get?_eq_descend? d hp] at h
  apply eq_of_root
  · rw [root_set _ hp, root_set _ hp, Block.put_put, Block.put_self h]
  · simp only [sourceId_set]

/-! ### Leaves -/

theorem eq_of_get?_leaf {l : Leaf} (hp : d.get? p = some (.leaf l)) (hpq : p.indices <+: q.indices)
    (hq : (d.get? q).isSome) : q = p := by
  obtain ⟨r, hr⟩ := hpq
  have hne : p.indices ≠ [] := ne_nil_of_isSome_get? (by rw [hp]; rfl)
  have hget := get?_append d hne r
  rw [hr, hp] at hget
  have hnil : r = [] := Block.eq_nil_of_descend?_leaf (l := l) (by simpa [hget] using hq)
  subst hnil
  simp only [List.append_nil] at hr
  cases p
  cases q
  simpa using hr.symm

theorem apart_of_leaves {l m : Leaf} (hp : d.get? p = some (.leaf l)) (hq : d.get? q = some (.leaf m))
    (hne : p ≠ q) : ¬ p.indices <+: q.indices := fun h =>
  hne (eq_of_get?_leaf hp h (by simp [hq])).symm

theorem get?_set_eq_leaf (h : ¬ p.indices <+: q.indices) (new : Block) (l : Leaf) :
    (d.set p new).get? q = some (.leaf l) ↔ d.get? q = some (.leaf l) := by
  have hshape := shape_get?_set (d := d) h new
  constructor
  · intro hl
    obtain ⟨c, hc, hs⟩ := Option.map_eq_some_iff.1 (hshape.symm.trans (congrArg (Option.map Block.shape) hl))
    rw [hc, Block.shape_eq_leaf.1 hs]
  · intro hl
    obtain ⟨c, hc, hs⟩ := Option.map_eq_some_iff.1 (hshape.trans (congrArg (Option.map Block.shape) hl))
    rw [hc, Block.shape_eq_leaf.1 hs]

end Document

end MacroDoc
