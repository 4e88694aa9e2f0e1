import MacroDoc.Block.Event
import MacroDoc.Proofs.Forest.Enumeration
import MacroDoc.Proofs.Forest.Outline

/-!
# The event stream of a forest

The event stream tells the same tree as the walk. It meets each block of the walk once and in the same order, and it
keeps a container open while it tells its children.

* `Event.kind`, `Block.head` : what an event does, and what a block is without its children;
* `openAfter?` : the containers that are open after events; an end must be that of the innermost one;
* `entriesFrom_traverse` : each block is met once, inside as many containers as its path says;
* `Bracketed` : between the start and the end of a container stand the events of its children;
* `outlineOf_injective` : a forest can be read back from its outline, and so from its events;
* `traverse_describes` : all of it for any forest.
-/

namespace MacroDoc

inductive EventKind where
  | opening
  | closing
  | single
  deriving DecidableEq

def Event.kind : Event → EventKind
  | opening _ => .opening
  | closing _ => .closing
  | single _ => .single

def Event.block : Event → Block
  | opening b | closing b | single b => b

/-- What a block is without its children: the leaf, or the start of the container. -/
def Block.head : Block → Mark
  | leaf l => .leaf l
  | node c _ => .start c

/-- The containers that are open after events, the innermost first; `opened` are those open before. There are none if
an end is not that of the innermost open container. -/
def openAfter? (opened : List Block) : List Event → Option (List Block)
  | [] => some opened
  | .opening b :: events => openAfter? (b :: opened) events
  | .single _ :: events => openAfter? opened events
  | .closing b :: events =>
    match opened with
    | [] => none
    | inner :: outer => if inner = b then openAfter? outer events else none

/-! ## Open containers -/

theorem openAfter?_append (opened : List Block) (events later : List Event) :
    openAfter? opened (events ++ later) = openAfter? opened events >>= (openAfter? · later) := by
  induction events generalizing opened with
  | nil => rfl
  | cons e events ih =>
    cases e with
    | opening b => exact ih (b :: opened)
    | single b => exact ih opened
    | closing b =>
      cases opened with
      | nil => rfl
      | cons inner outer =>
        simp only [List.cons_append, openAfter?]
        split
        · exact ih outer
        · rfl

mutual

theorem openAfter?_traverseBlock (opened : List Block) :
    ∀ b : Block, openAfter? opened (traverseBlock b) = some opened
  | .leaf l => by rw [traverseBlock, openAfter?, openAfter?]
  | .node c children => by
    rw [traverseBlock, List.cons_append, openAfter?, openAfter?_append, openAfter?_traverse _ children]
    simp [openAfter?]

theorem openAfter?_traverse (opened : List Block) :
    ∀ blocks : List Block, openAfter? opened (traverse blocks) = some opened
  | [] => by rw [traverse, openAfter?]
  | b :: blocks => by
    rw [traverse, openAfter?_append, openAfter?_traverseBlock _ b]
    exact openAfter?_traverse opened blocks

end

/-! ## Blocks of the stream -/

def Block.entry : Block → Event
  | leaf l => .single (.leaf l)
  | node c children => .opening (.node c children)

/-- A block is opened exactly if it can be given a child. -/
theorem Block.entry_eq (child b : Block) :
    b.entry = if (pushChild? child b).isSome then .opening b else .single b := by
  cases b <;> simp [entry, pushChild?]

/-- The events other than ends, each with the containers that are open before it; `opened` are those open at first. -/
def entriesFrom (opened : List Block) : List Event → List (Event × List Block)
  | [] => []
  | .opening b :: events => (.opening b, opened) :: entriesFrom (b :: opened) events
  | .single b :: events => (.single b, opened) :: entriesFrom opened events
  | .closing _ :: events => entriesFrom opened.tail events

theorem entriesFrom_append {opened opened' : List Block} {events : List Event}
    (h : openAfter? opened events = some opened') (later : List Event) :
    entriesFrom opened (events ++ later) = entriesFrom opened events ++ entriesFrom opened' later := by
  induction events generalizing opened with
  | nil =>
    obtain rfl := Option.some.inj h
    rfl
  | cons e events ih =>
    cases e with
    | opening b => rw [List.cons_append, entriesFrom, entriesFrom, ih h, List.cons_append]
    | single b => rw [List.cons_append, entriesFrom, entriesFrom, ih h, List.cons_append]
    | closing b =>
      cases opened with
      | nil => cases h
      | cons inner outer =>
        rw [openAfter?] at h
        split at h
        · rw [List.cons_append, entriesFrom, entriesFrom, List.tail_cons, ih h]
        · cases h

theorem map_fst_entriesFrom (opened : List Block) (events : List Event) :
    (entriesFrom opened events).map (·.1) = events.filter (·.kind ≠ .closing) := by
  induction events generalizing opened with
  | nil => rfl
  | cons e events ih => cases e <;> simp [entriesFrom, Event.kind, ih]

mutual

theorem entriesFrom_traverseBlock (opened : List Block) (path : Path) (placement : Placement)
    (h : opened.length + 1 = path.depth) :
    ∀ b : Block, (entriesFrom opened (traverseBlock b)).map (fun e => (e.1, e.2.length)) =
      (walkBlock path placement b).map fun v => (v.block.entry, v.path.depth - 1)
  | .leaf l => by simp [traverseBlock, entriesFrom, walkBlock, Block.entry, ← h]
  | .node c children => by
    have hwithin := openAfter?_traverse (.node c children :: opened) children
    rw [traverseBlock, List.cons_append, entriesFrom, entriesFrom_append hwithin, walkBlock, List.map_cons,
      List.map_cons, List.map_append,
      entriesFrom_traverse (.node c children :: opened) path (c.placementWithin placement) 0 h children]
    simp [entriesFrom, Block.entry, ← h]

/-- The blocks of a forest are met in the order of the walk, each inside as many containers as its path has indices
before the last. -/
theorem entriesFrom_traverse (opened : List Block) (parent : Path) (placement : Placement) (i : Nat)
    (h : opened.length = parent.depth) :
    ∀ blocks : List Block, (entriesFrom opened (traverse blocks)).map (fun e => (e.1, e.2.length)) =
      (walkChildren parent placement i blocks).map fun v => (v.block.entry, v.path.depth - 1)
  | [] => by simp [traverse, entriesFrom, walkChildren]
  | b :: blocks => by
    have hchild : opened.length + 1 = (parent.child i).depth := by
      rw [h]
      simp [Path.depth, Path.child]
    rw [traverse, entriesFrom_append (openAfter?_traverseBlock opened b), walkChildren, List.map_append,
      List.map_append, entriesFrom_traverseBlock opened _ placement hchild b,
      entriesFrom_traverse opened parent placement _ h blocks]

end

/-- The events of a forest without the ends are the events that the blocks of the walk are met with. -/
theorem filter_traverse (blocks : List Block) :
    (traverse blocks).filter (·.kind ≠ .closing) = (walk blocks).map (·.block.entry) := by
  have h := congrArg (List.map Prod.fst) (entriesFrom_traverse [] ⟨[]⟩ .block 0 rfl blocks)
  rw [← map_fst_entriesFrom [], walk]
  simpa [Function.comp_def] using h

/-- At each event but an end, as many containers are open as the path of its block has indices before the last. -/
theorem exists_visit_of_traverse {blocks : List Block} {before after : List Event} {e : Event}
    (h : traverse blocks = before ++ e :: after) (he : e.kind ≠ .closing) :
    ∃ v opened, (walk blocks)[before.countP (·.kind ≠ .closing)]? = some v ∧ e.block = v.block ∧
      openAfter? [] before = some opened ∧ opened.length = v.path.depth - 1 := by
  obtain ⟨opened, hopened, -⟩ := Option.bind_eq_some_iff.1
    ((openAfter?_append [] before (e :: after)).symm.trans (h ▸ openAfter?_traverse [] blocks))
  have hentries := entriesFrom_traverse [] ⟨[]⟩ .block 0 rfl blocks
  have hlength : before.countP (·.kind ≠ .closing) = (entriesFrom [] before).length := by
    rw [List.countP_eq_length_filter, ← map_fst_entriesFrom [], List.length_map]
  have hentry : entriesFrom opened (e :: after) = (e, opened) :: (entriesFrom opened (e :: after)).tail := by
    cases e with
    | closing b => exact absurd rfl he
    | opening b | single b => rfl
  rw [h, entriesFrom_append hopened, hentry] at hentries
  have hget := congrArg (·[(entriesFrom [] before).length]?) hentries
  simp only [List.map_append, List.map_cons, List.getElem?_map] at hget
  rw [List.getElem?_append_right (by simp), List.length_map, Nat.sub_self, List.getElem?_cons_zero] at hget
  obtain ⟨v, hv, heq⟩ := Option.map_eq_some_iff.1 hget.symm
  obtain ⟨hblock, hdepth⟩ := Prod.mk.inj heq
  refine ⟨v, opened, hlength ▸ hv, ?_, hopened, hdepth.symm⟩
  rw [← hblock]
  cases v.block <;> rfl

/-! ## Starts and ends -/

theorem append_eq_append_cons {α : Type} {a b before after : List α} {x : α} (h : a ++ b = before ++ x :: after) :
    (∃ m, a = before ++ x :: m ∧ after = m ++ b) ∨ ∃ m, before = a ++ m ∧ b = m ++ x :: after := by
  rcases List.append_eq_append_iff.1 h with ⟨m, hbefore, hb⟩ | ⟨m, ha, hafter⟩
  · exact .inr ⟨m, hbefore, hb⟩
  · cases m with
    | nil => exact .inr ⟨[], by simpa using ha.symm, hafter.symm⟩
    | cons y m =>
      obtain ⟨rfl, rfl⟩ := List.cons.inj hafter
      exact .inl ⟨m, ha, rfl⟩

/-- Behind the start of a block stand the events of its children and then its end; before the end of a block they stand
behind its start. -/
structure Bracketed (events : List Event) : Prop where
  start : ∀ before b rest, events = before ++ .opening b :: rest →
    ∃ after, rest = traverse b.children ++ .closing b :: after
  stop : ∀ before b after, events = before ++ .closing b :: after →
    ∃ earlier, before = earlier ++ .opening b :: traverse b.children

namespace Bracketed

theorem append {events later : List Event} (h : Bracketed events) (h' : Bracketed later) :
    Bracketed (events ++ later) where
  start before b rest heq := by
    rcases append_eq_append_cons heq with ⟨m, hevents, rfl⟩ | ⟨m, -, hlater⟩
    · obtain ⟨after, rfl⟩ := h.start before b m hevents
      exact ⟨after ++ later, by simp⟩
    · exact h'.start m b rest hlater
  stop before b after heq := by
    rcases append_eq_append_cons heq with ⟨m, hevents, -⟩ | ⟨m, rfl, hlater⟩
    · exact h.stop before b m hevents
    · obtain ⟨earlier, rfl⟩ := h'.stop m b after hlater
      exact ⟨events ++ earlier, by simp⟩

mutual

theorem of_traverseBlock : ∀ b : Block, Bracketed (traverseBlock b)
  | .leaf l => by
    rw [traverseBlock]
    constructor <;> intro before b rest heq <;> cases before <;> simp at heq
  | .node c children => by
    have hwithin := of_traverse children
    rw [traverseBlock]
    constructor
    case start =>
      intro before b rest heq
      rcases before with _ | ⟨e, before⟩
      · obtain ⟨hstart, rfl⟩ := List.cons.inj heq
        cases hstart
        exact ⟨[], rfl⟩
      -- A start after the first event is one of the children's.
      · rcases append_eq_append_cons (List.cons.inj heq).2 with ⟨m, hchildren, rfl⟩ | ⟨m, -, hend⟩
        · obtain ⟨after, rfl⟩ := hwithin.start before b m hchildren
          exact ⟨after ++ [.closing (.node c children)], by simp⟩
        · rcases m with _ | ⟨e', m⟩ <;> simp at hend
    case stop =>
      intro before b after heq
      rcases append_eq_append_cons heq with ⟨m, hchildren, -⟩ | ⟨m, rfl, hend⟩
      -- An end before the last event is one of the children's.
      · rcases before with _ | ⟨e, before⟩
        · cases (List.cons.inj hchildren).1
        · obtain ⟨rfl, hwritten⟩ := List.cons.inj hchildren
          obtain ⟨earlier, rfl⟩ := hwithin.stop before b m hwritten
          exact ⟨.opening (.node c children) :: earlier, rfl⟩
      · rcases m with _ | ⟨e', m⟩
        · obtain ⟨hstop, -⟩ := List.cons.inj hend
          cases hstop
          exact ⟨[], by simp [Block.children]⟩
        · simp at hend

theorem of_traverse : ∀ blocks : List Block, Bracketed (traverse blocks)
  | [] => by
    rw [traverse]
    constructor <;> simp
  | b :: blocks => by
    rw [traverse]
    exact (of_traverseBlock b).append (of_traverse blocks)

end

end Bracketed

/-! ## Forests from their outlines -/

mutual

/-- The outline of a block ends by itself: what comes after it is no part of it. -/
theorem outline_append_inj :
    ∀ (a b : Block) {rest rest' : List Mark}, a.outline ++ rest = b.outline ++ rest' → a = b ∧ rest = rest'
  | .leaf l, .leaf m, rest, rest', h => by simpa using h
  | .leaf l, .node c children, rest, rest', h => by simp at h
  | .node c children, .leaf l, rest, rest', h => by simp at h
  | .node c children, .node c' children', rest, rest', h => by
    simp only [Block.outline_node, List.cons_append, List.append_assoc, List.nil_append, List.cons.injEq,
      Mark.start.injEq] at h
    obtain ⟨rfl, hchildren⟩ := h
    obtain ⟨rfl, hrest⟩ := outlineOf_append_inj children children' (by simp) (by simp) hchildren
    exact ⟨rfl, (List.cons.inj hrest).2⟩

/-- The outline of a forest ends where a container stops that is not started in it, or where nothing comes after. -/
theorem outlineOf_append_inj :
    ∀ (as bs : List Block) {rest rest' : List Mark}, (∀ m ∈ rest.head?, m = .stop) → (∀ m ∈ rest'.head?, m = .stop) →
      outlineOf as ++ rest = outlineOf bs ++ rest' → as = bs ∧ rest = rest'
  | [], [], rest, rest', _, _, h => by simpa using h
  | [], b :: bs, rest, rest', hrest, _, h => by
    rw [outlineOf_nil, List.nil_append] at h
    subst h
    cases b <;> simp at hrest
  | a :: as, [], rest, rest', _, hrest', h => by
    rw [outlineOf_nil, List.nil_append] at h
    subst h
    cases a <;> simp at hrest'
  | a :: as, b :: bs, rest, rest', hrest, hrest', h => by
    rw [outlineOf_cons, outlineOf_cons, List.append_assoc, List.append_assoc] at h
    obtain ⟨rfl, hblocks⟩ := outline_append_inj a b h
    obtain ⟨rfl, hend⟩ := outlineOf_append_inj as bs hrest hrest' hblocks
    exact ⟨rfl, hend⟩

end

theorem outlineOf_injective {as bs : List Block} (h : outlineOf as = outlineOf bs) : as = bs :=
  (@outlineOf_append_inj as bs [] [] (by simp) (by simp) (by simpa using h)).1

def Event.mark (e : Event) : Mark :=
  if e.kind = .closing then .stop else e.block.head

mutual

theorem map_mark_traverseBlock : ∀ b : Block, (traverseBlock b).map Event.mark = b.outline
  | .leaf l => by rw [traverseBlock, Block.outline_leaf]; rfl
  | .node c children => by
    rw [traverseBlock, Block.outline_node, List.map_append, List.map_cons, map_mark_traverse children]
    rfl

theorem map_mark_traverse : ∀ blocks : List Block, (traverse blocks).map Event.mark = outlineOf blocks
  | [] => by rw [traverse, outlineOf_nil]; rfl
  | b :: blocks => by
    rw [traverse, outlineOf_cons, List.map_append, map_mark_traverseBlock b, map_mark_traverse blocks]

end

theorem head_entry (b : Block) : b.entry.block.head = b.head := by
  cases b <;> rfl

/-- What is collected from the heads of the blocks of a walk is collected from the outline. -/
theorem filterMap_walk {α : Type} {f : Mark → Option α} (hstop : f .stop = none) (blocks : List Block) :
    (walk blocks).filterMap (fun v => f v.block.head) = (outlineOf blocks).filterMap f := by
  have hmark (e : Event) : f e.mark = if e.kind ≠ .closing then f e.block.head else none := by
    unfold Event.mark
    split <;> simp [*]
  calc (walk blocks).filterMap (fun v => f v.block.head)
    _ = ((walk blocks).map (·.block.entry)).filterMap fun e => f e.block.head := by
      simp only [List.filterMap_map, Function.comp_def, head_entry]
    _ = (traverse blocks).filterMap fun e => f e.mark := by
      rw [← filter_traverse, List.filterMap_filter]
      simp only [hmark, decide_eq_true_eq]
    _ = (outlineOf blocks).filterMap f := by rw [← map_mark_traverse, List.filterMap_map]; rfl

/-- The marks of events are known from the kinds of the events and the heads of the blocks that they meet. -/
theorem map_mark_eq {events events' : List Event} (hkind : events.map Event.kind = events'.map Event.kind)
    (hhead : (events.filter (·.kind ≠ .closing)).map (·.block.head) =
      (events'.filter (·.kind ≠ .closing)).map (·.block.head)) :
    events.map Event.mark = events'.map Event.mark := by
  induction events generalizing events' with
  | nil =>
    obtain rfl := List.map_eq_nil_iff.1 hkind.symm
    rfl
  | cons e events ih =>
    cases events' with
    | nil => cases hkind
    | cons e' events' =>
      obtain ⟨hkind, hkinds⟩ := List.cons.inj hkind
      rw [List.map_cons, List.map_cons, Event.mark, Event.mark, ← hkind]
      by_cases hclosing : e.kind = .closing
      · have hclosing' : e'.kind = .closing := hkind ▸ hclosing
        rw [List.filter_cons_of_neg (by simpa using hclosing),
          List.filter_cons_of_neg (by simpa using hclosing')] at hhead
        rw [if_pos hclosing, if_pos hclosing, ih hkinds hhead]
      · have hclosing' : e'.kind ≠ .closing := hkind ▸ hclosing
        rw [List.filter_cons_of_pos (by simpa using hclosing),
          List.filter_cons_of_pos (by simpa using hclosing')] at hhead
        obtain ⟨hfirst, hheads⟩ := List.cons.inj hhead
        have hfirst : e.block.head = e'.block.head := hfirst
        rw [if_neg hclosing, if_neg hclosing, hfirst, ih hkinds hheads]

/-- The event stream of any forest and its walk describe one tree. Without the ends, the stream is the walk: a block
that can be given a child is met with its start, any other with its only event. Starts and ends match, and between those
of a block stand the events of its children. Where a block is met, as many containers are open as its path has indices
before the last. The kinds of the events and the blocks that they meet, each without its children, determine the
forest. -/
theorem traverse_describes (blocks : List Block) :
    (∀ child, (traverse blocks).filter (·.kind ≠ .closing) = (walk blocks).map fun v =>
      if (Block.pushChild? child v.block).isSome then .opening v.block else .single v.block) ∧
    openAfter? [] (traverse blocks) = some [] ∧
    Bracketed (traverse blocks) ∧
    (∀ before e after, traverse blocks = before ++ e :: after → e.kind ≠ .closing →
      ∃ v opened, (walk blocks)[before.countP (·.kind ≠ .closing)]? = some v ∧ e.block = v.block ∧
        openAfter? [] before = some opened ∧ opened.length = v.path.depth - 1) ∧
    ∀ blocks', (traverse blocks).map Event.kind = (traverse blocks').map Event.kind →
      (walk blocks).map (·.block.head) = (walk blocks').map (·.block.head) → blocks = blocks' := by
  refine ⟨fun child => ?_, openAfter?_traverse [] blocks, .of_traverse blocks, fun before e after => ?_,
    fun blocks' hkind hhead => ?_⟩
  · simp only [← Block.entry_eq]
    exact filter_traverse blocks
  · exact exists_visit_of_traverse
  · have hheads (blocks : List Block) :
        ((traverse blocks).filter (·.kind ≠ .closing)).map (·.block.head) = (walk blocks).map (·.block.head) := by
      rw [filter_traverse, List.map_map]
      exact List.map_congr_left fun v _ => head_entry v.block
    have hmarks := map_mark_eq hkind (by rw [hheads, hheads, hhead])
    rw [map_mark_traverse, map_mark_traverse] at hmarks
    exact outlineOf_injective hmarks

/-- The space after an empty group is the third block of the walk. One container is open at its event, since the group
has been closed by then. -/
theorem traverse_describes_emptyGroup :
    let group : Block := .node .group []
    let marker : Block := .node (.marker ⟨"a", .empty, none⟩) [group, .leaf .space]
    let before : List Event := [.opening marker, .opening group, .closing group]
    (∃ after, traverse [marker, .leaf .newLine] = before ++ .single (.leaf .space) :: after) ∧
      (walk [marker, .leaf .newLine]).map (·.path) = [⟨[0]⟩, ⟨[0, 0]⟩, ⟨[0, 1]⟩, ⟨[1]⟩] ∧
      (∃ v opened, (walk [marker, .leaf .newLine])[2]? = some v ∧ .leaf .space = v.block ∧
        openAfter? [] before = some opened ∧ opened.length = v.path.depth - 1) ∧
      [marker] = [marker.withChildren marker.children] := by
  intro group marker before
  have hstream : traverse [marker, .leaf .newLine]
      = before ++ .single (.leaf .space) :: [.closing marker, .single (.leaf .newLine)] := by
    simp [traverse, traverseBlock, marker, group, before]
  refine ⟨⟨_, hstream⟩, by decide +kernel, ?_, ?_⟩
  · exact (traverse_describes _).2.2.2.1 before _ _ hstream (by decide)
  · exact (traverse_describes [marker]).2.2.2.2 [marker.withChildren marker.children] rfl rfl

end MacroDoc
