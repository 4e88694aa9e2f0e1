import MacroDoc.Proofs.Toml.Strings
import MacroDoc.Toml.Statement

/-!
# Keys, values and statements before line ends

* `skipsLines_skipBlank` : blanks and comments;
* `isLocal_readKeys` : keys;
* `localBelow_readItems`, `localBelow_readPairs`, `isLocal_readValue` : values;
* `isLocal_readStatement` : what line ends after a text do not change.
-/

namespace MacroDoc.Toml

variable {α : Type} {text tail rest : List Char} {n : Nat}

/-! ## Blanks and comments -/

theorem skipComment_suffix : skipComment text <:+ text := by
  unfold skipComment
  split
  · exact (List.dropWhile_suffix _).trans (List.suffix_cons _ _)
  · exact List.suffix_refl _

theorem skipComment_append (h : EndsBefore text tail) : skipComment (text ++ tail) = skipComment text ++ tail := by
  cases text with
  | nil => obtain rfl | ⟨rest, rfl | rfl⟩ := h.tail_cases <;> rfl
  | cons c text =>
    by_cases hc : c = '#'
    · rw [hc]
      exact (h.suffix (List.suffix_cons c text)).dropWhile (by decide) (by decide)
    · simp [skipComment, hc]

def skipToLineEnd (text : List Char) : List Char :=
  skipComment (skipSpaces text)

theorem skipToLineEnd_suffix : skipToLineEnd text <:+ text :=
  skipComment_suffix.trans skipSpaces_suffix

theorem skipToLineEnd_append (h : EndsBefore text tail) : skipToLineEnd (text ++ tail) = skipToLineEnd text ++ tail := by
  rw [skipToLineEnd, skipSpaces_append h, skipComment_append (h.suffix skipSpaces_suffix)]
  rfl

theorem skipsLines_skipBlank : SkipsLines skipToLineEnd skipBlank where
  strip_suffix _ := skipToLineEnd_suffix
  strip_append := skipToLineEnd_append
  zero_suffix := List.suffix_refl
  succ fuel text := by
    rw [skipBlank, skipToLineEnd]
    cases afterNewline (skipComment (skipSpaces text)) <;> rfl

theorem LocalBelow.skipSpaces {read read' : List Char → Option (α × List Char)} (h : LocalBelow n read read') :
    LocalBelow n (fun text => read (skipSpaces text)) fun text => read' (skipSpaces text) where
  suffix hread := (h.suffix hread).trans skipSpaces_suffix
  append {text tail} hends hlength := by
    have hsuffix : Toml.skipSpaces text <:+ text := skipSpaces_suffix
    rw [skipSpaces_append hends]
    exact h.append (hends.suffix hsuffix) (Nat.lt_of_le_of_lt hsuffix.length_le hlength)

theorem LocalBelow.skipBlank {read read' : List Char → Option (α × List Char)} (h : LocalBelow n read read')
    (hnil : read [] = Option.none) :
    LocalBelow n (fun text => read (skipBlank text.length text)) fun text => read' (skipBlank text.length text) where
  suffix hread := (h.suffix hread).trans (skipsLines_skipBlank.suffix _ _)
  append {text tail} hends hlength := by
    have hsuffix := skipsLines_skipBlank.suffix text.length text
    obtain ⟨hblank, hrest⟩ | ⟨-, heq⟩ := skipsLines_skipBlank.append hends (Nat.le_refl _) (Nat.le_refl _)
    · rw [hblank, hnil, h.lineEnds (Nat.zero_lt_of_lt hlength) hnil (hends.tail_suffix hrest)]
      rfl
    · rw [heq]
      exact h.append (hends.suffix hsuffix) (Nat.lt_of_le_of_lt hsuffix.length_le hlength)

/-! ## Keys -/

theorem isLocal_readKeyPart : IsLocal readKeyPart where
  suffix {text rest v} h := by
    unfold readKeyPart at h
    split at h
    · next key more hkey =>
      cases h
      exact isLocal_readLineString.suffix hkey
    · dsimp only at h
      split at h
      · cases h
      · cases h
        exact List.dropWhile_suffix _
  append {text tail} h := by
    simp only [readKeyPart]
    rw [isLocal_readLineString.append h, h.takeWhile (by decide) (by decide), h.dropWhile (by decide) (by decide)]
    cases readLineString text with
    | some p => rfl
    | none =>
      simp only [Option.map_none]
      split <;> rfl

/-- What comes after one part of a key. -/
def readMoreKeys (fuel : Nat) (key : String) (text : List Char) : Option (List String × List Char) :=
  match text with
  | '.' :: rest => do
    let (keys, rest) ← readKeys fuel rest
    return (key :: keys, rest)
  | rest => return ([key], rest)

theorem branches_readMoreKeys (fuel : Nat) (key : String) : Branches '.' (readMoreKeys fuel key)
    (fun rest => readKeys fuel rest >>= fun p => some (key :: p.1, p.2)) fun text => some ([key], text) where
  hit _ := rfl
  miss text hc := by
    unfold readMoreKeys
    split
    · exact absurd rfl (hc _)
    · rfl

theorem isLocal_readKeys (fuel : Nat) : IsLocal (readKeys fuel) := by
  induction fuel with
  | zero => exact .of_below fun n => .none
  | succ fuel ih =>
    have hmore (key : String) (n : Nat) : LocalBelow (n + 1) (readMoreKeys fuel key) (readMoreKeys fuel key) :=
      .ofHead (by decide) (by decide) (branches_readMoreKeys fuel key) (branches_readMoreKeys fuel key)
        ((ih.below n).bind fun keys => .pure (key :: keys)) (.pure [key])
    exact .of_below fun n => (isLocal_readKeyPart.below (n + 1)).skipSpaces.bind fun key => (hmore key n).skipSpaces

/-! ## Values -/

variable {item : List Char → Option (Value × List Char)}

theorem isLocal_readPair (h : IsLocal item) : IsLocal (readPair item) :=
  .of_below fun n => ((isLocal_readKeys maxDepth).below (n + 1)).bind fun keys =>
    ((h.below n).skipSpaces.bind fun value => .pure (keys, value)).expect (by decide) (by decide)

/-- What comes after an item of an array or a pair of a table: others after a separator, or the end. -/
def readMore (separator closing : Char) (others : List Char → Option (α × List Char)) (last : α) :
    List Char → Option (α × List Char)
  | [] => none
  | c :: rest => if c = separator then others rest else if c = closing then some (last, rest) else none

theorem LocalBelow.readMore {separator closing : Char} (hseparator : isPlain separator = true)
    (hclosing : isPlain closing = true) {others others' : List Char → Option (α × List Char)}
    (h : LocalBelow n others others') (last : α) :
    LocalBelow (n + 1) (readMore separator closing others last) (readMore separator closing others' last) := by
  refine .cons (fun c => ?_) rfl fun tail hends => ?_
  · by_cases hc : c = separator
    · simpa only [Toml.readMore, if_pos hc] using h
    by_cases hc' : c = closing
    · simpa only [Toml.readMore, if_neg hc, if_pos hc'] using .pure last
    · simpa only [Toml.readMore, if_neg hc, if_neg hc'] using .none
  · cases tail with
    | nil => rfl
    | cons c tail =>
      have hplain := hends.refused (p := isPlain) (by decide) (by decide) c List.mem_cons_self
      have hne {d : Char} (hd : isPlain d = true) : c ≠ d := by
        rintro rfl
        simp [hd] at hplain
      rw [Toml.readMore, if_neg (hne hseparator), if_neg (hne hclosing)]

/-- The item that comes after a bracket or a comma, if the array does not end there, and what comes after it. -/
def readItem (item : List Char → Option (Value × List Char)) (others : List Char → Option (List Value × List Char))
    (text : List Char) : Option (List Value × List Char) :=
  match text with
  | ']' :: rest => some ([], rest)
  | text => item text >>= fun p => readMore ',' ']' (fun rest => others rest >>= fun q => some (p.1 :: q.1, q.2)) [p.1]
      (skipBlank p.2.length p.2)

theorem branches_readItem (others : List Char → Option (List Value × List Char)) :
    Branches ']' (readItem item others) (fun rest => some ([], rest)) fun text => item text >>= fun p =>
      readMore ',' ']' (fun rest => others rest >>= fun q => some (p.1 :: q.1, q.2)) [p.1] (skipBlank p.2.length p.2) where
  hit _ := rfl
  miss text hc := by
    unfold readItem
    split
    · exact absurd rfl (hc _)
    · rfl

theorem readItems_succ (fuel : Nat) : readItems item (fuel + 1) =
    fun text => readItem item (readItems item fuel) (skipBlank text.length text) := by
  funext text
  rw [readItems]
  generalize skipBlank text.length text = left
  split
  · rfl
  · next hother =>
    rw [(branches_readItem _).miss left hother]
    congr 1
    funext p
    dsimp only
    generalize skipBlank p.2.length p.2 = left'
    unfold readMore
    grind

theorem localBelow_readItems (h : IsLocal item) (hnil : item [] = none) (more fuel : Nat) :
    LocalBelow fuel (readItems item fuel) (readItems item (more + fuel)) := by
  induction fuel with
  | zero => exact .zero fun text => rfl
  | succ fuel ih =>
    have hmore (value : Value) : LocalBelow (fuel + 1)
        (readMore ',' ']' (fun rest => readItems item fuel rest >>= fun q => some (value :: q.1, q.2)) [value])
        (readMore ',' ']' (fun rest => readItems item (more + fuel) rest >>= fun q => some (value :: q.1, q.2)) [value]) :=
      .readMore (by decide) (by decide) (ih.bind fun values => .pure (value :: values)) [value]
    have hitem : LocalBelow (fuel + 1) (readItem item (readItems item fuel)) (readItem item (readItems item (more + fuel))) :=
      .ofHead (by decide) (by decide) (branches_readItem _) (branches_readItem _) (.pure [])
        ((h.below (fuel + 1)).bind fun value => (hmore value).skipBlank rfl)
    rw [← Nat.add_assoc, readItems_succ, readItems_succ]
    exact hitem.skipBlank (by simp [readItem, hnil])

theorem readPairs_succ (entries : Entries) (fuel : Nat) : readPairs item entries (fuel + 1) = fun text =>
    readPair item text >>= fun p => addPair p.1.1 p.1.2 entries >>= fun entries =>
      readMore ',' '}' (readPairs item entries fuel) entries (skipSpaces p.2) := by
  funext text
  rw [readPairs]
  congr 1
  funext p
  dsimp only
  congr 1
  funext entries
  generalize skipSpaces p.2 = left
  unfold readMore
  grind

theorem localBelow_readPairs (h : IsLocal item) (more fuel : Nat) (entries : Entries) :
    LocalBelow (fuel + 1) (readPairs item entries fuel) (readPairs item entries (more + fuel)) := by
  induction fuel generalizing entries with
  | zero =>
    refine ⟨fun h => (nomatch h), fun {text tail} hends hlength => ?_⟩
    obtain rfl := List.eq_nil_of_length_eq_zero (Nat.lt_one_iff.1 hlength)
    cases more with
    | zero => rfl
    | succ more =>
      rw [Nat.add_zero, readPairs_succ, List.nil_append]
      dsimp only
      rw [(isLocal_readPair h).lineEnds rfl hends]
      rfl
  | succ fuel ih =>
    have hmore (entries : Entries) : LocalBelow (fuel + 2) (readMore ',' '}' (readPairs item entries fuel) entries)
        (readMore ',' '}' (readPairs item entries (more + fuel)) entries) :=
      (ih entries).readMore (by decide) (by decide) entries
    have hadd (keys : List String) (value : Value) : LocalBelow (fuel + 2)
        (fun text => addPair keys value entries >>= fun entries =>
          readMore ',' '}' (readPairs item entries fuel) entries (skipSpaces text))
        (fun text => addPair keys value entries >>= fun entries =>
          readMore ',' '}' (readPairs item entries (more + fuel)) entries (skipSpaces text)) := by
      cases addPair keys value entries with
      | none => exact .none
      | some entries => exact (hmore entries).skipSpaces
    rw [← Nat.add_assoc, readPairs_succ, readPairs_succ]
    exact ((isLocal_readPair h).below (fuel + 2)).bind fun p => hadd p.1 p.2

theorem readInlineTable_of_not (hother : ∀ more, skipSpaces text ≠ '}' :: more) : readInlineTable item text =
    (readPairs item [] text.length text).map fun p => (.table .inline p.1, p.2) := by
  unfold readInlineTable
  split
  · next heq => exact absurd heq (hother _)
  · rfl

theorem isLocal_readInlineTable (h : IsLocal item) : IsLocal (readInlineTable item) where
  suffix {text rest v} hread := by
    by_cases hclose : ∃ more, skipSpaces text = '}' :: more
    · obtain ⟨more, hmore⟩ := hclose
      simp only [readInlineTable, hmore] at hread
      cases hread
      exact (List.suffix_cons '}' rest).trans (hmore ▸ skipSpaces_suffix)
    · rw [readInlineTable_of_not (not_exists.1 hclose)] at hread
      exact ((localBelow_readPairs h 0 _ []).map (Value.table .inline)).suffix hread
  append {text tail} hends := by
    by_cases hclose : ∃ more, skipSpaces text = '}' :: more
    · obtain ⟨more, hmore⟩ := hclose
      simp only [readInlineTable, skipSpaces_append hends, hmore, List.cons_append, Option.map_some]
    · have hclose' (more : List Char) : skipSpaces (text ++ tail) ≠ '}' :: more := by
        rw [skipSpaces_append hends]
        intro heq
        obtain ⟨more', hmore'⟩ :=
          (hends.suffix skipSpaces_suffix).prefix_of_append ['}'] (by simp) ⟨more, heq.symm⟩
        exact hclose ⟨more', hmore'.symm⟩
      rw [readInlineTable_of_not (not_exists.1 hclose), readInlineTable_of_not hclose', List.length_append,
        Nat.add_comm text.length]
      exact ((localBelow_readPairs h tail.length text.length []).map (Value.table .inline)).append hends (Nat.lt_succ_self _)

/-- A value without brackets or braces. -/
def readPlain : List Char → Option (Value × List Char)
  | [] => none
  | c :: rest =>
    if c = '"' || c = '\'' then (readString (c :: rest)).map fun p => (.string (String.ofList p.1), p.2)
    else readTokenValue (c :: rest)

theorem isLocal_readPlain : IsLocal readPlain where
  suffix {text rest v} h := by
    cases text with
    | nil => cases h
    | cons c text =>
      rw [readPlain] at h
      split at h
      · exact ((isLocal_readString.below 0).map fun s => Value.string (String.ofList s)).suffix h
      · exact isLocal_readTokenValue.suffix h
  append {text tail} h := by
    cases text with
    | nil =>
      obtain rfl | ⟨rest, rfl | rfl⟩ := h.tail_cases
      · rfl
      · exact isLocal_readTokenValue.lineEnds rfl h
      · exact isLocal_readTokenValue.lineEnds rfl h
    | cons c text =>
      rw [List.cons_append, readPlain, readPlain, ← List.cons_append]
      split
      · exact ((isLocal_readString.below _).map fun s => Value.string (String.ofList s)).append h (Nat.lt_succ_self _)
      · exact isLocal_readTokenValue.append h

/-- A value without brackets, where `table` reads what comes after a brace. -/
def readBraced (table : List Char → Option (Value × List Char)) (text : List Char) : Option (Value × List Char) :=
  match text with
  | '{' :: rest => table rest
  | text => readPlain text

theorem branches_readBraced (table : List Char → Option (Value × List Char)) :
    Branches '{' (readBraced table) table readPlain where
  hit _ := rfl
  miss text hc := by
    unfold readBraced
    split
    · exact absurd rfl (hc _)
    · rfl

/-- The items of an array and the rest of it after its bracket, where `depth` arrays and tables may nest. -/
def readArray : Nat → List Char → Option (Value × List Char)
  | 0, _ => none
  | depth + 1, rest => (readItems (readValue depth) (rest.length + 1) rest).map fun p => (.array p.1, p.2)

/-- The pairs of an inline table and the rest of it after its brace, where `depth` arrays and tables may nest. -/
def readTable : Nat → List Char → Option (Value × List Char)
  | 0, _ => none
  | depth + 1, rest => readInlineTable (readValue depth) rest

theorem branches_readValue (depth : Nat) :
    Branches '[' (readValue depth) (readArray depth) (readBraced (readTable depth)) where
  hit rest := by cases depth <;> rfl
  miss text hc := by
    match text with
    | [] => cases depth <;> rfl
    | c :: rest =>
      have hbracket : c ≠ '[' := fun heq => hc rest (heq ▸ rfl)
      by_cases hbrace : c = '{'
      · rw [hbrace]
        cases depth <;> rfl
      · rw [(branches_readBraced _).miss _ fun more heq => hbrace (List.cons.inj heq).1, readPlain]
        cases depth <;> simp [readValue]

theorem readValue_nil (depth : Nat) : readValue depth [] = none := by
  cases depth <;> rfl

theorem isLocal_readValue (depth : Nat) : IsLocal (readValue depth) := by
  have hvalue {depth : Nat} (harray : IsLocal (readArray depth)) (htable : IsLocal (readTable depth)) :
      IsLocal (readValue depth) := by
    refine .of_below fun n => ?_
    refine .ofHead (by decide) (by decide) (branches_readValue depth) (branches_readValue depth) (harray.below n) ?_
    exact .ofHead (by decide) (by decide) (branches_readBraced _) (branches_readBraced _) (htable.below n)
      (isLocal_readPlain.below (n + 1))
  induction depth with
  | zero => exact hvalue (.of_below fun n => .none) (.of_below fun n => .none)
  | succ depth ih =>
    refine hvalue (.of_below fun n => ?_) (isLocal_readInlineTable ih)
    exact ((IsLocal.of_fuel (localBelow_readItems ih (readValue_nil depth))).below (n + 1)).map Value.array

/-! ## Statements -/

def readHeader (text : List Char) : Option (Statement × List Char) :=
  match text with
  | '[' :: rest => readKeys maxDepth rest >>= fun p => expect ']' p.2 >>= fun rest => expect ']' rest >>= fun rest =>
      some (.tableItem p.1, rest)
  | rest => readKeys maxDepth rest >>= fun p => expect ']' p.2 >>= fun rest => some (.table p.1, rest)

theorem branches_readHeader : Branches '[' readHeader
    (fun rest => readKeys maxDepth rest >>= fun p => expect ']' p.2 >>= fun rest => expect ']' rest >>= fun rest =>
      some (.tableItem p.1, rest))
    fun rest => readKeys maxDepth rest >>= fun p => expect ']' p.2 >>= fun rest => some (.table p.1, rest) where
  hit _ := rfl
  miss text hc := by
    unfold readHeader
    split
    · exact absurd rfl (hc _)
    · rfl

theorem branches_readStatement : Branches '[' readStatement readHeader
    fun text => (readPair (readValue maxDepth) text).map fun p => (.pair p.1.1 p.1.2, p.2) where
  hit rest := by
    unfold readStatement readHeader
    grind
  miss text hc := by
    unfold readStatement
    split
    · exact absurd rfl (hc _)
    · exact absurd rfl (hc _)
    · rfl

theorem isLocal_readStatement : IsLocal readStatement := by
  have hkeys := isLocal_readKeys maxDepth
  have htable (n : Nat) (statement : Statement) : LocalBelow (n + 1)
      (fun rest => expect ']' rest >>= fun rest => some (statement, rest))
      fun rest => expect ']' rest >>= fun rest => some (statement, rest) :=
    LocalBelow.expect (.pure statement) (by decide) (by decide)
  have hitem (n : Nat) (statement : Statement) : LocalBelow (n + 1)
      (fun rest => expect ']' rest >>= fun rest => expect ']' rest >>= fun rest => some (statement, rest))
      fun rest => expect ']' rest >>= fun rest => expect ']' rest >>= fun rest => some (statement, rest) :=
    ((htable n statement).mono (Nat.le_succ n)).expect (by decide) (by decide)
  have hheader (n : Nat) : LocalBelow (n + 1) readHeader readHeader :=
    .ofHead (by decide) (by decide) branches_readHeader branches_readHeader
      (((hkeys.below (n + 1)).bind fun keys => hitem n (.tableItem keys)).mono (Nat.le_succ n))
      ((hkeys.below (n + 1)).bind fun keys => htable n (.table keys))
  have hpair := (isLocal_readPair (isLocal_readValue maxDepth)).below
  exact .of_below fun n => .ofHead (by decide) (by decide) branches_readStatement branches_readStatement
    ((hheader n).mono (Nat.le_succ n)) ((hpair (n + 1)).map fun p => Statement.pair p.1 p.2)

end MacroDoc.Toml
