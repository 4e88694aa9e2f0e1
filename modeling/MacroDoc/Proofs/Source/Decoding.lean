import MacroDoc.Proofs.Source.Placeholders

/-!
# Placeholders of calls that were cut out

A text in which placeholders stand for the calls of a table is read back without loss. Nothing that stands before or
behind a placeholder is taken for a part of it, be it another placeholder or a stray end mark, and the text between two
of them is split into words as a whole.

* `readPlaceholder?_placeholder` : the placeholder of a number is read, whatever comes behind it;
* `Chunk`, `Chunk.between` : what such a text is put together from, and the same with its texts joined;
* `textParts_marked` : the parts of the text;
* `writtenText_marked`, `textLeaves_marked` : what is put back for it, and the leaves it adds;
* `Builder.decodes_marked` : both for a builder.
-/

namespace MacroDoc

/-! ## Numbers -/

theorem digitsNumber?_append (n : Nat) (xs ys : List Char) :
    digitsNumber? n (xs ++ ys) = digitsNumber? n xs >>= (digitsNumber? · ys) := by
  induction xs generalizing n with
  | nil => rfl
  | cons c xs ih =>
    rw [List.cons_append, digitsNumber?, digitsNumber?]
    split
    · exact ih _
    · rfl

theorem toNat_placeholderDigit :
    ∀ d < 10, (placeholderDigit d.digitChar).toNat = placeholderZero + d := by
  decide

theorem digitsNumber?_digitChar (n : Nat) {d : Nat} (h : d < 10) :
    digitsNumber? n [placeholderDigit d.digitChar] = some (10 * n + d) := by
  have hdigit : (decide (placeholderZero ≤ placeholderZero + d)
      && decide (placeholderZero + d ≤ placeholderZero + 9)) = true := by
    simp only [Bool.and_eq_true, decide_eq_true_eq]
    omega
  rw [digitsNumber?, toNat_placeholderDigit d h, if_pos hdigit, digitsNumber?, Nat.add_sub_cancel_left, Nat.mul_comm]

theorem digitsNumber?_toDigits (n : Nat) : digitsNumber? 0 ((Nat.toDigits 10 n).map placeholderDigit) = some n := by
  induction n using Nat.strongRecOn with
  | ind n ih =>
    by_cases hn : n < 10
    · rw [Nat.toDigits_of_lt_base hn]
      simpa using digitsNumber?_digitChar 0 hn
    · rw [Nat.toDigits_of_base_le (by decide) (Nat.not_lt.1 hn), List.map_append, digitsNumber?_append,
        ih (n / 10) (by omega)]
      refine (digitsNumber?_digitChar (n / 10) (Nat.mod_lt n (by decide))).trans ?_
      rw [Nat.div_add_mod]

theorem readNumber?_placeholder {n : Nat} (h : n < maxNumber) (rest : List Char) :
    readNumber? ((placeholder n).tail ++ rest) = some (n, (placeholder n).tail.length) := by
  have hread := readNumber?_of_digits rest (digitsNumber?_toDigits n) h
  simpa [placeholder] using hread

theorem placeholder_eq_cons (n : Nat) : placeholder n = placeholderStart :: (placeholder n).tail :=
  rfl

/-- Read a placeholder at the start of a text: its number, and how many bytes it has. -/
def readPlaceholder? : List Char → Option (Nat × Nat)
  | [] => none
  | c :: cs =>
    if c = placeholderStart then
      (readNumber? cs).map fun (n, length) => (n, Text.byteLength (c :: cs.take length))
    else none

theorem readPlaceholder?_placeholder {n : Nat} (h : n < maxNumber) (rest : List Char) :
    readPlaceholder? (placeholder n ++ rest) = some (n, Text.byteLength (placeholder n)) := by
  rw [placeholder_eq_cons, List.cons_append, readPlaceholder?, if_pos rfl, readNumber?_placeholder h, Option.map_some]
  dsimp only
  rw [List.take_left]

theorem textParts_placeholder {n : Nat} (h : n < maxNumber) (rest : List Char) :
    textParts (placeholder n ++ rest) = .call n :: textParts rest := by
  rw [placeholder_eq_cons, List.cons_append, textParts, if_pos rfl, readNumber?_placeholder h]
  dsimp only
  rw [List.drop_left]

/-! ## Chunks -/

/-- What a text with placeholders is put together from: text in which no mark begins a placeholder, and entries of a
table of calls. -/
inductive Chunk (size : Nat) where
  | text (chars : List Char) (unmarked : placeholderStart ∉ chars)
  | entry (i : Fin size)

namespace Chunk

variable {size : Nat}

/-- The chunk with a placeholder for its entry. -/
def marked : Chunk size → List Char
  | text chars _ => chars
  | entry i => placeholder i

def source (calls : List CutCall) : Chunk calls.length → List Char
  | text chars _ => chars
  | entry i => calls[i].text

def entry? : Chunk size → Option (Fin size)
  | text _ _ => none
  | entry i => some i

/-- The text in front of the first entry, and each entry with the text behind it. Texts side by side are one text. -/
def between : List (Chunk size) → List Char × List (Fin size × List Char)
  | [] => ([], [])
  | text chars _ :: chunks => (chars ++ (between chunks).1, (between chunks).2)
  | entry i :: chunks => ([], (i, (between chunks).1) :: (between chunks).2)

theorem map_fst_between (chunks : List (Chunk size)) : (between chunks).2.map (·.1) = chunks.filterMap entry? := by
  induction chunks with
  | nil => rfl
  | cons chunk chunks ih =>
    cases chunk with
    | text chars h => exact ih
    | entry i => rw [between, List.map_cons, ih]; rfl

end Chunk

/-! ## Parts -/

def plainParts : List Char → List TextPart
  | [] => []
  | text => [.plain text]

def entryParts {size : Nat} (entries : List (Fin size × List Char)) : List TextPart :=
  entries.flatMap fun entry => .call entry.1 :: plainParts entry.2

section Parts

variable {size : Nat} {text rest between : List Char} {entries : List (Fin size × List Char)}

theorem consPlain_plainParts (c : Char) (text : List Char) (entries : List (Fin size × List Char)) :
    consPlain c (plainParts text ++ entryParts entries) = plainParts (c :: text) ++ entryParts entries := by
  cases text with
  | cons d text => rfl
  | nil => cases entries <;> rfl

theorem textParts_append (h : placeholderStart ∉ text)
    (hrest : textParts rest = plainParts between ++ entryParts entries) :
    textParts (text ++ rest) = plainParts (text ++ between) ++ entryParts entries := by
  induction text with
  | nil => exact hrest
  | cons c text ih =>
    obtain ⟨hc, htext⟩ := not_or.1 (mt List.mem_cons.2 h)
    rw [List.cons_append, textParts, if_neg (Ne.symm hc), ih htext, consPlain_plainParts]
    rfl

theorem textParts_marked (hsize : size ≤ maxNumber) (chunks : List (Chunk size)) :
    textParts (chunks.flatMap Chunk.marked) =
      plainParts (Chunk.between chunks).1 ++ entryParts (Chunk.between chunks).2 := by
  induction chunks with
  | nil => rw [List.flatMap_nil, textParts]; rfl
  | cons chunk chunks ih =>
    rw [List.flatMap_cons]
    cases chunk with
    | text chars h => exact textParts_append h ih
    | entry i =>
      rw [Chunk.marked, textParts_placeholder (Nat.lt_of_lt_of_le i.isLt hsize), ih]
      rfl

end Parts

/-! ## Putting back -/

section Written

variable {calls : List CutCall}

theorem writtenText_append {text : List Char} (h : placeholderStart ∉ text) (rest : List Char) :
    writtenText calls (text ++ rest) = text ++ writtenText calls rest := by
  induction text with
  | nil => rfl
  | cons c text ih =>
    obtain ⟨hc, htext⟩ := not_or.1 (mt List.mem_cons.2 h)
    rw [List.cons_append, writtenText_cons (Ne.symm hc), ih htext, List.cons_append]

theorem writtenText_placeholder {n : Nat} (h : n < maxNumber) (rest : List Char) :
    writtenText calls (placeholder n ++ rest) = writtenPart calls (.call n) ++ writtenText calls rest := by
  rw [writtenText, textParts_placeholder h, List.flatMap_cons, writtenText]

/-- Entries are put back as they were written, and texts stay as they are. -/
theorem writtenText_marked (hsize : calls.length ≤ maxNumber) (chunks : List (Chunk calls.length)) :
    writtenText calls (chunks.flatMap Chunk.marked) = chunks.flatMap (Chunk.source calls) := by
  induction chunks with
  | nil => rw [List.flatMap_nil, writtenText, textParts]; rfl
  | cons chunk chunks ih =>
    rw [List.flatMap_cons, List.flatMap_cons, ← ih]
    cases chunk with
    | text chars h => exact writtenText_append h _
    | entry i =>
      rw [Chunk.marked, writtenText_placeholder (Nat.lt_of_lt_of_le i.isLt hsize), writtenPart]
      simp [Chunk.source]

end Written

/-! ## Calls that are taken -/

/-- The table after the entries have been taken. -/
def takenCalls (calls : List CutCall) (entries : List (Fin calls.length)) : List CutCall :=
  List.ofFn fun i : Fin calls.length => if i ∈ entries then { calls[i] with invocation := none } else calls[i]

/-- The invocation of an entry after other entries have been taken, if it still waits. -/
def awaited? (calls : List CutCall) (entries : List (Fin calls.length)) (i : Fin calls.length) : Option Invocation :=
  if i ∈ entries then none else calls[i].invocation

section Taken

variable {calls : List CutCall} (seen : List (Fin calls.length))

theorem takenCalls_nil (calls : List CutCall) : takenCalls calls [] = calls := by
  simp [takenCalls]

theorem invocation_takenCalls (i : Fin calls.length) :
    ((takenCalls calls seen)[i.val]?).bind (·.invocation) = awaited? calls seen i := by
  simp only [takenCalls, List.getElem?_ofFn, i.isLt, dif_pos, Option.bind_some, awaited?]
  split <;> rfl

theorem useCall_takenCalls (i : Fin calls.length) :
    useCall (takenCalls calls seen) i = takenCalls calls (seen ++ [i]) := by
  refine List.ext_getElem (by simp [useCall, takenCalls]) fun j hj hj' => ?_
  have hlength : j < calls.length := by simpa [takenCalls] using hj'
  simp only [useCall, takenCalls, List.getElem_modify, List.getElem_ofFn]
  by_cases hi : i = ⟨j, hlength⟩
  · rw [if_pos (congrArg Fin.val hi), if_pos (List.mem_append_right _ (List.mem_singleton.2 hi.symm))]
    split <;> rfl
  · have hmem : (⟨j, hlength⟩ ∈ seen ++ [i]) = (⟨j, hlength⟩ ∈ seen) := by simp [Ne.symm hi]
    rw [if_neg fun h => hi (Fin.ext h)]
    simp only [hmem]

theorem useCall_of_none {n : Nat} (h : (calls[n]?).bind (·.invocation) = none) : useCall calls n = calls := by
  refine List.ext_getElem? fun j => ?_
  rw [useCall, List.getElem?_modify]
  by_cases hn : n = j
  · subst hn
    cases hcall : calls[n]? with
    | none => rfl
    | some call =>
      have hinvocation : call.invocation = none := by simpa [hcall] using h
      simp [← hinvocation]
  · simp [hn]

theorem partLeaves_call (calls : List CutCall) (n : Nat) :
    partLeaves calls (.call n) = (((calls[n]?).bind (·.invocation)).toList.map .invocation, useCall calls n) := by
  unfold partLeaves
  dsimp only
  split
  · next i h => rw [h]; rfl
  · next h => rw [h, useCall_of_none h]; rfl

/-- Adding parts takes the same calls as putting them back. -/
theorem snd_partsLeaves (calls : List CutCall) (parts : List TextPart) :
    (partsLeaves calls parts).2 = parts.foldl takePart calls := by
  induction parts generalizing calls with
  | nil => rfl
  | cons part parts ih =>
    have hpart : (partLeaves calls part).2 = takePart calls part := by
      cases part with
      | call n => rw [partLeaves_call]; rfl
      | plain | stray => rfl
    rw [List.foldl_cons, ← hpart, ← ih]
    rfl

theorem foldl_takePart_plainParts (calls : List CutCall) (text : List Char) (parts : List TextPart) :
    (plainParts text ++ parts).foldl takePart calls = parts.foldl takePart calls := by
  cases text <;> rfl

theorem foldl_takePart_entryParts (entries : List (Fin calls.length × List Char)) :
    (entryParts entries).foldl takePart (takenCalls calls seen) = takenCalls calls (seen ++ entries.map (·.1)) := by
  induction entries generalizing seen with
  | nil => rw [List.map_nil, List.append_nil]; rfl
  | cons entry entries ih =>
    rw [entryParts, List.flatMap_cons, List.cons_append, List.foldl_cons, foldl_takePart_plainParts, takePart,
      useCall_takenCalls, ← entryParts, ih, List.map_cons, List.append_assoc]
    rfl

theorem takeText_marked (hsize : calls.length ≤ maxNumber) (chunks : List (Chunk calls.length)) :
    takeText calls (chunks.flatMap Chunk.marked) = takenCalls calls (chunks.filterMap Chunk.entry?) := by
  have htaken := foldl_takePart_entryParts [] (Chunk.between chunks).2
  rw [takenCalls_nil, List.nil_append, Chunk.map_fst_between] at htaken
  rw [takeText, textParts_marked hsize, foldl_takePart_plainParts, htaken]

end Taken

/-! ## Leaves -/

/-- The leaves of entries with the text behind each, after other entries. An entry adds its invocation where it comes
for the first time, and nothing if that does not wait. -/
def entryLeaves (calls : List CutCall) (seen : List (Fin calls.length)) :
    List (Fin calls.length × List Char) → List Leaf
  | [] => []
  | (i, text) :: entries =>
    (awaited? calls seen i).toList.map .invocation ++ wordLeaves text ++ entryLeaves calls (seen ++ [i]) entries

/-- The leaves of chunks: the words of the text between two entries, and the invocations. -/
def chunkLeaves (calls : List CutCall) (chunks : List (Chunk calls.length)) : List Leaf :=
  wordLeaves (Chunk.between chunks).1 ++ entryLeaves calls [] (Chunk.between chunks).2

section Leaves

variable {calls : List CutCall}

theorem fst_partsLeaves_plainParts (calls : List CutCall) (text : List Char) (parts : List TextPart) :
    (partsLeaves calls (plainParts text ++ parts)).1 = wordLeaves text ++ (partsLeaves calls parts).1 := by
  cases text <;> rfl

/-- What was seen before is what has been taken from the table. -/
theorem fst_partsLeaves_entryParts (seen : List (Fin calls.length)) (entries : List (Fin calls.length × List Char)) :
    (partsLeaves (takenCalls calls seen) (entryParts entries)).1 = entryLeaves calls seen entries := by
  induction entries generalizing seen with
  | nil => rfl
  | cons entry entries ih =>
    obtain ⟨i, text⟩ := entry
    rw [entryParts, List.flatMap_cons, List.cons_append, ← entryParts, partsLeaves, partLeaves_call,
      invocation_takenCalls, useCall_takenCalls]
    dsimp only
    rw [fst_partsLeaves_plainParts, ih, entryLeaves, List.append_assoc]

/-- A text adds the leaves of its chunks, and takes its entries. -/
theorem textLeaves_marked (hsize : calls.length ≤ maxNumber) (chunks : List (Chunk calls.length)) :
    textLeaves calls (chunks.flatMap Chunk.marked) =
      (chunkLeaves calls chunks, takenCalls calls (chunks.filterMap Chunk.entry?)) := by
  refine Prod.ext ?_ ((snd_partsLeaves calls _).trans (takeText_marked hsize chunks))
  have hleaves := fst_partsLeaves_entryParts [] (Chunk.between chunks).2
  rw [takenCalls_nil] at hleaves
  rw [textLeaves, textParts_marked hsize, fst_partsLeaves_plainParts, hleaves, chunkLeaves]

end Leaves

/-- For any table that fits into a memory and any chunks: the text with the placeholders is put back as the chunks were
written; added, it adds the words of the text between its entries, and for each entry the invocation, if that waits and
the entry comes for the first time. Either way all its entries are taken. The placeholder of any machine word is read,
and what comes behind it is read as if it stood alone. -/
theorem Builder.decodes_marked (b : Builder) (hsize : b.calls.length ≤ maxNumber)
    (chunks : List (Chunk b.calls.length)) :
    let marked := chunks.flatMap Chunk.marked
    let taken := takenCalls b.calls (chunks.filterMap Chunk.entry?)
    b.restore marked = (chunks.flatMap (Chunk.source b.calls), { b with calls := taken }) ∧
    b.pushText marked = { b.pushAll ((chunkLeaves b.calls chunks).map .leaf) with calls := taken } ∧
    ∀ i rest, i < maxNumber →
      readPlaceholder? (placeholder i ++ rest) = some (i, Text.byteLength (placeholder i)) ∧
      textParts (placeholder i ++ rest) = .call i :: textParts rest := by
  intro marked taken
  refine ⟨?_, ?_, fun i rest hi => ⟨readPlaceholder?_placeholder hi rest, textParts_placeholder hi rest⟩⟩
  · rw [restore_eq, writtenText_marked hsize, takeText_marked hsize]
  · rw [pushText_eq, textLeaves_marked hsize]
    rfl

/-- The first of two calls still waits and its entry comes twice; the second has been taken. Text between the entries
begins with a stray end mark, and one entry stands right behind another. -/
theorem Builder.decodes_marked_twice :
    let a : Invocation := ⟨⟨"a", .empty, none⟩, .default, none⟩
    let calls : List CutCall := [⟨some a, "\x7b\x7ba/\x7d\x7d".toList⟩, ⟨none, "\x7b\x7bb/\x7d\x7d".toList⟩]
    let b : Builder := ⟨[], [], calls, none, none⟩
    let chunks : List (Chunk b.calls.length) :=
      [.entry 0, .text [placeholderEnd] (by decide), .text ['x'] (by decide), .entry 0, .entry 1,
        .text ['y'] (by decide)]
    let marked := chunks.flatMap Chunk.marked
    b.calls.length ≤ maxNumber ∧
      (b.restore marked).1 = "\x7b\x7ba/\x7d\x7d\uE001x\x7b\x7ba/\x7d\x7d\x7b\x7bb/\x7d\x7dy".toList ∧
      (b.pushText marked).blocks.reverse =
        [.leaf (.invocation a), .leaf (.symbol placeholderEnd), .leaf (.word "x"), .leaf (.word "y")] ∧
      maxNumber - 1 < maxNumber ∧
      readPlaceholder? (placeholder (maxNumber - 1) ++ placeholder 0)
        = some (maxNumber - 1, Text.byteLength (placeholder (maxNumber - 1))) := by
  intro a calls b chunks marked
  have hsize : b.calls.length ≤ maxNumber := by decide
  have hlast : maxNumber - 1 < maxNumber := by decide
  obtain ⟨hrestore, hpush, hread⟩ := b.decodes_marked hsize chunks
  refine ⟨hsize, ?_, ?_, hlast, (hread _ _ hlast).1⟩
  · rw [hrestore]
    decide
  · rw [hpush]
    decide +kernel

end MacroDoc
