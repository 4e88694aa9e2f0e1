import MacroDoc.Proofs.Source.Invocations

/-!
# Fenced code

Fenced code is copied: no call in it is read. The scan looks only at how a line begins, so a line of the code that
begins as a fence does takes the scan out of it, also where it closes nothing.

* `Reaches` : the states of the scan of a source;
* `OpensFence`, `ClosesFence`, `IsFenced` : the lines of fenced code;
* `Reaches.into_fence`, `Reaches.out_of_fence` : what the scan does at lines that begin as a fence;
* `IsFenced.copied_through` : fenced code without such a line is copied, and the scan goes on behind it;
* `IsFenced.leaves`, `IsFenced.not_copied_through` : with such a line it need not be.
-/

namespace MacroDoc

open Text (IsLine)

/-! ## States of the scan -/

/-- The scan of a source comes to `rest` after it has cut `pieces` off, and knows whether a line starts there and
whether fenced code is open. -/
inductive Reaches (source : List Char) : List Piece → Bool → Bool → List Char → Prop
  | start : Reaches source [] true false source
  | step {pieces : List Piece} {lineStart inFence inFence' : Bool} {rest after : List Char} {step : CutStep}
    (h : Reaches source pieces lineStart inFence rest) (hne : rest ≠ [])
    (hstep : cutStep lineStart inFence rest = (step, inFence')) (hrest : rest = sourceOf step.pieces ++ after) :
    Reaches source (pieces ++ step.pieces) step.lineStart inFence' after

theorem sourceOf_cutStep_ne_nil (lineStart inFence : Bool) {rest : List Char} (hne : rest ≠ []) :
    sourceOf (cutStep lineStart inFence rest).1.pieces ≠ [] := by
  -- What a step takes off does not depend on the text before it, so any text will do.
  have hplace : ∃ before, AtPlace before lineStart := by
    cases lineStart with
    | true => exact ⟨[], atPlace_nil⟩
    | false => exact ⟨[] ++ ['x'], atPlace_of_ends [] (by decide)⟩
  obtain ⟨before, hbefore⟩ := hplace
  obtain ⟨after, hcuts⟩ := cuts_cutStep lineStart inFence hne hbefore
  exact hcuts.ne_nil

section Scan

variable {source rest after line : List Char} {pieces : List Piece} {lineStart inFence inFence' : Bool}
  {body : List (List Char)}

/-- What a scan does from a state on depends on the state only. -/
theorem Reaches.cut_eq (h : Reaches source pieces lineStart inFence rest) :
    cut source = pieces ++ cutFrom lineStart inFence rest := by
  induction h with
  | start => rfl
  | @step pieces lineStart inFence inFence' rest after step h hne hstep hrest ih =>
    have hne' := sourceOf_cutStep_ne_nil lineStart inFence hne
    rw [hstep] at hne'
    rw [ih, cutFrom_of_step hstep hne' hrest, List.append_assoc]

/-! ## Lines of a fence -/

def AreLines : List (List Char) → List Char → Prop
  | [], _ => True
  | line :: lines, after => line ≠ [] ∧ IsLine line (lines.flatten ++ after) ∧ AreLines lines after

instance decidableAreLines : (lines : List (List Char)) → (after : List Char) → Decidable (AreLines lines after)
  | [], _ => .isTrue trivial
  | line :: lines, after =>
    have := decidableAreLines lines after
    inferInstanceAs (Decidable (line ≠ [] ∧ IsLine line (lines.flatten ++ after) ∧ AreLines lines after))

theorem areLines_append {a b : List (List Char)} :
    AreLines (a ++ b) after ↔ AreLines a (b.flatten ++ after) ∧ AreLines b after := by
  induction a with
  | nil => simp [AreLines]
  | cons line a ih =>
    simp only [List.cons_append, AreLines, ih, List.flatten_append, List.append_assoc, and_assoc]

/-- The line opens a fence of `n` characters `c`: after blank characters it begins with just so many, at least three.
They are tildes, or backticks with no other backtick on the line. -/
def OpensFence (c : Char) (n : Nat) (line : List Char) : Prop :=
  3 ≤ n ∧ ((Text.trimStart line).takeWhile (· == c)).length = n
    ∧ (c = '~' ∨ c = '`' ∧ '`' ∉ (Text.trimStart line).drop n)

/-- The line closes a fence of `n` characters `c`: without the blank characters around it is made of these, and has no
fewer. -/
def ClosesFence (c : Char) (n : Nat) (line : List Char) : Prop :=
  n ≤ (Text.trim line).length ∧ (Text.trim line).all (· == c)

instance (c : Char) (n : Nat) (line : List Char) : Decidable (OpensFence c n line) :=
  inferInstanceAs (Decidable (_ ∧ _))

instance (c : Char) (n : Nat) (line : List Char) : Decidable (ClosesFence c n line) :=
  inferInstanceAs (Decidable (_ ∧ _))

/-- Fenced code with `after` behind it: the line that opens the fence, the lines up to the first one that closes it,
and this line. If no line closes it, then it goes to the end of the source. -/
structure IsFenced (c : Char) (n : Nat) (opening : List Char) (body closing : List (List Char)) (after : List Char) :
    Prop where
  lines : AreLines (opening :: (body ++ closing)) after
  opens : OpensFence c n opening
  inside : ∀ line ∈ body, ¬ ClosesFence c n line
  closes : (∃ line, closing = [line] ∧ ClosesFence c n line) ∨ closing = [] ∧ after = []

theorem isFenceLine_of_replicate {c : Char} {text : List Char} (hc : c = '~' ∨ c = '`')
    (h : List.replicate 3 c <+: text) : isFenceLine text = true := by
  unfold isFenceLine
  rw [Bool.or_eq_true, List.isPrefixOf_iff_prefix, List.isPrefixOf_iff_prefix]
  rcases hc with rfl | rfl
  · exact .inr h
  · exact .inl h

theorem replicate_isPrefix_of_all {c : Char} {k : Nat} {text : List Char} (hall : text.all (· == c))
    (hk : k ≤ text.length) : List.replicate k c <+: text := by
  rw [List.eq_replicate_of_mem fun d hd => beq_iff_eq.1 (List.all_eq_true.1 hall d hd)]
  exact ⟨List.replicate (text.length - k) c, by rw [List.replicate_append_replicate, Nat.add_sub_cancel' hk]⟩

theorem OpensFence.isFenceLine {c : Char} {n : Nat} (h : OpensFence c n line) :
    isFenceLine (Text.trimStart line) = true := by
  obtain ⟨hn, hrun, hc⟩ := h
  apply isFenceLine_of_replicate (hc.imp_right And.left)
  exact (replicate_isPrefix_of_all List.all_takeWhile (by omega)).trans (List.takeWhile_prefix (· == c))

theorem ClosesFence.isFenceLine {c : Char} {n : Nat} (hn : 3 ≤ n) (hc : c = '~' ∨ c = '`')
    (h : ClosesFence c n line) : isFenceLine (Text.trimStart line) = true := by
  have hstarts : Text.trim line <+: Text.trimStart line := by
    unfold Text.trim Text.trimEnd
    rw [← List.reverse_suffix, List.reverse_reverse]
    exact List.dropWhile_suffix _
  exact isFenceLine_of_replicate hc ((replicate_isPrefix_of_all h.2 (by have := h.1; omega)).trans hstarts)

/-! ## Lines that are copied -/

theorem cutStep_of_isFenceLine (inFence : Bool) (hline : IsLine line after)
    (hfence : isFenceLine (Text.trimStart line) = true) :
    cutStep true inFence (line ++ after) = (⟨[.copied line], true⟩, !inFence) := by
  unfold cutStep
  simp only [hline.take_lineLength, hfence]
  cases inFence <;> rfl

theorem cutStep_of_inFence (hline : IsLine line after) (hfence : isFenceLine (Text.trimStart line) = false) :
    cutStep true true (line ++ after) = (⟨[.copied line], true⟩, true) := by
  unfold cutStep
  simp only [hline.take_lineLength, hfence]
  rfl

theorem Reaches.copied_line (h : Reaches source pieces true inFence (line ++ after)) (hne : line ≠ [])
    (hstep : cutStep true inFence (line ++ after) = (⟨[.copied line], true⟩, inFence')) :
    Reaches source (pieces ++ [.copied line]) true inFence' after :=
  h.step (List.append_ne_nil_of_left_ne_nil hne _) hstep (by simp [Piece.source])

/-- Inside of a fence, lines that do not begin as a fence are copied, and the scan stays inside. -/
theorem Reaches.copied_body (h : Reaches source pieces true true (body.flatten ++ after)) (hlines : AreLines body after)
    (hclear : ∀ line ∈ body, isFenceLine (Text.trimStart line) = false) :
    Reaches source (pieces ++ body.map .copied) true true after := by
  induction body generalizing pieces with
  | nil =>
    rw [List.map_nil, List.append_nil]
    exact h
  | cons line body ih =>
    obtain ⟨hne, hline, hlines⟩ := hlines
    rw [List.flatten_cons, List.append_assoc] at h
    have hnext := h.copied_line hne (cutStep_of_inFence hline (hclear line List.mem_cons_self))
    rw [List.map_cons, List.append_cons]
    exact ih hnext hlines fun line hmem => hclear line (List.mem_cons_of_mem _ hmem)

section Fence

variable {opening ending : List Char} {closing : List (List Char)} {c : Char} {n : Nat}

theorem Reaches.into_fence (h : Reaches source pieces true false ((opening :: body).flatten ++ after))
    (hlines : AreLines (opening :: body) after) (hopening : isFenceLine (Text.trimStart opening) = true)
    (hclear : ∀ line ∈ body, isFenceLine (Text.trimStart line) = false) :
    Reaches source (pieces ++ (opening :: body).map .copied) true true after := by
  obtain ⟨hne, hline, hlines⟩ := hlines
  rw [List.flatten_cons, List.append_assoc] at h
  have hinside := h.copied_line hne (cutStep_of_isFenceLine false hline hopening)
  rw [List.map_cons, List.append_cons]
  exact hinside.copied_body hlines hclear

/-- The scan goes into fenced code at a line that begins as a fence, and leaves it at the next such line. -/
theorem Reaches.out_of_fence (h : Reaches source pieces true false ((opening :: (body ++ [ending])).flatten ++ after))
    (hlines : AreLines (opening :: (body ++ [ending])) after) (hopening : isFenceLine (Text.trimStart opening) = true)
    (hclear : ∀ line ∈ body, isFenceLine (Text.trimStart line) = false)
    (hending : isFenceLine (Text.trimStart ending) = true) :
    Reaches source (pieces ++ (opening :: (body ++ [ending])).map .copied) true false after := by
  rw [← List.cons_append] at h hlines ⊢
  obtain ⟨hlines, hne, hline, -⟩ := areLines_append.1 hlines
  rw [List.flatten_append, List.append_assoc] at h
  have hinside := h.into_fence hlines hopening hclear
  rw [List.flatten_cons, List.append_assoc ending] at hinside
  rw [List.map_append, ← List.append_assoc]
  exact hinside.copied_line hne (cutStep_of_isFenceLine true hline hending)

/-- The scan comes through fenced code if no line inside begins as a fence. -/
theorem IsFenced.reaches (h : IsFenced c n opening body closing after)
    (hreach : Reaches source pieces true false ((opening :: (body ++ closing)).flatten ++ after))
    (hclear : ∀ line ∈ body, isFenceLine (Text.trimStart line) = false) :
    Reaches source (pieces ++ (opening :: (body ++ closing)).map .copied) true closing.isEmpty after := by
  obtain ⟨hlines, hopens, -, ⟨line, rfl, hcloses⟩ | ⟨rfl, rfl⟩⟩ := h
  · have hending := hcloses.isFenceLine hopens.1 (hopens.2.2.imp_right And.left)
    exact hreach.out_of_fence hlines hopens.isFenceLine hclear hending
  · rw [List.append_nil body] at hlines hreach ⊢
    exact hreach.into_fence hlines hopens.isFenceLine hclear

/-- The scan leaves fenced code at the first line inside that begins as a fence, which closes nothing. -/
theorem IsFenced.leaves {front later : List (List Char)}
    (h : IsFenced c n opening (front ++ line :: later) closing after)
    (hreach : Reaches source pieces true false ((opening :: (front ++ line :: later ++ closing)).flatten ++ after))
    (hclear : ∀ line ∈ front, isFenceLine (Text.trimStart line) = false)
    (hline : isFenceLine (Text.trimStart line) = true) :
    Reaches source (pieces ++ (opening :: (front ++ [line])).map .copied) true false
      ((later ++ closing).flatten ++ after) := by
  have hlines := h.lines
  have hsplit : opening :: (front ++ line :: later ++ closing)
      = opening :: (front ++ [line]) ++ (later ++ closing) := by simp
  rw [hsplit] at hlines hreach
  rw [List.flatten_append, List.append_assoc] at hreach
  exact hreach.out_of_fence (areLines_append.1 hlines).1 h.opens.isFenceLine hclear hline

end Fence

end Scan

/-! ## What lines that are copied yield -/

section Copied

variable {dialect : Dialect} {fileId place number : Nat} {text : List Char} {pieces rest : List Piece}
  {lines : List (List Char)}

@[simp] theorem sourceOf_map_copied (lines : List (List Char)) : sourceOf (lines.map .copied) = lines.flatten := by
  induction lines with
  | nil => rfl
  | cons line lines ih => rw [List.map_cons, sourceOf_cons, ih, List.flatten_cons, Piece.source]

theorem callsFrom_append (dialect : Dialect) (place : Nat) (a b : List Piece) :
    callsFrom dialect place (a ++ b)
      = callsFrom dialect place a ++ callsFrom dialect (place + Text.byteLength (sourceOf a)) b :=
  collect_append (callsFrom dialect) (fun _ => rfl) (fun _ piece _ => by cases piece <;> rfl) place a b

theorem callsFrom_map_copied (dialect : Dialect) (place : Nat) (lines : List (List Char)) :
    callsFrom dialect place (lines.map .copied) = [] := by
  induction lines generalizing place with
  | nil => rfl
  | cons line lines ih =>
    rw [List.map_cons, callsFrom, ih]
    rfl

theorem sourceErrorsFrom_append (fileId place : Nat) (a b : List Piece) :
    sourceErrorsFrom fileId place (a ++ b)
      = sourceErrorsFrom fileId place a ++ sourceErrorsFrom fileId (place + Text.byteLength (sourceOf a)) b :=
  collect_append (sourceErrorsFrom fileId) (fun _ => rfl) (fun _ piece _ => by cases piece <;> rfl) place a b

theorem sourceErrorsFrom_map_copied (fileId place : Nat) (lines : List (List Char)) :
    sourceErrorsFrom fileId place (lines.map .copied) = [] := by
  induction lines generalizing place with
  | nil => rfl
  | cons line lines ih =>
    unfold sourceErrorsFrom
    exact ih _

theorem segmentsFrom_of_ne_nil (dialect : Dialect) (place number : Nat) (pieces : List Piece) (h : text ≠ []) :
    ∃ back later, segmentsFrom dialect place number text pieces = .markup (text ++ back) :: later := by
  have hmarkup {text : List Char} (h : text ≠ []) : markupSegment text = [.markup text] := by
    unfold markupSegment
    rw [if_neg (by simpa using h)]
  induction pieces generalizing place number text with
  | nil => exact ⟨[], [], by rw [segmentsFrom, hmarkup h, List.append_nil]⟩
  | cons piece pieces ih =>
    unfold segmentsFrom
    cases piece with
    | copied copied =>
      obtain ⟨back, later, hseg⟩ :=
        ih (place + Text.byteLength copied) number (List.append_ne_nil_of_left_ne_nil h copied)
      exact ⟨copied ++ back, later, by rw [← List.append_assoc]; exact hseg⟩
    | inlineCall call written =>
      obtain ⟨back, later, hseg⟩ :=
        ih (place + Text.byteLength written) (number + 1) (List.append_ne_nil_of_left_ne_nil h (placeholder number))
      exact ⟨placeholder number ++ back, later, by rw [← List.append_assoc]; exact hseg⟩
    | standalone blanks call written tail =>
      dsimp only
      rw [hmarkup h]
      exact ⟨[], _, by rw [List.append_nil]; rfl⟩
    | faulty blanks error written => exact ih _ _ h

theorem segmentsFrom_map_copied (dialect : Dialect) (place number : Nat) (text : List Char) (lines : List (List Char))
    (rest : List Piece) :
    segmentsFrom dialect place number text (lines.map .copied ++ rest)
      = segmentsFrom dialect (place + Text.byteLength lines.flatten) number (text ++ lines.flatten) rest := by
  induction lines generalizing place text with
  | nil => simp [Text.byteLength]
  | cons line lines ih =>
    rw [List.map_cons, List.cons_append, segmentsFrom]
    dsimp only [Piece.source]
    rw [ih, List.flatten_cons, Text.byteLength_append, Nat.add_assoc, List.append_assoc]

/-- Lines that are copied stand in the Markdown of one segment. -/
theorem exists_segment_of_copied (dialect : Dialect) (place number : Nat) (text : List Char) (pieces rest : List Piece)
    (h : lines.flatten ≠ []) :
    ∃ earlier front back later, segmentsFrom dialect place number text (pieces ++ (lines.map .copied ++ rest))
      = earlier ++ .markup (front ++ (lines.flatten ++ back)) :: later := by
  induction pieces generalizing place number text with
  | nil =>
    obtain ⟨back, later, hseg⟩ := segmentsFrom_of_ne_nil dialect (place + Text.byteLength lines.flatten) number rest
      (List.append_ne_nil_of_right_ne_nil text h)
    refine ⟨[], text, back, later, ?_⟩
    rw [List.nil_append, segmentsFrom_map_copied, hseg, List.append_assoc]
    rfl
  | cons piece pieces ih =>
    rw [List.cons_append]
    unfold segmentsFrom
    cases piece with
    | copied copied => exact ih _ _ _
    | inlineCall call written => exact ih _ _ _
    | faulty blanks error written => exact ih _ _ _
    | standalone blanks call written tail =>
      obtain ⟨earlier, front, back, later, hseg⟩ :=
        ih (place + Text.byteLength (blanks ++ written ++ tail)) number []
      dsimp only [Piece.source]
      rw [hseg, ← List.cons_append, ← List.append_assoc]
      exact ⟨_, front, back, later, rfl⟩

end Copied

/-! ## Fenced code -/

section Fenced

variable {source opening after : List Char} {body closing : List (List Char)} {pieces : List Piece} {c : Char} {n : Nat}

/-- Fenced code that the scan comes to is copied into the Markdown unchanged, yields no call and no error, and is left
at its end, provided that no line inside begins as a fence without closing it. -/
theorem IsFenced.copied_through (h : IsFenced c n opening body closing after)
    (hreach : Reaches source pieces true false ((opening :: (body ++ closing)).flatten ++ after))
    (hclear : ∀ line ∈ body, isFenceLine (Text.trimStart line) = false) (dialect : Dialect) (fileId : Nat) :
    let lines := opening :: (body ++ closing)
    let place := Text.byteLength (sourceOf pieces) + Text.byteLength lines.flatten
    Reaches source (pieces ++ lines.map .copied) true closing.isEmpty after
      ∧ cut source = pieces ++ (lines.map .copied ++ cutFrom true false after)
      ∧ (∃ earlier front back later, segments dialect (cut source)
          = earlier ++ .markup (front ++ (lines.flatten ++ back)) :: later)
      ∧ callsFrom dialect 0 (cut source)
          = callsFrom dialect 0 pieces ++ callsFrom dialect place (cutFrom true false after)
      ∧ sourceErrors fileId (cut source)
          = sourceErrorsFrom fileId 0 pieces ++ sourceErrorsFrom fileId place (cutFrom true false after) := by
  intro lines place
  have hthrough := h.reaches hreach hclear
  -- A fence that is left open ends with the source, where it does not matter whether one is open.
  have hrest : cutFrom true closing.isEmpty after = cutFrom true false after := by
    rcases h.closes with ⟨line, rfl, -⟩ | ⟨-, rfl⟩
    · rfl
    · rw [cutFrom, cutFrom]
  have hcut : cut source = pieces ++ (lines.map .copied ++ cutFrom true false after) := by
    rw [hthrough.cut_eq, hrest, List.append_assoc]
  have hne : lines.flatten ≠ [] := List.append_ne_nil_of_left_ne_nil h.lines.1 _
  refine ⟨hthrough, hcut, ?_, ?_, ?_⟩
  · rw [hcut]
    exact exists_segment_of_copied dialect 0 0 [] pieces _ hne
  · rw [hcut, callsFrom_append, callsFrom_append, callsFrom_map_copied, sourceOf_map_copied, Nat.zero_add,
      List.nil_append]
  · rw [hcut, sourceErrors, sourceErrorsFrom_append, sourceErrorsFrom_append, sourceErrorsFrom_map_copied,
      sourceOf_map_copied, Nat.zero_add, List.nil_append]

end Fenced

/-- Code behind a line of text, with a call that is not completed inside of it, and a call behind it. -/
theorem IsFenced.copied_through_tildes :
    let opening := " ~~~~ `x`\n".toList
    let body := ["\x7b\x7ba\n".toList, "~\n".toList]
    let closing := ["~~~~~ \n".toList]
    let after := "\x7b\x7bb/\x7d\x7d".toList
    let source := "x\n".toList ++ ((opening :: (body ++ closing)).flatten ++ after)
    let b : Invocation := ⟨⟨"b", .empty, none⟩, .default, some ⟨25, 31⟩⟩
    IsFenced '~' 4 opening body closing after
      ∧ Reaches source [.copied "x\n".toList] true false ((opening :: (body ++ closing)).flatten ++ after)
      ∧ callsFrom .default 0 (cut source) = [b] ∧ sourceErrors 0 (cut source) = [] := by
  intro opening body closing after source b
  have hfenced : IsFenced '~' 4 opening body closing after :=
    { lines := by decide +kernel
      opens := by decide +kernel
      inside := by decide +kernel
      closes := .inl ⟨_, rfl, by decide +kernel⟩ }
  have hreach : Reaches source [.copied "x\n".toList] true false ((opening :: (body ++ closing)).flatten ++ after) :=
    Reaches.start.step (by simp [source]) rfl rfl
  obtain ⟨-, -, -, hcalls, herrors⟩ := hfenced.copied_through hreach (by decide +kernel) .default 0
  refine ⟨hfenced, hreach, ?_, ?_⟩
  · rw [hcalls]
    decide +kernel
  · rw [herrors]
    exact List.eq_nil_of_length_eq_zero (by decide +kernel)

/-- A call in fenced code can be read: the scan leaves backticks at a line that begins with tildes. -/
theorem IsFenced.not_copied_through :
    ¬ ∀ (c : Char) (n : Nat) (opening : List Char) (body closing : List (List Char)),
      IsFenced c n opening body closing [] →
        callsFrom .default 0 (cut (opening :: (body ++ closing)).flatten) = [] := by
  intro h
  have hfenced : IsFenced '`' 3 "```\n".toList ["~~~\n".toList, "\x7b\x7ba/\x7d\x7d\n".toList] ["```\n".toList] [] :=
    { lines := by decide +kernel
      opens := by decide +kernel
      inside := by decide +kernel
      closes := .inl ⟨_, rfl, by decide +kernel⟩ }
  exact absurd (h _ _ _ _ _ hfenced) (by decide +kernel)

end MacroDoc
