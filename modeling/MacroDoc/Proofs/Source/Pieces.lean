import MacroDoc.Proofs.Call.Content
import MacroDoc.Proofs.Source.Lines
import MacroDoc.Source.Cut

/-!
# Pieces of a source

Each step of the cutting takes pieces off the start of what is left, and they say the truth about the place that they
stand at.

* `sourceOf` : the text that pieces were cut from;
* `StandsAlone` : a call that has its lines to itself;
* `Piece.Fits` : what a piece says about the text before and after it;
* `InlineStep`, `LineStep` : what one step can cut off;
* `Cuts` : what every step does;
* `sourceOf_cut`, `piecesFit_cut` : the pieces of a source make it up, and each fits its place.
-/

namespace MacroDoc

open Call (openMark closeMark closingTag)
open Text (IsLine lastLine firstLine isBlankText)

/-- The text that pieces were cut from. -/
def sourceOf (pieces : List Piece) : List Char :=
  pieces.flatMap Piece.source

/-- A call with `before` in front of it and `after` behind it has its lines to itself: on the line that it starts in
there is nothing but blank characters before it, and on the line that it ends in nothing but those after it. -/
def StandsAlone (before after : List Char) : Prop :=
  isBlankText (lastLine before) ∧ isBlankText (firstLine after)

/-- What a piece says about the text before it and after it. A call is what is read where it starts, and it is
standalone exactly if it stands alone; a standalone call comes with all of its first line before it, and all of its
last line after it. -/
def Piece.Fits (before after : List Char) : Piece → Prop
  | copied _ => True
  | inlineCall call text => readCall (text ++ after) = .ok (some ⟨call, text.length⟩) ∧ ¬ StandsAlone before after
  | standalone blanks call text tail =>
    readCall (text ++ (tail ++ after)) = .ok (some ⟨call, text.length⟩) ∧ StandsAlone (before ++ blanks) (tail ++ after)
      ∧ lastLine (before ++ blanks) = blanks ∧ IsLine tail after
  | faulty _ error text => readCall (text ++ after) = .error error

def PiecesFit (before : List Char) : List Piece → List Char → Prop
  | [], _ => True
  | piece :: pieces, after =>
    piece.Fits before (sourceOf pieces ++ after) ∧ PiecesFit (before ++ piece.source) pieces after

@[simp] theorem sourceOf_nil : sourceOf [] = [] := rfl

@[simp] theorem sourceOf_cons (piece : Piece) (pieces : List Piece) :
    sourceOf (piece :: pieces) = piece.source ++ sourceOf pieces :=
  List.flatMap_cons

@[simp] theorem sourceOf_append (a b : List Piece) : sourceOf (a ++ b) = sourceOf a ++ sourceOf b :=
  List.flatMap_append

theorem piecesFit_append {before after : List Char} {a b : List Piece} :
    PiecesFit before (a ++ b) after
      ↔ PiecesFit before a (sourceOf b ++ after) ∧ PiecesFit (before ++ sourceOf a) b after := by
  induction a generalizing before with
  | nil => simp [PiecesFit]
  | cons piece a ih =>
    simp only [List.cons_append, PiecesFit, ih, sourceOf_append, sourceOf_cons, List.append_assoc, and_assoc]

/-! ## The call at a place -/

/-- A call ends with a brace, and takes up no more than the text. -/
theorem exists_append_of_readCall {text : List Char} {p : ReadCall} (h : readCall text = .ok (some p)) :
    ∃ chars after, text = chars ++ after ∧ p.length = chars.length ∧ closeMark <:+ chars := by
  obtain ⟨chars, tag, rest, htag, rfl, ⟨-, rfl⟩ | ⟨-, content, after, -, rfl, -, rfl⟩⟩ := exists_of_readCall h
  · exact ⟨chars, rest, rfl, rfl, htag.closeMark_suffix⟩
  · refine ⟨chars ++ (content ++ closingTag tag.identifier.toList), after, by simp, by simp [Nat.add_assoc], ?_⟩
    exact (List.suffix_append _ _).trans ((List.suffix_append _ _).trans (List.suffix_append _ _))

/-! ## What one step can cut off -/

def copiedText (text : List Char) : List Piece :=
  if text.isEmpty then [] else [.copied text]

@[simp] theorem sourceOf_copiedText (text : List Char) : sourceOf (copiedText text) = text := by
  cases text with
  | nil => rfl
  | cons c cs => exact List.append_nil _

theorem piecesFit_copiedText (before text after : List Char) : PiecesFit before (copiedText text) after := by
  cases text with
  | nil => exact trivial
  | cons c cs => exact ⟨trivial, trivial⟩

/-- What can be cut off inside a line that goes on with `plain` up to its first brace or backtick, with `left` from
there on, and with `after` behind it. -/
inductive InlineStep (plain left after : List Char) : CutStep → Prop
  | line (hleft : left = []) : InlineStep plain left after ⟨[.copied plain], true⟩
  | copied {front later : List Char} {c : Char} (hleft : left = front ++ [c] ++ later) (hc : Text.isBlank c = false) :
    InlineStep plain left after ⟨copiedText plain ++ [.copied (front ++ [c])], false⟩
  | call {p : ReadCall} (hopen : openMark <+: left) (hread : readCall (left ++ after) = .ok (some p)) :
    InlineStep plain left after ⟨copiedText plain ++ [.inlineCall p.call ((left ++ after).take p.length)], false⟩
  | faulty {e : CallError} (hread : readCall (left ++ after) = .error e) :
    InlineStep plain left after ⟨copiedText plain ++ [.faulty [] e left], true⟩

/-- What can be cut off at the start of `line`, which is outside of fenced code. A call that is not standalone is cut
off as inside of a line, and then something stands on its lines beside it. -/
inductive LineStep (line after : List Char) : CutStep → Prop
  | standalone {blanks left tail later : List Char} {p : ReadCall} (hline : line = blanks ++ left)
    (hopen : openMark <+: left) (hblanks : isBlankText blanks) (hread : readCall (left ++ after) = .ok (some p))
    (hafter : (left ++ after).drop p.length = tail ++ later) (htail : IsLine tail later) (hblank : isBlankText tail) :
    LineStep line after ⟨[.standalone blanks p.call ((left ++ after).take p.length) tail], true⟩
  | faulty {blanks left : List Char} {e : CallError} (hline : line = blanks ++ left)
    (hread : readCall (left ++ after) = .error e) : LineStep line after ⟨[.faulty blanks e left], true⟩
  | inline {plain left : List Char} {step : CutStep} (hline : line = plain ++ left)
    (hstep : InlineStep plain left after step)
    (hbeside : ∀ p, openMark <+: left → isBlankText plain → readCall (left ++ after) = .ok (some p) →
      ¬ isBlankText (firstLine ((left ++ after).drop p.length))) : LineStep line after step

theorem take_of_backtickRun? {n run k : Nat} {text : List Char} (hn : 0 < n) (h : backtickRun? n run text = some k) :
    k = 0 ∧ run = n ∨ ∃ code, text.take k = code ++ ['`'] := by
  induction text generalizing run k with
  | nil =>
    rw [backtickRun?] at h
    split at h
    · exact .inl ⟨(Option.some.inj h).symm, ‹_›⟩
    · cases h
  | cons c text ih =>
    rw [backtickRun?] at h
    split at h
    · next hc =>
      obtain ⟨k, hk, rfl⟩ := Option.map_eq_some_iff.1 h
      refine .inr ?_
      rw [List.take_succ_cons, hc]
      rcases ih hk with ⟨rfl, -⟩ | ⟨code, hcode⟩
      · exact ⟨[], rfl⟩
      · exact ⟨'`' :: code, by rw [hcode, List.cons_append]⟩
    split at h
    · next hrun => exact .inl ⟨(Option.some.inj h).symm, hrun⟩
    · obtain ⟨k, hk, rfl⟩ := Option.map_eq_some_iff.1 h
      rcases ih hk with ⟨-, hrun⟩ | ⟨code, hcode⟩
      · exact absurd hrun (Nat.ne_of_lt hn)
      · exact .inr ⟨c :: code, by rw [List.take_succ_cons, hcode, List.cons_append]⟩

def backtickCount (text : List Char) : Nat :=
  (text.takeWhile (· == '`')).length

section Backticks

variable {cs : List Char}

theorem take_backtickCount (cs : List Char) :
    ∃ ticks, ('`' :: cs).take (backtickCount ('`' :: cs)) = ticks ++ ['`'] := by
  have htaken : ('`' :: cs).take (backtickCount ('`' :: cs)) = ('`' :: cs).takeWhile (· == '`') :=
    (List.prefix_iff_eq_take.1 (List.takeWhile_prefix _)).symm
  obtain ⟨ticks, c, hticks⟩ := (List.eq_nil_or_concat (('`' :: cs).takeWhile (· == '`'))).resolve_left (by simp)
  rw [List.concat_eq_append] at hticks
  have hc : (c == '`') = true :=
    List.all_eq_true.1 List.all_takeWhile c (by rw [hticks]; exact List.mem_concat_self)
  exact ⟨ticks, by rw [htaken, hticks, beq_iff_eq.1 hc]⟩

theorem take_code {n : Nat}
    (h : backtickRun? (backtickCount ('`' :: cs)) 0 (('`' :: cs).drop (backtickCount ('`' :: cs))) = some n) :
    ∃ code, ('`' :: cs).take (backtickCount ('`' :: cs) + n) = code ++ ['`'] := by
  have hpos : 0 < backtickCount ('`' :: cs) := by simp [backtickCount]
  rw [List.take_add]
  rcases take_of_backtickRun? hpos h with ⟨-, hzero⟩ | ⟨code, hcode⟩
  · exact absurd hzero (Nat.ne_of_lt hpos)
  · exact ⟨_ ++ code, by rw [hcode, List.append_assoc]⟩

end Backticks

section Inline

variable {plain left after : List Char}

theorem exists_plain (line : List Char) :
    ∃ plain left, line = plain ++ left ∧ (∀ c ∈ plain, (c != '{' && c != '`') = true)
      ∧ ∀ c ∈ left.head?, (c != '{' && c != '`') = false := by
  refine ⟨_, _, List.takeWhile_append_dropWhile.symm, List.all_eq_true.1 List.all_takeWhile, fun c hc => ?_⟩
  have hhead := List.head?_dropWhile_not (fun c => c != '{' && c != '`') line
  rw [Option.mem_def.1 hc] at hhead
  exact hhead

theorem takeWhile_plain (hplain : ∀ c ∈ plain, (c != '{' && c != '`') = true)
    (hleft : ∀ c ∈ left.head?, (c != '{' && c != '`') = false) :
    (plain ++ left).takeWhile (fun c => c != '{' && c != '`') = plain := by
  rw [List.takeWhile_append_of_pos hplain]
  cases left with
  | nil => rw [List.takeWhile_nil, List.append_nil]
  | cons c left => rw [List.takeWhile_cons_of_neg (by rw [hleft c rfl]; exact Bool.false_ne_true), List.append_nil]

theorem inlineStep_cutInline (hline : IsLine (plain ++ left) after)
    (hplain : ∀ c ∈ plain, (c != '{' && c != '`') = true) (hleft : ∀ c ∈ left.head?, (c != '{' && c != '`') = false) :
    InlineStep plain left after (cutInline (plain ++ left ++ after)) := by
  have hhere : (plain ++ left ++ after).drop plain.length = left ++ after := by rw [List.append_assoc, List.drop_left]
  have hcopied (piece : Piece) :
      (if plain.isEmpty then [piece] else [.copied plain, piece]) = copiedText plain ++ [piece] := by
    cases plain <;> rfl
  rw [cutInline]
  simp only [hline.take_lineLength, takeWhile_plain hplain hleft, hhere, List.drop_left, hcopied]
  -- What the plain text ends with: the end of the line, a backtick, two braces, or one.
  split
  · rw [List.append_nil]
    exact .line rfl
  · next cs =>
    have hcount : (('`' :: cs).takeWhile (· == '`')).length = backtickCount ('`' :: cs) := rfl
    have hcode {n : Nat} (h : ∃ code, ('`' :: cs).take n = code ++ ['`']) :
        InlineStep plain ('`' :: cs) after ⟨copiedText plain ++ [.copied (('`' :: cs).take n)], false⟩ := by
      obtain ⟨code, hcode⟩ := h
      have hleft : '`' :: cs = code ++ ['`'] ++ ('`' :: cs).drop n := by rw [← hcode, List.take_append_drop]
      have hbacktick : Text.isBlank '`' = false := by decide
      rw [hcode]
      exact .copied hleft hbacktick
    rw [hcount]
    cases hrun : backtickRun? (backtickCount ('`' :: cs)) 0 (('`' :: cs).drop (backtickCount ('`' :: cs))) with
    | none => exact hcode (take_backtickCount cs)
    | some n => exact hcode (take_code hrun)
  · next cs =>
    have hbrace : Text.isBlank '{' = false := by decide
    cases hread : readCall ('{' :: '{' :: cs ++ after) with
    | error e => exact .faulty hread
    | ok p =>
      cases p with
      | some p => exact .call (List.prefix_append openMark cs) hread
      | none =>
        have hleft : '{' :: '{' :: cs = ['{'] ++ ['{'] ++ cs := rfl
        exact .copied hleft hbrace
  · next c cs hcode hopen =>
    have hc : Text.isBlank c = false := by
      have hc := hleft c rfl
      simp only [Bool.and_eq_false_iff, bne_eq_false_iff_eq] at hc
      rcases hc with rfl | rfl <;> decide
    have hleft' : c :: cs = [] ++ [c] ++ cs := rfl
    exact .copied hleft' hc

end Inline

section Line

variable {line after before : List Char}

theorem takeWhile_blanks {blanks left : List Char} (hblanks : isBlankText blanks) (hopen : openMark <+: left) :
    (blanks ++ left).takeWhile Text.isBlank = blanks := by
  obtain ⟨rest, rfl⟩ := hopen
  rw [List.takeWhile_append_of_pos (List.all_eq_true.1 hblanks), openMark, List.cons_append,
    List.takeWhile_cons_of_neg (by decide), List.append_nil]

theorem exists_blanks (line : List Char) :
    ∃ blanks left, line = blanks ++ left ∧ (blanks ++ left).takeWhile Text.isBlank = blanks ∧ isBlankText blanks := by
  refine ⟨line.takeWhile Text.isBlank, line.dropWhile Text.isBlank, List.takeWhile_append_dropWhile.symm, ?_,
    List.all_takeWhile⟩
  rw [List.takeWhile_append_dropWhile]

theorem lineStep_inline (hline : IsLine line after)
    (hbeside : ∀ blanks left p, line = blanks ++ left → openMark <+: left → isBlankText blanks →
      readCall (left ++ after) = .ok (some p) → ¬ isBlankText (firstLine ((left ++ after).drop p.length))) :
    LineStep line after (cutInline (line ++ after)) := by
  obtain ⟨plain, left, rfl, hplain, hleft⟩ := exists_plain line
  refine .inline rfl (inlineStep_cutInline hline hplain hleft) fun p hopen hblank => ?_
  exact hbeside plain left p rfl hopen hblank

theorem lineStep_cutLine (hline : IsLine line after) : LineStep line after (cutLine (line ++ after)) := by
  obtain ⟨blanks, left, rfl, htake, hblanks⟩ := exists_blanks line
  have hhere : (blanks ++ left ++ after).drop blanks.length = left ++ after := by rw [List.append_assoc, List.drop_left]
  -- There is one way to write the line as blank characters and a tag.
  have hsame {blanks' left' : List Char} (h : blanks ++ left = blanks' ++ left') (hopen : openMark <+: left')
      (hblanks' : isBlankText blanks') : left' = left := by
    have htake' := takeWhile_blanks hblanks' hopen
    rw [← h, htake] at htake'
    rw [htake', List.append_cancel_left_eq] at h
    exact h.symm
  rw [cutLine]
  simp only [hline.take_lineLength, htake, hhere, List.drop_left]
  split
  · next hopen =>
    refine lineStep_inline hline fun blanks' left' p h hopen' hblanks' hread => ?_
    obtain rfl := hsame h hopen' hblanks'
    rw [List.isPrefixOf_iff_prefix.2 hopen'] at hopen
    cases hopen
  next hopen =>
  have hopen' : openMark <+: left := List.isPrefixOf_iff_prefix.1 (by simpa using hopen)
  split
  · next p hread =>
    obtain ⟨tail, later, hafter, htail⟩ := Text.exists_isLine ((left ++ after).drop p.length)
    rw [hafter, htail.take_lineLength]
    split
    · next hblank => exact .standalone rfl hopen' hblanks hread hafter htail hblank
    · next hblank =>
      refine lineStep_inline hline fun blanks' left' p' h hopen' hblanks' hread' => ?_
      obtain rfl := hsame h hopen' hblanks'
      rw [hread] at hread'
      obtain rfl := Option.some.inj (Except.ok.inj hread')
      rwa [hafter, htail.isBlankText_firstLine]
  · next hread =>
    refine lineStep_inline hline fun blanks' left' p h hopen' hblanks' hread' => ?_
    obtain rfl := hsame h hopen' hblanks'
    rw [hread] at hread'
    cases hread'
  · next e hread => exact .faulty rfl hread

end Line

/-! ## What every step does -/

/-- Where the scan is in a line: at its start, or behind something that is not blank. -/
def AtPlace (before : List Char) : Bool → Prop
  | true => lastLine before = []
  | false => ¬ isBlankText (lastLine before)

/-- A step takes pieces that fit off `rest`, and leaves `after`. -/
structure Cuts (before rest : List Char) (step : CutStep) (after : List Char) : Prop where
  source : rest = sourceOf step.pieces ++ after
  ne_nil : sourceOf step.pieces ≠ []
  fit : PiecesFit before step.pieces after
  place : after ≠ [] → AtPlace (before ++ sourceOf step.pieces) step.lineStart

section Steps

variable {before rest plain left line after : List Char} {step : CutStep}

theorem atPlace_of_ends {c : Char} (before : List Char) (hc : Text.isBlank c = false) : AtPlace (before ++ [c]) false :=
  Text.not_isBlankText_lastLine before hc

theorem atPlace_of_isLine (hline : IsLine line after) (hne : after ≠ []) : AtPlace (before ++ line) true :=
  hline.lastLine_append hne

theorem cuts_line (hline : IsLine line after) (hne : line ≠ []) :
    Cuts before (line ++ after) ⟨[.copied line], true⟩ after where
  source := by simp [Piece.source]
  ne_nil := by simpa [Piece.source] using hne
  fit := ⟨trivial, trivial⟩
  place h := by
    simp only [sourceOf_cons, sourceOf_nil, Piece.source, List.append_nil]
    exact atPlace_of_isLine hline h

theorem InlineStep.cuts (h : InlineStep plain left after step) (hline : IsLine (plain ++ left) after)
    (hne : plain ++ left ≠ [])
    (halone : ∀ p, openMark <+: left → readCall (left ++ after) = .ok (some p) →
      ¬ StandsAlone (before ++ plain) ((left ++ after).drop p.length)) :
    ∃ after', Cuts before (plain ++ left ++ after) step after' := by
  cases h with
  | line hleft =>
    subst hleft
    rw [List.append_nil] at hline hne ⊢
    exact ⟨after, cuts_line hline hne⟩
  | @copied front later c hleft hc =>
    subst hleft
    refine ⟨later ++ after, ⟨?source, ?ne_nil, ?fit, fun _ => ?place⟩⟩
    case source => simp [Piece.source]
    case ne_nil => simp [Piece.source]
    case fit => exact piecesFit_append.2 ⟨piecesFit_copiedText _ _ _, trivial, trivial⟩
    case place =>
      simp only [sourceOf_append, sourceOf_copiedText, sourceOf_cons, sourceOf_nil, Piece.source, List.append_nil]
      rw [← List.append_assoc, ← List.append_assoc]
      exact atPlace_of_ends _ hc
  | @call p hopen hread =>
    obtain ⟨chars, after', hchars, hlength, front, hfront⟩ := exists_append_of_readCall hread
    have halone' := halone p hopen hread
    rw [hchars, hlength, List.drop_left] at halone'
    rw [hchars] at hread
    rw [hlength, hchars, List.take_left]
    refine ⟨after', ⟨?source, ?ne_nil, ?fit, fun _ => ?place⟩⟩
    case source => simp [Piece.source, hchars]
    case ne_nil => simp [Piece.source, ← hfront, closeMark]
    case fit =>
      refine piecesFit_append.2 ⟨piecesFit_copiedText _ _ _, ⟨?_, ?_⟩, trivial⟩
      · rw [sourceOf_nil, List.nil_append, hread, ← hlength]
      · rwa [sourceOf_nil, List.nil_append, sourceOf_copiedText]
    case place =>
      simp only [sourceOf_append, sourceOf_copiedText, sourceOf_cons, sourceOf_nil, Piece.source, List.append_nil]
      have hends : before ++ (plain ++ chars) = before ++ plain ++ front ++ ['}'] ++ ['}'] := by
        simp [← hfront, closeMark]
      rw [hends]
      exact atPlace_of_ends _ (by decide)
  | @faulty e hread =>
    refine ⟨after, ⟨?source, ?ne_nil, ?fit, fun h => ?place⟩⟩
    case source => simp [Piece.source]
    case ne_nil => simpa [Piece.source] using hne
    case fit => exact piecesFit_append.2 ⟨piecesFit_copiedText _ _ _, hread, trivial⟩
    case place =>
      simp only [sourceOf_append, sourceOf_copiedText, sourceOf_cons, sourceOf_nil, Piece.source, List.append_nil,
        List.nil_append]
      exact atPlace_of_isLine hline h

theorem ne_nil_of_openMark (h : openMark <+: left) : left ≠ [] := by
  obtain ⟨rest, rfl⟩ := h
  exact List.cons_ne_nil _ _

theorem LineStep.cuts (h : LineStep line after step) (hline : IsLine line after) (hne : line ≠ [])
    (hbefore : lastLine before = []) : ∃ after', Cuts before (line ++ after) step after' := by
  have hlast {blanks left : List Char} (hsplit : line = blanks ++ left) (hleft : left ≠ []) :
      lastLine (before ++ blanks) = blanks := by
    subst hsplit
    rw [Text.lastLine_append before (hline.lineFeed_not_mem hleft), hbefore, List.nil_append]
  cases h with
  | @standalone blanks left tail later p hsplit hopen hblanks hread hafter htail hblank =>
    obtain ⟨chars, after', hchars, hlength, front, hfront⟩ := exists_append_of_readCall hread
    have hlast' := hlast hsplit (ne_nil_of_openMark hopen)
    rw [hchars, hlength, List.drop_left] at hafter
    subst hafter hsplit
    rw [hlength, hchars, List.take_left]
    refine ⟨later, ⟨?source, ?ne_nil, ?fit, fun h => ?place⟩⟩
    case source => simp [Piece.source, hchars]
    case ne_nil => simp [Piece.source, ← hfront, closeMark]
    case fit =>
      rw [PiecesFit, sourceOf_nil, List.nil_append]
      refine ⟨⟨?_, ⟨?_, ?_⟩, hlast', htail⟩, trivial⟩
      · rw [← hchars, hread, ← hlength]
      · rwa [hlast']
      · rwa [htail.isBlankText_firstLine]
    case place =>
      simp only [sourceOf_cons, sourceOf_nil, Piece.source, List.append_nil]
      rw [← List.append_assoc]
      exact atPlace_of_isLine htail h
  | @faulty blanks left e hsplit hread =>
    subst hsplit
    refine ⟨after, ⟨?source, ?ne_nil, ⟨hread, trivial⟩, fun h => ?place⟩⟩
    case source => simp [Piece.source]
    case ne_nil => simpa [Piece.source] using hne
    case place =>
      simp only [sourceOf_cons, sourceOf_nil, Piece.source, List.append_nil]
      exact atPlace_of_isLine hline h
  | @inline plain left _ hsplit hstep hbeside =>
    subst hsplit
    refine hstep.cuts hline hne fun p hopen hread halone => ?_
    obtain ⟨hblank, hblank'⟩ := halone
    rw [hlast rfl (ne_nil_of_openMark hopen)] at hblank
    exact hbeside p hopen hblank hread hblank'

theorem cuts_cutStep (lineStart inFence : Bool) (hne : rest ≠ []) (hplace : AtPlace before lineStart) :
    ∃ after, Cuts before rest (cutStep lineStart inFence rest).1 after := by
  obtain ⟨line, after, rfl, hline⟩ := Text.exists_isLine rest
  have hne' : line ≠ [] := by
    rintro rfl
    rcases hline with ⟨inner, hinner, -⟩ | ⟨-, rfl⟩
    · cases inner <;> cases hinner
    · exact hne rfl
  cases lineStart with
  | true =>
    rw [cutStep, if_pos rfl]
    simp only [hline.take_lineLength]
    split
    · exact ⟨after, cuts_line hline hne'⟩
    · exact (lineStep_cutLine hline).cuts hline hne' hplace
  | false =>
    rw [cutStep, if_neg Bool.false_ne_true]
    obtain ⟨plain, left, rfl, hplain, hleft⟩ := exists_plain line
    refine (inlineStep_cutInline hline hplain hleft).cuts hline hne' fun p hopen _ halone => hplace ?_
    have hblank := halone.1
    rw [Text.lastLine_append before (hline.lineFeed_not_mem (ne_nil_of_openMark hopen)),
      Text.isBlankText_append] at hblank
    exact (Bool.and_eq_true_iff.1 hblank).1

end Steps

/-! ## All pieces of a text -/

section Run

variable {before rest after : List Char} {lineStart inFence inFence' : Bool} {step : CutStep}

theorem cutFrom_of_step (hstep : cutStep lineStart inFence rest = (step, inFence'))
    (hne : sourceOf step.pieces ≠ []) (hrest : rest = sourceOf step.pieces ++ after) :
    cutFrom lineStart inFence rest = step.pieces ++ cutFrom step.lineStart inFence' after := by
  obtain ⟨c, source, hsource⟩ := List.exists_cons_of_ne_nil hne
  rw [hsource] at hrest
  subst hrest
  have hlength : (step.pieces.flatMap Piece.source).length - 1 = source.length := by
    rw [show step.pieces.flatMap Piece.source = c :: source from hsource, List.length_cons, Nat.add_sub_cancel]
  rw [List.cons_append] at hstep ⊢
  rw [cutFrom, hstep]
  dsimp only
  rw [hlength, List.drop_left]

/-- The pieces of a text make it up, and each fits the place that it stands at. -/
theorem sourceOf_cutFrom_and_piecesFit (hplace : rest ≠ [] → AtPlace before lineStart) :
    sourceOf (cutFrom lineStart inFence rest) = rest ∧ PiecesFit before (cutFrom lineStart inFence rest) [] := by
  -- By the length of what is left, as every step takes something off.
  induction hlength : rest.length using Nat.strongRecOn generalizing before rest lineStart inFence with
  | ind n ih =>
  by_cases hne : rest = []
  · subst hne
    rw [cutFrom]
    exact ⟨rfl, trivial⟩
  · obtain ⟨after, hcuts⟩ := cuts_cutStep lineStart inFence hne (hplace hne)
    cases hstep : cutStep lineStart inFence rest with
    | mk step inFence' =>
    rw [hstep] at hcuts
    have hlt : after.length < n := by
      have hpos := List.length_pos_iff.2 hcuts.ne_nil
      rw [← hlength, congrArg List.length hcuts.source, List.length_append]
      omega
    obtain ⟨hsource, hfit⟩ := ih after.length hlt hcuts.place rfl
    rw [cutFrom_of_step hstep hcuts.ne_nil hcuts.source, sourceOf_append, hsource, piecesFit_append, hsource,
      List.append_nil]
    exact ⟨hcuts.source.symm, hcuts.fit, hfit⟩

end Run

theorem atPlace_nil : AtPlace [] true :=
  rfl

theorem sourceOf_cut (source : List Char) : sourceOf (cut source) = source :=
  (sourceOf_cutFrom_and_piecesFit fun _ => atPlace_nil).1

theorem piecesFit_cut (source : List Char) : PiecesFit [] (cut source) [] :=
  (sourceOf_cutFrom_and_piecesFit fun _ => atPlace_nil).2

/-- A piece of a source fits the place that it stands at. -/
theorem fits_of_mem_cut {source : List Char} {before later : List Piece} {piece : Piece}
    (h : cut source = before ++ piece :: later) : piece.Fits (sourceOf before) (sourceOf later) := by
  have hfit := piecesFit_cut source
  rw [h, piecesFit_append] at hfit
  simpa using hfit.2.1

end MacroDoc
