import MacroDoc.Proofs.Source.Segments

/-!
# Errors of a source

An error is found in what is left of a source from a pair of braces on, and its range is counted from there. However
far that range goes, it is one of whole characters of the source.

* `Text.IsBoundary`, `Span.LiesIn` : ranges of whole characters of a text;
* `readCall_error` : what an error of the reader of calls says about its text;
* `Piece.error_of_mem_sourceErrors` : every error of a source is that of a faulty piece;
* `parseDocumentBy_errors` : when a document is refused, and with which errors.
-/

namespace MacroDoc

open Call (openMark closeMark selfCloseMark)

/-! ## Ranges of a text -/

/-- Between the first `n` bytes of the text and the others no character is torn apart. -/
def Text.IsBoundary (text : List Char) (n : Nat) : Prop :=
  ∃ before after, text = before ++ after ∧ Text.byteLength before = n

/-- The bytes of the range are characters of the text. -/
structure Span.LiesIn (span : Span) (text : List Char) : Prop where
  ordered : span.start ≤ span.stop
  bounded : span.stop ≤ Text.byteLength text
  start : Text.IsBoundary text span.start
  stop : Text.IsBoundary text span.stop

section Ranges

variable {before after text : List Char} {span : Span} {n : Nat}

theorem Span.LiesIn.of_spanAt {inner : List Char} (h : text = before ++ (inner ++ after)) :
    (spanAt before inner).LiesIn text := by
  subst h
  refine ⟨Nat.le_add_right _ _, ?_, ⟨before, inner ++ after, rfl, rfl⟩, ⟨before ++ inner, after, ?_, ?_⟩⟩
  · simp only [spanAt, Text.byteLength_append]
    omega
  · rw [List.append_assoc]
  · rw [Text.byteLength_append, spanAt]

theorem Text.IsBoundary.shift (h : Text.IsBoundary after n) :
    Text.IsBoundary (before ++ after) (n + Text.byteLength before) := by
  obtain ⟨front, back, rfl, rfl⟩ := h
  refine ⟨before ++ front, back, (List.append_assoc ..).symm, ?_⟩
  rw [Text.byteLength_append, Nat.add_comm]

/-- With more text in front, a range is further on. -/
theorem Span.LiesIn.shift (h : span.LiesIn after) :
    Span.LiesIn ⟨span.start + Text.byteLength before, span.stop + Text.byteLength before⟩ (before ++ after) where
  ordered := Nat.add_le_add_right h.ordered _
  bounded := by
    have := h.bounded
    rw [Text.byteLength_append]
    dsimp only
    omega
  start := h.start.shift
  stop := h.stop.shift

theorem byteLength_sub (before after : List Char) :
    Text.byteLength (before ++ after) - Text.byteLength after = Text.byteLength before := by
  rw [Text.byteLength_append, Nat.add_sub_cancel]

theorem Span.LiesIn.of_start (h : before <+: text) : Span.LiesIn ⟨0, Text.byteLength before⟩ text := by
  obtain ⟨after, rfl⟩ := h
  have hlies : (spanAt [] before).LiesIn (before ++ after) := .of_spanAt rfl
  rwa [spanAt, Text.byteLength, Nat.zero_add] at hlies

theorem byteLength_le_of_suffix (h : after <:+ text) : Text.byteLength after ≤ Text.byteLength text := by
  obtain ⟨front, rfl⟩ := h
  rw [Text.byteLength_append]
  exact Nat.le_add_left _ _

/-- The reader counts a place from the end of the text. -/
theorem Span.LiesIn.of_suffix (inner after : List Char) (h : inner ++ after <:+ text) :
    Span.LiesIn ⟨Text.byteLength text - Text.byteLength (inner ++ after),
      Text.byteLength text - Text.byteLength after⟩ text := by
  obtain ⟨front, rfl⟩ := h
  have hstop := byteLength_sub (front ++ inner) after
  rw [List.append_assoc, Text.byteLength_append front inner] at hstop
  rw [byteLength_sub, hstop]
  exact .of_spanAt rfl

end Ranges

/-! ## Errors of a call -/

theorem readParameters_error {text rest : List Char} {identifier : String} {parameters : Parameters} {e : CallError}
    (hrest : rest <:+ text) (h : readParameters text identifier parameters rest = .error e) : e.span.LiesIn text := by
  have htrim (rest : List Char) : Text.trimStart rest <:+ rest := List.dropWhile_suffix _
  -- Along the parameters: what is left after a value is a shorter end of the same text.
  fun_induction readParameters text identifier parameters rest with
  | case1 | case2 => cases h
  | case3 =>
    obtain rfl := Except.error.inj h
    exact .of_start List.prefix_rfl
  | case4 _ rest here place _ _ c cs hhere =>
    obtain rfl := Except.error.inj h
    have hsuffix : [c] ++ cs <:+ text := by
      rw [List.singleton_append, ← hhere]
      exact (htrim rest).trans hrest
    have hstop : place here + c.utf8Size = Text.byteLength text - Text.byteLength cs := by
      have hle := byteLength_le_of_suffix hsuffix
      simp only [place, hhere, List.singleton_append, Text.byteLength] at hle ⊢
      omega
    have hlies := Span.LiesIn.of_suffix [c] cs hsuffix
    rw [← hstop, List.singleton_append, ← hhere] at hlies
    exact hlies
  | case5 _ rest here place _ _ _ _ _ _ _ value hafter =>
    obtain rfl := Except.error.inj h
    have hvalue : value <:+ here := (List.suffix_cons '=' value).trans (hafter ▸ List.dropWhile_suffix _)
    have hlies := Span.LiesIn.of_suffix value [] (by simpa using (hvalue.trans (htrim rest)).trans hrest)
    rwa [List.append_nil] at hlies
  | case6 _ rest here _ _ _ _ _ _ _ value hafter v after hread _ ih =>
    obtain ⟨written, rfl⟩ := exists_append_of_readValue hread
    have hvalue : '=' :: (written ++ after) <:+ here := hafter ▸ List.dropWhile_suffix _
    have hnext : after <:+ here :=
      ((List.suffix_append written after).trans (List.suffix_cons '=' _)).trans hvalue
    exact ih ((hnext.trans (htrim rest)).trans hrest) h
  | case7 _ rest here =>
    obtain rfl := Except.error.inj h
    have hhere : here.takeWhile isIdentifierChar ++ here.dropWhile isIdentifierChar = here :=
      List.takeWhile_append_dropWhile
    have hsuffix := (htrim rest).trans hrest
    rw [show Text.trimStart rest = here from rfl, ← hhere] at hsuffix
    have hlies := Span.LiesIn.of_suffix _ _ hsuffix
    rwa [hhere] at hlies

/-- An error of a call is about a text that begins with two braces, and about characters of this text. -/
theorem readCall_error {text : List Char} {e : CallError} (h : readCall text = .error e) :
    openMark <+: text ∧ e.span.LiesIn text := by
  cases hread : readOpenTag text with
  | error e' =>
    rw [readCall, hread] at h
    obtain rfl := Except.error.inj h
    by_cases hopen : openMark <+: text
    · refine ⟨hopen, ?_⟩
      obtain ⟨rest, rfl⟩ := hopen
      have hafter : rest.dropWhile isIdentifierChar <:+ openMark ++ rest :=
        (List.dropWhile_suffix _).trans (List.suffix_append openMark rest)
      rw [readOpenTag_openMark] at hread
      split at hread
      · cases hread
      cases hparameters : readParameters (openMark ++ rest) (String.ofList (rest.takeWhile isIdentifierChar)) .empty
          (rest.dropWhile isIdentifierChar) with
      | error e =>
        rw [hparameters] at hread
        obtain rfl := Except.error.inj hread
        exact readParameters_error hafter hparameters
      | ok tag => rw [hparameters] at hread; cases hread
    · rw [readOpenTag, dropStart?_eq_none hopen] at hread
      cases hread
  | ok tag? =>
    cases tag? with
    | none => rw [readCall, hread] at h; cases h
    | some tag =>
      obtain ⟨rest, rfl⟩ := exists_openMark_append hread
      refine ⟨List.prefix_append _ _, ?_⟩
      obtain ⟨chars, after, htext, htag⟩ := exists_isTag hread
      rw [htext] at h ⊢
      cases hself : tag.selfClosing with
      | true => rw [htag.readCall_selfClosing hself] at h; cases h
      | false =>
        rw [htag.readCall_eq hself] at h
        split at h
        · obtain rfl := Except.error.inj h
          exact .of_start (List.prefix_append chars after)
        · cases h

/-! ## Errors of pieces -/

/-- An error of pieces is that of a faulty piece, counted from where the call of this piece begins. -/
theorem exists_faulty_of_mem_sourceErrorsFrom {fileId place : Nat} {pieces : List Piece} {e : ParseError}
    (h : e ∈ sourceErrorsFrom fileId place pieces) :
    ∃ earlier blanks error text later, pieces = earlier ++ .faulty blanks error text :: later
      ∧ e = error.inSource fileId (place + Text.byteLength (sourceOf earlier ++ blanks)) := by
  induction pieces generalizing place with
  | nil => cases h
  | cons piece pieces ih =>
    have hlater (h : e ∈ sourceErrorsFrom fileId (place + Text.byteLength piece.source) pieces) :
        ∃ earlier blanks error text later, piece :: pieces = earlier ++ .faulty blanks error text :: later
          ∧ e = error.inSource fileId (place + Text.byteLength (sourceOf earlier ++ blanks)) := by
      obtain ⟨earlier, blanks, error, text, later, rfl, rfl⟩ := ih h
      refine ⟨piece :: earlier, blanks, error, text, later, rfl, ?_⟩
      rw [sourceOf_cons, List.append_assoc, Text.byteLength_append piece.source, Nat.add_assoc]
    cases piece with
    | faulty blanks error text =>
      rcases List.mem_cons.1 h with rfl | h
      · exact ⟨[], blanks, error, text, pieces, rfl, rfl⟩
      · exact hlater h
    | copied | inlineCall | standalone => exact hlater h

/-- The error is read in the source: the reader of calls gives it for what is left of the source where two braces stand,
with a range counted from there. -/
structure ParseError.IsReadIn (e : ParseError) (fileId : Nat) (source : List Char) : Prop where
  numbered : e.fileId = fileId
  span : e.span.LiesIn source
  read : ∃ before after error, source = before ++ after ∧ openMark <+: after ∧ readCall after = .error error
    ∧ e = (error.inSource fileId 0).shift (Text.byteLength before)

theorem isReadIn_of_mem_sourceErrors {fileId : Nat} {source : List Char} {e : ParseError}
    (h : e ∈ sourceErrors fileId (cut source)) : e.IsReadIn fileId source := by
  obtain ⟨earlier, blanks, error, text, later, hpieces, rfl⟩ := exists_faulty_of_mem_sourceErrorsFrom h
  have hread : readCall (text ++ sourceOf later) = .error error := fits_of_mem_cut hpieces
  have hsource : source = (sourceOf earlier ++ blanks) ++ (text ++ sourceOf later) := by
    rw [← sourceOf_cut source, hpieces]
    simp [Piece.source]
  obtain ⟨hopen, hlies⟩ := readCall_error hread
  rw [Nat.zero_add]
  exact ⟨rfl, hsource ▸ hlies.shift, _, _, error, hsource, hopen, hread, rfl⟩

/-! ## Documents that are refused -/

/-- A document is refused exactly if its source has a faulty piece. It is refused with the errors of these pieces, of
which there is at least one, and each of them is read in the source. -/
theorem parseDocumentBy_errors (events : List Char → List Markdown.Event) (dialect : Dialect) (fileId : Nat)
    (source : String) :
    ((∃ errors, parseDocumentBy events dialect fileId source = .error errors)
        ↔ ∃ blanks error text, .faulty blanks error text ∈ cut source.toList)
      ∧ ∀ errors, parseDocumentBy events dialect fileId source = .error errors →
          errors = sourceErrors fileId (cut source.toList) ∧ errors ≠ []
            ∧ ∀ e ∈ errors, e.IsReadIn fileId source.toList := by
  cases herrors : sourceErrors fileId (cut source.toList) with
  | nil =>
    have hok : ∃ document, parseDocumentBy events dialect fileId source = .ok document :=
      ⟨_, by rw [parseDocumentBy, parseBlocksBy, herrors]; rfl⟩
    obtain ⟨document, hok⟩ := hok
    rw [hok]
    refine ⟨⟨nofun, fun ⟨blanks, error, text, hmem⟩ => ?_⟩, nofun⟩
    exact absurd hmem (sourceErrorsFrom_eq_nil herrors blanks error text)
  | cons e rest =>
    have herror : parseDocumentBy events dialect fileId source = .error (e :: rest) := by
      rw [parseDocumentBy, parseBlocksBy, herrors]
      rfl
    have hread : ∀ e' ∈ e :: rest, e'.IsReadIn fileId source.toList := fun e' he' =>
      isReadIn_of_mem_sourceErrors (herrors ▸ he')
    obtain ⟨earlier, blanks, error, text, later, hpieces, -⟩ :=
      exists_faulty_of_mem_sourceErrorsFrom (herrors ▸ List.mem_cons_self : e ∈ sourceErrors fileId _)
    rw [herror]
    refine ⟨⟨fun _ => ⟨blanks, error, text, ?_⟩, fun _ => ⟨_, rfl⟩⟩, fun errors h => ?_⟩
    · rw [hpieces]
      exact List.mem_append_right _ List.mem_cons_self
    · obtain rfl := Except.error.inj h
      exact ⟨rfl, List.cons_ne_nil _ _, hread⟩

/-- Two calls that are not completed, behind a letter of two bytes and behind a call that is. -/
theorem parseDocumentBy_errors_twoCalls :
    let source := "é \x7b\x7ba x\n \x7b\x7bé/\x7d\x7d\x7b\x7bb é=\"\x7d\x7d"
    let first : ParseError := ⟨"expected '=' after parameter 'x'", ⟨7, 8⟩, 7, []⟩
    let second : ParseError := ⟨"unterminated value for parameter 'é'", ⟨24, 27⟩, 7, []⟩
    parseDocumentBy Markdown.events .default 7 source = .error [first, second]
      ∧ first.IsReadIn 7 source.toList ∧ second.IsReadIn 7 source.toList := by
  intro source first second
  have herrors : sourceErrors 7 (cut source.toList) = [first, second] := by decide +kernel
  have hparse : parseDocumentBy Markdown.events .default 7 source = .error [first, second] := by
    rw [parseDocumentBy, parseBlocksBy, herrors]
    rfl
  obtain ⟨-, -, hread⟩ := (parseDocumentBy_errors Markdown.events .default 7 source).2 _ hparse
  exact ⟨hparse, hread first List.mem_cons_self, hread second (List.mem_cons_of_mem _ List.mem_cons_self)⟩

end MacroDoc
