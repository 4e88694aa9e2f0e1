import Mathlib.Data.List.DropRight
import MacroDoc.Proofs.Toml.LineEnds
import MacroDoc.Testing.TestFile

/-!
# Test files and their front matter

* `TestLayout` : how a test file is written;
* `indexOf?_closing` : where its front matter ends;
* `TestCase.read?_of_append` : the last line ends of front matter make no difference;
* `TestLayout.readTestFile_text` : the file is read as it is written, if there is a line between the delimiters.
-/

namespace MacroDoc.Testing

/-! ## Layouts -/

inductive LineEnd where
  | feed
  | returnFeed
  deriving DecidableEq

def LineEnd.chars : LineEnd → List Char
  | feed => ['\n']
  | returnFeed => ['\r', '\n']

/-- A line between the delimiters, and how it ends. -/
structure HeadLine where
  text : List Char
  ending : LineEnd
  oneLine : '\n' ∉ text := by decide
  noDelimiter : ¬ delimiter <+: text := by decide

def HeadLine.chars (l : HeadLine) : List Char :=
  l.text ++ l.ending.chars

/-- A test file as it is written: byte order marks, a delimiter, lines, another delimiter, and the document. The file may
end with the second delimiter. -/
structure TestLayout where
  marks : Nat
  opening : LineEnd
  lines : List HeadLine
  closing : Option LineEnd
  document : List Char
  ends : closing = none → document = [] := by decide

namespace TestLayout

def settings (t : TestLayout) : List Char :=
  t.lines.flatMap HeadLine.chars

def afterSettings (t : TestLayout) : List Char :=
  (t.closing.map LineEnd.chars).getD [] ++ t.document

def chars (t : TestLayout) : List Char :=
  List.replicate t.marks byteOrderMark ++ (delimiter ++ (t.opening.chars ++ (t.settings ++ (delimiter ++ t.afterSettings))))

end TestLayout

/-! ## The second delimiter -/

theorem dropLineEnd_chars (e : LineEnd) (rest : List Char) : dropLineEnd (e.chars ++ rest) = rest := by
  cases e <;> rfl

theorem LineEnd.chars_eq (e : LineEnd) : ∃ start, e.chars = start ++ ['\n'] ∧ '\n' ∉ start := by
  cases e with
  | feed => exact ⟨[], rfl, by simp⟩
  | returnFeed => exact ⟨['\r'], rfl, by simp⟩

theorem HeadLine.chars_eq (l : HeadLine) : ∃ start, l.chars = start ++ ['\n'] ∧ '\n' ∉ start := by
  obtain ⟨start, heq, hstart⟩ := l.ending.chars_eq
  exact ⟨l.text ++ start, by rw [HeadLine.chars, heq, List.append_assoc], by simp [l.oneLine, hstart]⟩

theorem indexOf?_append_of_notMem {c : Char} {pattern start : List Char} (h : c ∉ start) (rest : List Char) :
    Text.indexOf? (c :: pattern) (start ++ rest) = (Text.indexOf? (c :: pattern) rest).map (start.length + ·) := by
  induction start with
  | nil => simp
  | cons d start ih =>
    obtain ⟨hne, h⟩ := not_or.1 (mt List.mem_cons.2 h)
    have hstarts : ¬ (c :: pattern).isPrefixOf (d :: (start ++ rest)) = true := by
      simp [hne]
    rw [List.cons_append, Text.indexOf?, if_neg hstarts, ih h, Option.map_map]
    congr 1
    funext n
    simp only [Function.comp_apply, List.length_cons]
    omega

theorem HeadLine.not_starts (l : HeadLine) (rest : List Char) : ¬ delimiter <+: l.chars ++ rest := by
  intro hstarts
  rw [HeadLine.chars, List.append_assoc] at hstarts
  by_cases hle : delimiter.length ≤ l.text.length
  · exact l.noDelimiter (List.prefix_of_prefix_length_le hstarts (List.prefix_append _ _) hle)
  · obtain ⟨more, heq⟩ := List.prefix_of_prefix_length_le (List.prefix_append _ _) hstarts (Nat.le_of_not_le hle)
    rw [← heq] at hstarts hle
    have hmore := (List.prefix_append_right_inj l.text).1 hstarts
    cases more with
    | nil => exact hle (by simp)
    | cons c more =>
      have hc : c = '-' := by
        have hmem : c ∈ delimiter := heq ▸ List.mem_append_right l.text List.mem_cons_self
        simpa [delimiter] using hmem
      obtain ⟨after, hafter⟩ := hmore
      rw [hc] at hafter
      cases hending : l.ending <;> simp [hending, LineEnd.chars] at hafter

theorem indexOf?_of_starts {pattern text : List Char} (h : pattern <+: text) : Text.indexOf? pattern text = some 0 := by
  cases text with
  | nil => rw [List.prefix_nil.1 h]; rfl
  | cons c text => rw [Text.indexOf?, if_pos (List.isPrefixOf_iff_prefix.2 h)]

theorem indexOf?_cons_of_not_starts {c : Char} {pattern text : List Char} (h : ¬ pattern <+: c :: text) :
    Text.indexOf? pattern (c :: text) = (Text.indexOf? pattern text).map (· + 1) := by
  rw [Text.indexOf?, if_neg (mt List.isPrefixOf_iff_prefix.1 h)]

/-- The second delimiter is found after the line end that comes last, and not before. -/
theorem indexOf?_closing {lines : List HeadLine} (hne : lines ≠ []) (rest : List Char) :
    ∃ before, lines.flatMap HeadLine.chars = before ++ ['\n'] ∧
      Text.indexOf? ('\n' :: delimiter) (lines.flatMap HeadLine.chars ++ (delimiter ++ rest)) = some before.length := by
  induction lines with
  | nil => exact absurd rfl hne
  | cons l lines ih =>
    obtain ⟨start, hline, hstart⟩ := l.chars_eq
    rw [List.flatMap_cons, hline, List.append_assoc, List.append_assoc, List.singleton_append,
      indexOf?_append_of_notMem hstart, List.cons_append]
    by_cases hlast : lines = []
    · refine ⟨start, by rw [hlast]; rfl, ?_⟩
      rw [hlast, List.flatMap_nil, List.nil_append, indexOf?_of_starts ⟨rest, by simp⟩]
      rfl
    · obtain ⟨before, heq, hindex⟩ := ih hlast
      have hnext : ¬ delimiter <+: lines.flatMap HeadLine.chars ++ (delimiter ++ rest) := by
        obtain ⟨next, lines, rfl⟩ := List.exists_cons_of_ne_nil hlast
        rw [List.flatMap_cons, List.append_assoc]
        exact next.not_starts _
      refine ⟨start ++ '\n' :: before, by rw [heq]; simp, ?_⟩
      rw [indexOf?_cons_of_not_starts (mt (fun h => (List.cons_prefix_cons.1 h).2) hnext), hindex]
      simp only [Option.map_some, List.length_append, List.length_cons]

/-! ## Settings -/

theorem dropTrailing_eq_rdropWhile (c : Char) (text : List Char) :
    Text.dropTrailing c text = text.rdropWhile (· == c) :=
  rfl

theorem not_suffix_dropTrailing (c : Char) (text : List Char) : ¬ [c] <:+ Text.dropTrailing c text := by
  rintro ⟨start, heq⟩
  rw [dropTrailing_eq_rdropWhile] at heq
  have hne : text.rdropWhile (· == c) ≠ [] := by
    rw [← heq]
    simp
  refine List.rdropWhile_last_not _ _ hne ?_
  simp [← heq]

/-- The returns that are dropped at the end of a text, and maybe a line feed after them. -/
theorem endsBefore_dropTrailing (text : List Char) {feed : List Char} (hfeed : ∀ c ∈ feed, c = '\n') :
    Toml.EndsBefore (Text.dropTrailing '\r' text) (text.rtakeWhile (· == '\r') ++ feed) where
  lineEnds c hc := by
    obtain hc | hc := List.mem_append.1 hc
    · exact .inl (by simpa using List.mem_rtakeWhile_imp hc)
    · exact .inr (hfeed c hc)
  noReturn := not_suffix_dropTrailing '\r' text

theorem TestCase.read?_of_append {text tail : List Char} {t : TestCase} (h : Toml.EndsBefore text tail)
    (hread : TestCase.read? (text ++ tail) = some t) : TestCase.read? text = some t := by
  obtain ⟨entries, hparse, ht⟩ := Option.bind_eq_some_iff.1 hread
  exact Option.bind_eq_some_iff.2 ⟨entries, Toml.parse_of_append h hparse, ht⟩

/-- Settings are read as well without the returns before their last line feed, and without that. -/
theorem TestCase.read?_dropTrailing {text feed : List Char} {t : TestCase} (hfeed : ∀ c ∈ feed, c = '\n')
    (hread : TestCase.read? (text ++ feed) = some t) : TestCase.read? (Text.dropTrailing '\r' text) = some t := by
  refine TestCase.read?_of_append (endsBefore_dropTrailing text hfeed) ?_
  rw [dropTrailing_eq_rdropWhile, ← List.append_assoc, List.rdropWhile_append_rtakeWhile]
  exact hread

namespace TestLayout

/-- The text of the settings, with the end of the last line or without. -/
def IsSettings (l : TestLayout) (text : List Char) : Prop :=
  text = l.settings ∨ ∃ e : LineEnd, text ++ e.chars = l.settings

theorem read?_settings {l : TestLayout} {text before : List Char} {t : TestCase} (htext : l.IsSettings text)
    (hbefore : l.settings = before ++ ['\n']) (hread : TestCase.read? text = some t) :
    TestCase.read? (Text.dropTrailing '\r' before) = some t := by
  have hnone : TestCase.read? (text ++ []) = some t := by rwa [List.append_nil]
  rw [IsSettings, hbefore] at htext
  obtain rfl | ⟨_ | _, heq⟩ := htext
  · exact TestCase.read?_dropTrailing (by simp) hread
  · obtain rfl := List.append_inj_left' heq rfl
    exact TestCase.read?_dropTrailing (by simp) hnone
  · have heq : (text ++ ['\r']) ++ ['\n'] = before ++ ['\n'] := by simpa [LineEnd.chars] using heq
    obtain rfl := List.append_inj_left' heq rfl
    rw [dropTrailing_eq_rdropWhile, List.rdropWhile_concat_pos _ _ _ (by decide)]
    exact TestCase.read?_dropTrailing (by simp) hnone

/-- A file is cut into what its lines say and the document. -/
theorem splitFrontMatter_chars (l : TestLayout) (hlines : l.lines ≠ []) : ∃ before, l.settings = before ++ ['\n'] ∧
    splitFrontMatter l.chars = .ok (Text.dropTrailing '\r' before, l.document) := by
  obtain ⟨before, hbefore, hindex⟩ : ∃ before, l.settings = before ++ ['\n'] ∧
      Text.indexOf? ('\n' :: delimiter) (l.settings ++ (delimiter ++ l.afterSettings)) = some before.length :=
    indexOf?_closing hlines l.afterSettings
  refine ⟨before, hbefore, ?_⟩
  have hmarks : l.chars.dropWhile (· = byteOrderMark) =
      delimiter ++ (l.opening.chars ++ (l.settings ++ (delimiter ++ l.afterSettings))) := by
    rw [chars, List.dropWhile_append_of_pos (by simp)]
    rfl
  have hafter : dropLineEnd l.afterSettings = l.document := by
    unfold afterSettings
    cases hclosing : l.closing with
    | none =>
      rw [l.ends hclosing]
      rfl
    | some e => exact dropLineEnd_chars e l.document
  have hopening : Text.dropStart? delimiter (l.chars.dropWhile (· = byteOrderMark)) =
      some (l.opening.chars ++ (l.settings ++ (delimiter ++ l.afterSettings))) := by
    rw [hmarks, Text.dropStart?, if_pos (List.isPrefixOf_iff_prefix.2 (List.prefix_append _ _)), List.drop_left]
  have htake : (l.settings ++ (delimiter ++ l.afterSettings)).take before.length = before := by
    rw [hbefore, List.append_assoc, List.take_left]
  have hdrop : (l.settings ++ (delimiter ++ l.afterSettings)).drop (before.length + 1 + delimiter.length) =
      l.afterSettings := by
    rw [hbefore, List.append_assoc, ← List.drop_drop, ← List.drop_drop, List.drop_left]
    rfl
  unfold splitFrontMatter
  simp only [hopening, dropLineEnd_chars, hindex, htake, hdrop, hafter]

/-- A file is read as it is written: the settings are those of the text between the delimiters, and the document is what
comes after them, whatever stands in it. -/
theorem readTestFile_text (l : TestLayout) {text : List Char} {t : TestCase} (hlines : l.lines ≠ [])
    (htext : l.IsSettings text) (hread : TestCase.read? text = some t) :
    readTestFile (String.ofList l.chars) = .ok (t, String.ofList l.document) := by
  obtain ⟨before, hbefore, hsplit⟩ := l.splitFrontMatter_chars hlines
  unfold readTestFile
  rw [String.toList_ofList, hsplit]
  simp only [bind, Except.bind]
  rw [read?_settings htext hbefore hread]

/-- Two byte order marks, all kinds of line ends, and delimiters in the document. -/
theorem readTestFile_text_mixed :
    let l : TestLayout := {
      marks := 2
      opening := .returnFeed
      lines := [⟨"description = 'two'".toList, .returnFeed, by decide, by decide⟩, ⟨[], .feed, by decide, by decide⟩,
        ⟨"[transform] # --- ".toList, .feed, by decide, by decide⟩, ⟨"strict = true".toList, .returnFeed, by decide, by decide⟩]
      closing := some .returnFeed
      document := "\n---\r\nx\n---".toList }
    let t : TestCase := ⟨some "two", none, [], { Config.default with strict := true }, none, none, none, false, none, none⟩
    TestCase.read? l.settings = some t ∧ readTestFile (String.ofList l.chars) = .ok (t, "\n---\r\nx\n---") := by
  intro l t
  have hread : TestCase.read? l.settings = some t := by decide +kernel
  exact ⟨hread, l.readTestFile_text (by decide) (.inl rfl) hread⟩

/-- Without a line between them the second delimiter is not found, although nothing can be read as settings. -/
theorem not_readTestFile_text : ¬ ∀ (l : TestLayout) (text : List Char) (t : TestCase), l.IsSettings text →
    TestCase.read? text = some t → readTestFile (String.ofList l.chars) = .ok (t, String.ofList l.document) := by
  intro hall
  have hread : TestCase.read? [] = some ⟨none, none, [], .default, none, none, none, false, none, none⟩ := by
    decide +kernel
  have hfile := hall ⟨0, .feed, [], some .feed, "hello\n".toList, by decide⟩ [] _ (.inl rfl) hread
  have herror : readTestFile (String.ofList (chars ⟨0, .feed, [], some .feed, "hello\n".toList, by decide⟩)) =
      .error .noClosing := by decide +kernel
  rw [herror] at hfile
  cases hfile

end TestLayout

end MacroDoc.Testing
