import Mathlib.Data.List.Chain
import MacroDoc.Block.Markup
import MacroDoc.Block.Words
import MacroDoc.Proofs.Call.Value

/-!
# The words of a text

The words, spaces and symbols of a text are determined by what is written for them: among the runs of such leaves in
which no two neighbours belong together, there is one that is written as the text with its blank runs closed up.

* `Leaf.IsToken`, `Leaf.Joins`, `TokenRun` : the leaves of plain text, and runs of them without neighbours that join;
* `closeBlanks` : a text with one space for each run of blank characters;
* `written_wordLeaves`, `wordLeaves_written` : a text and its leaves, there and back;
* `wordLeaves_append` : the leaves of a text that is put together from two;
* `words_canonical` : all of this for the blocks of a text.
-/

namespace MacroDoc

theorem isBlank_of_isAlphanumeric {c : Char} (h : Text.isAlphanumeric c) : Text.isBlank c = false :=
  isBlank_of_isIdentifierChar (by simp [isIdentifierChar, h])

/-! ## Tokens -/

/-- The leaves of plain text: words of letters and digits, spaces, and symbols that are neither these nor blank. -/
inductive Leaf.IsToken : Leaf → Prop
  | word {text : String} (hne : text.toList ≠ []) (hchars : ∀ c ∈ text.toList, Text.isAlphanumeric c) :
    IsToken (.word text)
  | space : IsToken .space
  | symbol {c : Char} (hword : Text.isAlphanumeric c = false) (hblank : Text.isBlank c = false) : IsToken (.symbol c)

/-- Two neighbours that would be one leaf: two words, or two spaces. -/
def Leaf.Joins : Leaf → Leaf → Prop
  | .word _, .word _ => True
  | .space, .space => True
  | _, _ => False

theorem apart_of_word {v : String} {run : List Leaf} (h : ∀ m ∈ run.head?, ¬ (Leaf.word v).Joins m) (w : String) :
    ∀ m ∈ run.head?, ¬ (Leaf.word w).Joins m := by
  intro m hm hjoins
  refine h m hm ?_
  cases m <;> exact hjoins

/-- Tokens of which no two neighbours join. -/
structure TokenRun (run : List Leaf) : Prop where
  tokens : ∀ l ∈ run, l.IsToken
  apart : run.IsChain fun a b => ¬ a.Joins b

def AreTokens (blocks : List Block) : Prop :=
  ∃ run : List Leaf, blocks = run.map .leaf ∧ TokenRun run

theorem TokenRun.nil : TokenRun [] := ⟨List.forall_mem_nil _, List.isChain_nil⟩

theorem tokenRun_cons {l : Leaf} {run : List Leaf} :
    TokenRun (l :: run) ↔ l.IsToken ∧ (∀ m ∈ run.head?, ¬ l.Joins m) ∧ TokenRun run := by
  constructor
  · rintro ⟨htokens, hapart⟩
    obtain ⟨hl, htokens⟩ := List.forall_mem_cons.1 htokens
    obtain ⟨hhead, hapart⟩ := List.isChain_cons.1 hapart
    exact ⟨hl, hhead, htokens, hapart⟩
  · rintro ⟨hl, hhead, htokens, hapart⟩
    exact ⟨List.forall_mem_cons.2 ⟨hl, htokens⟩, List.isChain_cons.2 ⟨hhead, hapart⟩⟩

/-! ## One more character -/

def charLeaf (c : Char) : Leaf :=
  if Text.isBlank c then .space
  else if Text.isAlphanumeric c then .word (String.ofList [c])
  else .symbol c

/-- Two characters that would be in one leaf: two letters or digits, or two blank characters. -/
def CharsJoin (c d : Char) : Prop :=
  (Text.isAlphanumeric c ∧ Text.isAlphanumeric d) ∨ (Text.isBlank c ∧ Text.isBlank d)

variable {c d : Char} {run : List Leaf}

theorem charLeaf_of_blank (hc : Text.isBlank c) : charLeaf c = .space := if_pos hc

theorem charLeaf_of_alphanumeric (hc : Text.isAlphanumeric c) : charLeaf c = .word (String.ofList [c]) := by
  rw [charLeaf, if_neg (by rw [isBlank_of_isAlphanumeric hc]; exact Bool.false_ne_true), if_pos hc]

theorem charLeaf_of_symbol (hblank : Text.isBlank c = false) (hword : Text.isAlphanumeric c = false) :
    charLeaf c = .symbol c := by
  rw [charLeaf, hblank, hword]
  rfl

theorem char_cases (c : Char) :
    (Text.isBlank c = true ∧ Text.isAlphanumeric c = false) ∨ (Text.isBlank c = false ∧ Text.isAlphanumeric c = true)
      ∨ (Text.isBlank c = false ∧ Text.isAlphanumeric c = false) := by
  cases hword : Text.isAlphanumeric c with
  | false => cases Text.isBlank c <;> simp
  | true => simp [isBlank_of_isAlphanumeric hword]

theorem isToken_charLeaf (c : Char) : (charLeaf c).IsToken := by
  rcases char_cases c with ⟨hblank, -⟩ | ⟨-, hword⟩ | ⟨hblank, hword⟩
  · rw [charLeaf_of_blank hblank]
    exact .space
  · rw [charLeaf_of_alphanumeric hword]
    exact .word (by simp) (by simpa using hword)
  · rw [charLeaf_of_symbol hblank hword]
    exact .symbol hword hblank

theorem joins_charLeaf_iff : (charLeaf c).Joins (charLeaf d) ↔ CharsJoin c d := by
  rcases char_cases c with ⟨hc, hc'⟩ | ⟨hc, hc'⟩ | ⟨hc, hc'⟩ <;>
    rcases char_cases d with ⟨hd, hd'⟩ | ⟨hd, hd'⟩ | ⟨hd, hd'⟩ <;>
      simp [charLeaf, Leaf.Joins, CharsJoin, hc, hc', hd, hd']

theorem pushChar_of_apart (h : ∀ m ∈ run.head?, ¬ (charLeaf c).Joins m) : pushChar c run = charLeaf c :: run := by
  unfold pushChar charLeaf
  split
  · next hc =>
    rw [charLeaf_of_blank hc] at h
    split
    · exact absurd trivial (h .space rfl)
    · rfl
  · split
    · next hc =>
      rw [charLeaf_of_alphanumeric hc] at h
      split
      · next w rest => exact absurd trivial (h (.word w) rfl)
      · rfl
    · rfl

theorem pushChar_space (hc : Text.isBlank c) : pushChar c (.space :: run) = .space :: run :=
  if_pos hc

theorem pushChar_word (hc : Text.isAlphanumeric c) (w : String) :
    pushChar c (.word w :: run) = .word (String.ofList (c :: w.toList)) :: run := by
  unfold pushChar
  rw [if_neg (by rw [isBlank_of_isAlphanumeric hc]; exact Bool.false_ne_true), if_pos hc]

/-- A character is a leaf of its own, or one more blank character, or the first character of a word. -/
theorem pushChar_cases (c : Char) (run : List Leaf) :
    (∀ m ∈ run.head?, ¬ (charLeaf c).Joins m) ∨ (Text.isBlank c ∧ ∃ rest, run = .space :: rest)
      ∨ (Text.isAlphanumeric c ∧ ∃ w rest, run = .word w :: rest) := by
  cases run with
  | nil => exact .inl nofun
  | cons l rest =>
    rcases char_cases c with ⟨hblank, -⟩ | ⟨-, hword⟩ | ⟨hblank, hword⟩
    · cases l <;> simp [charLeaf_of_blank hblank, Leaf.Joins, hblank]
    · cases l <;> simp [charLeaf_of_alphanumeric hword, Leaf.Joins, hword]
    · simp [charLeaf_of_symbol hblank hword, Leaf.Joins]

theorem TokenRun.pushChar (h : TokenRun run) (c : Char) : TokenRun (pushChar c run) := by
  rcases pushChar_cases c run with hapart | ⟨hc, rest, rfl⟩ | ⟨hc, w, rest, rfl⟩
  · rw [pushChar_of_apart hapart]
    exact tokenRun_cons.2 ⟨isToken_charLeaf c, hapart, h⟩
  · rw [pushChar_space hc]
    exact h
  · rw [pushChar_word hc]
    obtain ⟨hw, hapart, hrest⟩ := tokenRun_cons.1 h
    cases hw with
    | word _ hchars =>
      refine tokenRun_cons.2 ⟨.word (by simp) ?_, apart_of_word hapart _, hrest⟩
      rw [String.toList_ofList]
      exact List.forall_mem_cons.2 ⟨hc, hchars⟩

/-- A leaf joins the first one of a run exactly if it joins the character that was put there. -/
theorem exists_head?_pushChar (d : Char) (run : List Leaf) :
    ∃ m, (pushChar d run).head? = some m ∧ ∀ l : Leaf, l.Joins m ↔ l.Joins (charLeaf d) := by
  rcases pushChar_cases d run with hapart | ⟨hd, rest, rfl⟩ | ⟨hd, w, rest, rfl⟩
  · exact ⟨charLeaf d, by rw [pushChar_of_apart hapart, List.head?_cons], fun _ => Iff.rfl⟩
  · exact ⟨.space, by rw [pushChar_space hd, List.head?_cons], fun l => by rw [charLeaf_of_blank hd]⟩
  · refine ⟨_, by rw [pushChar_word hd, List.head?_cons], fun l => ?_⟩
    rw [charLeaf_of_alphanumeric hd]
    cases l <;> exact Iff.rfl

/-- What is put in front looks no further than the first leaf. -/
theorem pushChar_append (c : Char) (hne : run ≠ []) (more : List Leaf) :
    pushChar c (run ++ more) = pushChar c run ++ more := by
  rcases pushChar_cases c run with hapart | ⟨hc, rest, rfl⟩ | ⟨hc, w, rest, rfl⟩
  · have hhead : (run ++ more).head? = run.head? := List.head?_append_of_ne_nil run hne
    rw [pushChar_of_apart hapart, pushChar_of_apart (by rwa [hhead]), List.cons_append]
  · rw [pushChar_space hc, List.cons_append, pushChar_space hc]
  · rw [pushChar_word hc, List.cons_append, pushChar_word hc, List.cons_append]

/-! ## The leaves of a text -/

theorem wordLeaves_cons (c : Char) (text : List Char) : wordLeaves (c :: text) = pushChar c (wordLeaves text) := by
  rw [wordLeaves, List.foldr_cons, ← wordLeaves]

theorem wordLeaves_singleton (c : Char) : wordLeaves [c] = [charLeaf c] := by
  rw [wordLeaves_cons, show wordLeaves [] = [] from rfl, pushChar_of_apart (by simp)]

theorem tokenRun_wordLeaves (text : List Char) : TokenRun (wordLeaves text) := by
  induction text with
  | nil => exact .nil
  | cons c text ih => exact ih.pushChar c

theorem wordLeaves_ne_nil {text : List Char} (hne : text ≠ []) : wordLeaves text ≠ [] := by
  obtain ⟨c, text, rfl⟩ := List.exists_cons_of_ne_nil hne
  obtain ⟨m, hhead, -⟩ := exists_head?_pushChar c (wordLeaves text)
  intro heq
  rw [wordLeaves_cons] at heq
  rw [heq] at hhead
  cases hhead

/-- A character joins the first leaf of a text exactly if it joins its first character. -/
theorem joins_head?_wordLeaves_iff (text : List Char) :
    (∃ m ∈ (wordLeaves text).head?, (charLeaf c).Joins m) ↔ ∃ d ∈ text.head?, CharsJoin c d := by
  cases text with
  | nil => simp [wordLeaves]
  | cons d text =>
    obtain ⟨m, hhead, hjoins⟩ := exists_head?_pushChar d (wordLeaves text)
    rw [wordLeaves_cons, hhead]
    simp [hjoins, joins_charLeaf_iff]

/-- A cut between two texts that falls between two characters of one leaf. -/
def CutsLeaf (before after : List Char) : Prop :=
  ∃ c ∈ before.getLast?, ∃ d ∈ after.head?, CharsJoin c d

/-- The leaves of two texts are those of the whole, if they are not cut out of the middle of a leaf. -/
theorem wordLeaves_append {before after : List Char} (h : ¬ CutsLeaf before after) :
    wordLeaves (before ++ after) = wordLeaves before ++ wordLeaves after := by
  induction before with
  | nil => rfl
  | cons c before ih =>
    by_cases hne : before = []
    · subst hne
      have hapart : ∀ m ∈ (wordLeaves after).head?, ¬ (charLeaf c).Joins m := by
        intro m hm hjoins
        exact h ⟨c, rfl, (joins_head?_wordLeaves_iff after).1 ⟨m, hm, hjoins⟩⟩
      rw [List.singleton_append, wordLeaves_cons, pushChar_of_apart hapart, wordLeaves_singleton, List.singleton_append]
    · have hlast : (c :: before).getLast? = before.getLast? := by
        rw [List.getLast?_cons, List.getLast?_eq_some_getLast hne]
        rfl
      have hcut : ¬ CutsLeaf before after := by
        rw [CutsLeaf, ← hlast]
        exact h
      calc wordLeaves (c :: before ++ after)
        _ = pushChar c (wordLeaves before ++ wordLeaves after) := by
          rw [List.cons_append, wordLeaves_cons, ih hcut]
        _ = wordLeaves (c :: before) ++ wordLeaves after :=
          pushChar_append c (wordLeaves_ne_nil hne) _

/-! ## What is written for them -/

/-- A text with one space for each run of blank characters. -/
def closeBlanks : List Char → List Char
  | [] => []
  | c :: text =>
    if Text.isBlank c then ' ' :: closeBlanks (text.dropWhile Text.isBlank) else c :: closeBlanks text
  termination_by text => text.length
  decreasing_by
    · have := (List.dropWhile_sublist (p := Text.isBlank) (l := text)).length_le
      simp only [List.length_cons]
      omega
    · simp

theorem written_word (text : String) : (Leaf.word text).written = text.toList := rfl

theorem written_space : Leaf.space.written = [' '] := rfl

theorem written_symbol (c : Char) : (Leaf.symbol c).written = [c] := rfl

theorem flatten_writtenEach_map_leaf (run : List Leaf) :
    (writtenEach (run.map .leaf)).flatten = run.flatMap Leaf.written := by
  rw [writtenEach_eq_map, List.map_map, List.flatMap_def]
  exact congrArg List.flatten (List.map_congr_left fun _ _ => rfl)

theorem wordLeaves_of_blank (hc : Text.isBlank c) (text : List Char) :
    wordLeaves (c :: text) = .space :: wordLeaves (text.dropWhile Text.isBlank) := by
  induction text generalizing c with
  | nil =>
    rw [wordLeaves_singleton, charLeaf_of_blank hc]
    rfl
  | cons d text ih =>
    by_cases hd : Text.isBlank d
    · rw [wordLeaves_cons, ih hd, pushChar_space hc, List.dropWhile_cons_of_pos hd]
    · have hapart : ∀ m ∈ (wordLeaves (d :: text)).head?, ¬ (charLeaf c).Joins m := by
        intro m hm hjoins
        obtain ⟨e, he, hce⟩ := (joins_head?_wordLeaves_iff (d :: text)).1 ⟨m, hm, hjoins⟩
        obtain rfl : d = e := by simpa using he
        rcases hce with ⟨hword, -⟩ | ⟨-, hblank⟩
        · rw [isBlank_of_isAlphanumeric hword] at hc
          exact Bool.false_ne_true hc
        · exact hd hblank
      rw [List.dropWhile_cons_of_neg hd, wordLeaves_cons, pushChar_of_apart hapart, charLeaf_of_blank hc]

theorem written_pushChar (hc : Text.isBlank c = false) (run : List Leaf) :
    (pushChar c run).flatMap Leaf.written = c :: run.flatMap Leaf.written := by
  rcases pushChar_cases c run with hapart | ⟨hblank, -⟩ | ⟨hword, w, rest, rfl⟩
  · rw [pushChar_of_apart hapart, List.flatMap_cons]
    rcases char_cases c with ⟨hblank, -⟩ | ⟨-, hword⟩ | ⟨-, hword⟩
    · rw [hc] at hblank
      cases hblank
    · rw [charLeaf_of_alphanumeric hword, written_word, String.toList_ofList, List.singleton_append]
    · rw [charLeaf_of_symbol hc hword, written_symbol, List.singleton_append]
  · rw [hc] at hblank
    cases hblank
  · rw [pushChar_word hword, List.flatMap_cons, List.flatMap_cons, written_word, written_word, String.toList_ofList,
      List.cons_append]

/-- The leaves of a text are written as the text with its blank runs closed up. -/
theorem written_wordLeaves (text : List Char) : (wordLeaves text).flatMap Leaf.written = closeBlanks text := by
  fun_induction closeBlanks text with
  | case1 => rfl
  | case2 c text hc ih =>
    rw [wordLeaves_of_blank hc, List.flatMap_cons, written_space, ih, List.singleton_append]
  | case3 c text hc ih => rw [wordLeaves_cons, written_pushChar (by simpa using hc), ih]

theorem foldr_pushChar_word {chars : List Char} (hne : chars ≠ []) (hchars : ∀ c ∈ chars, Text.isAlphanumeric c)
    (hapart : ∀ m ∈ run.head?, ¬ (Leaf.word (String.ofList chars)).Joins m) :
    chars.foldr pushChar run = .word (String.ofList chars) :: run := by
  induction chars with
  | nil => exact absurd rfl hne
  | cons c chars ih =>
    obtain ⟨hc, hchars⟩ := List.forall_mem_cons.1 hchars
    rw [List.foldr_cons]
    by_cases hchars' : chars = []
    · subst hchars'
      rw [← charLeaf_of_alphanumeric hc] at hapart ⊢
      exact pushChar_of_apart hapart
    · rw [ih hchars' hchars (apart_of_word hapart _), pushChar_word hc, String.toList_ofList]

/-- Tokens that do not join are the leaves of what is written for them. -/
theorem wordLeaves_written (h : TokenRun run) : wordLeaves (run.flatMap Leaf.written) = run := by
  induction run with
  | nil => rfl
  | cons l run ih =>
    obtain ⟨hl, hapart, hrun⟩ := tokenRun_cons.1 h
    have hread : wordLeaves ((l :: run).flatMap Leaf.written) = l.written.foldr pushChar run := by
      rw [List.flatMap_cons, wordLeaves, List.foldr_append, ← wordLeaves, ih hrun]
    rw [hread]
    cases hl with
    | @word text hne hchars =>
      rw [← String.ofList_toList (s := text)] at hapart
      rw [written_word, foldr_pushChar_word hne hchars hapart, String.ofList_toList]
    | space =>
      have hspace : charLeaf ' ' = .space := charLeaf_of_blank (by decide)
      rw [← hspace] at hapart
      exact (pushChar_of_apart hapart).trans (by rw [hspace])
    | @symbol c hword hblank =>
      rw [← charLeaf_of_symbol hblank hword] at hapart
      exact (pushChar_of_apart hapart).trans (by rw [charLeaf_of_symbol hblank hword])

/-- The words of a text are the one run of words, spaces and symbols without neighbours that join which is written as
the text with its blank runs closed up. They are read back from what is written for them, and a cut of the text cuts
them in two, unless it falls inside of a word or of a run of blank characters. -/
theorem words_canonical (text : List Char) :
    (writtenEach (words text)).flatten = closeBlanks text
      ∧ AreTokens (words text)
      ∧ (∀ blocks, AreTokens blocks → (writtenEach blocks).flatten = closeBlanks text → blocks = words text)
      ∧ words (writtenEach (words text)).flatten = words text
      ∧ ∀ before after, text = before ++ after → ¬ CutsLeaf before after →
        words text = words before ++ words after := by
  have hwritten : (writtenEach (words text)).flatten = closeBlanks text := by
    rw [words, flatten_writtenEach_map_leaf, written_wordLeaves]
  have hrun := tokenRun_wordLeaves text
  have hback : wordLeaves (closeBlanks text) = wordLeaves text := by
    rw [← written_wordLeaves, wordLeaves_written hrun]
  refine ⟨hwritten, ⟨_, rfl, hrun⟩, ?_, ?_, ?_⟩
  · rintro blocks ⟨run, rfl, htokens⟩ h
    rw [flatten_writtenEach_map_leaf] at h
    rw [words, ← hback, ← h, wordLeaves_written htokens]
  · rw [hwritten, words, hback, words]
  · rintro before after rfl hcut
    rw [words, wordLeaves_append hcut, List.map_append, words, words]

/-- Two blank characters after a symbol, and a cut in front of them. -/
theorem words_canonical_twoBlanks :
    let text := "a,  b".toList
    let blocks : List Block := [.leaf (.word "a"), .leaf (.symbol ','), .leaf .space, .leaf (.word "b")]
    AreTokens blocks ∧ (writtenEach blocks).flatten = closeBlanks text ∧ blocks = words text
      ∧ ¬ CutsLeaf "a,".toList "  b".toList ∧ words text = words "a,".toList ++ words "  b".toList := by
  intro text blocks
  obtain ⟨-, -, hunique, -, hcut⟩ := words_canonical text
  have htokens : AreTokens blocks := by
    refine ⟨[.word "a", .symbol ',', .space, .word "b"], rfl, ?_, by simp [Leaf.Joins]⟩
    have hword {c : Char} (hc : Text.isAlphanumeric c) : (Leaf.word (String.ofList [c])).IsToken :=
      .word (by simp) (by simpa using hc)
    have hcomma : (Leaf.symbol ',').IsToken := .symbol (by decide) (by decide)
    simpa using ⟨hword (c := 'a') (by decide), hcomma, .space, hword (c := 'b') (by decide)⟩
  have hwritten : (writtenEach blocks).flatten = closeBlanks text := by decide +kernel
  have hapart : ¬ CutsLeaf "a,".toList "  b".toList := by
    rintro ⟨c, hc, d, hd, hjoin⟩
    obtain rfl : ',' = c := by simpa using hc
    obtain rfl : ' ' = d := by simpa using hd
    exact absurd hjoin (by unfold CharsJoin; decide)
  exact ⟨htokens, hwritten, hunique blocks htokens hwritten, hapart, hcut _ _ rfl hapart⟩

end MacroDoc
