/-!
# Texts

Texts are read as lists of characters. A place in a text is the number of characters before it; places are
reported in bytes.

* `isBlank`, `trim` : the Unicode property White_Space, and a text without such characters at its ends;
* `digit?`, `numeral` : the value of a digit for a radix up to sixteen, and the number that digits write;
* `byteLength` : length of the UTF-8 form;
* `indexOf?` : the first place where a pattern stands;
* `split` : the pieces of a text between the places of a character;
* `lines` : the lines of a text without their ends;
* `lineLength` : the length of the first line with its end;
* `dropEnd` : drop one trailing pattern.
-/

namespace MacroDoc.Text

/-! ## Blank characters -/

/-- A character with the Unicode property White_Space. -/
def isBlank (c : Char) : Bool :=
  let n := c.toNat
  (0x09 ≤ n && n ≤ 0x0D) || n == 0x20 || n == 0x85 || n == 0xA0 || n == 0x1680 || (0x2000 ≤ n && n ≤ 0x200A)
    || n == 0x2028 || n == 0x2029 || n == 0x202F || n == 0x205F || n == 0x3000

def trimStart (cs : List Char) : List Char :=
  cs.dropWhile isBlank

def trimEnd (cs : List Char) : List Char :=
  (cs.reverse.dropWhile isBlank).reverse

def trim (cs : List Char) : List Char :=
  trimEnd (trimStart cs)

def isBlankText (cs : List Char) : Bool :=
  cs.all isBlank

/-! ## Digits -/

def hexDigit? (c : Char) : Option Nat :=
  if c.isDigit then some (c.toNat - '0'.toNat)
  else if 'a' ≤ c && c ≤ 'f' then some (c.toNat - 'a'.toNat + 10)
  else if 'A' ≤ c && c ≤ 'F' then some (c.toNat - 'A'.toNat + 10)
  else none

/-- The value of a digit for a radix up to sixteen. -/
def digit? (radix : Nat) (c : Char) : Option Nat :=
  (hexDigit? c).filter (· < radix)

def isDigit (radix : Nat) (c : Char) : Bool :=
  (digit? radix c).isSome

def numeral (radix : Nat) (digits : List Char) : Nat :=
  digits.foldl (fun n c => n * radix + (digit? radix c).getD 0) 0

/-! ## Places and lines -/

/-- Number of bytes of the UTF-8 form. -/
def byteLength : List Char → Nat
  | [] => 0
  | c :: cs => c.utf8Size + byteLength cs

theorem byteLength_append (a b : List Char) : byteLength (a ++ b) = byteLength a + byteLength b := by
  induction a with
  | nil => simp [byteLength]
  | cons c cs ih => simp only [List.cons_append, byteLength, ih]; omega

/-- The first place where `pattern` stands. -/
def indexOf? (pattern : List Char) : List Char → Option Nat
  | [] => if pattern.isEmpty then some 0 else none
  | c :: cs => if pattern.isPrefixOf (c :: cs) then some 0 else (indexOf? pattern cs).map (· + 1)

def contains (pattern text : List Char) : Bool :=
  (indexOf? pattern text).isSome

/-- The text after `start`, if it begins with that. -/
def dropStart? (start text : List Char) : Option (List Char) :=
  if start.isPrefixOf text then some (text.drop start.length) else none

/-- The text before `ending`, if it ends with that. -/
def dropEnd? (ending text : List Char) : Option (List Char) :=
  if ending.isSuffixOf text then some (text.take (text.length - ending.length)) else none

/-- Number of characters of the first line, with the line feed that ends it. -/
def lineLength : List Char → Nat
  | [] => 0
  | c :: cs => if c = '\n' then 1 else lineLength cs + 1

/-- Cut a text at each `c`, which is dropped. There is always at least one piece. -/
def split (c : Char) : List Char → List (List Char)
  | [] => [[]]
  | d :: ds =>
    if d = c then [] :: split c ds
    else match split c ds with
      | [] => [[d]]
      | piece :: rest => (d :: piece) :: rest

/-- Cut a text after each line feed, dropping the feeds. The last piece may be empty. -/
def splitLines (text : List Char) : List (List Char) :=
  split '\n' text

/-- The lines of a text without their ends. A line ends with a line feed, which a carriage return may precede;
the text after the last line feed is a line only if it is not empty. -/
def lines (text : List Char) : List (List Char) :=
  let pieces := splitLines text
  let ended := pieces.dropLast.map fun line => (dropEnd? ['\r'] line).getD line
  match pieces.getLast? with
  | some [] | none => ended
  | some last => ended ++ [last]

/-- Cut a text at the first `c`, which is dropped. -/
def splitOnce? (c : Char) : List Char → Option (List Char × List Char)
  | [] => none
  | d :: ds => if d = c then some ([], ds) else (splitOnce? c ds).map fun (a, b) => (d :: a, b)

theorem eq_append_of_splitOnce? {c : Char} {text a b : List Char} (h : splitOnce? c text = some (a, b)) :
    text = a ++ c :: b := by
  induction text generalizing a with
  | nil => simp [splitOnce?] at h
  | cons d ds ih =>
    simp only [splitOnce?] at h
    split at h
    · next heq => simp_all
    · obtain ⟨⟨a', b'⟩, hs, heq⟩ := Option.map_eq_some_iff.1 h
      simp only [Prod.mk.injEq] at heq
      obtain ⟨rfl, rfl⟩ := heq
      rw [ih hs, List.cons_append]

theorem splitOnce?_eq_none_iff {c : Char} {text : List Char} : splitOnce? c text = none ↔ c ∉ text := by
  induction text with
  | nil => simp [splitOnce?]
  | cons d ds ih =>
    rw [splitOnce?]
    split
    · next heq => simp [heq]
    · next hne => rw [Option.map_eq_none_iff, ih, List.mem_cons, not_or, and_iff_right (Ne.symm hne)]

theorem not_mem_of_splitOnce? {c : Char} {text a b : List Char} (h : splitOnce? c text = some (a, b)) : c ∉ a := by
  induction text generalizing a with
  | nil => simp [splitOnce?] at h
  | cons d ds ih =>
    simp only [splitOnce?] at h
    split at h
    · simp_all
    · next hne =>
      obtain ⟨⟨a', b'⟩, hs, heq⟩ := Option.map_eq_some_iff.1 h
      simp only [Prod.mk.injEq] at heq
      obtain ⟨rfl, rfl⟩ := heq
      exact List.not_mem_cons_of_ne_of_not_mem (Ne.symm hne) (ih hs)

theorem splitOnce?_append_cons {c : Char} {a : List Char} (h : c ∉ a) (b : List Char) :
    splitOnce? c (a ++ c :: b) = some (a, b) := by
  induction a with
  | nil => exact if_pos rfl
  | cons d a ih =>
    obtain ⟨hne, h⟩ := not_or.1 (mt List.mem_cons.2 h)
    rw [List.cons_append, splitOnce?, if_neg (Ne.symm hne), ih h, Option.map_some]

def dropTrailing (c : Char) (text : List Char) : List Char :=
  (text.reverse.dropWhile (· == c)).reverse

end MacroDoc.Text
