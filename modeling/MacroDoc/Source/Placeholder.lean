import MacroDoc.Block
import MacroDoc.Text.Scan

/-!
# Placeholders

An inline call is cut out of its source before the Markdown is read, and a placeholder stands for it: its number in
private-use digits between two private-use marks. Markdown takes these for letters of a word.

* `placeholder` : the placeholder of a number;
* `readNumber?` : the number of a placeholder;
* `textParts` : a text as plain text, numbers of calls, and marks that begin no placeholder.
-/

namespace MacroDoc

def placeholderStart : Char := '\uE000'

def placeholderEnd : Char := '\uE001'

def placeholderZero : Nat := 0xE010

def placeholderDigit (c : Char) : Char :=
  Char.ofNat (placeholderZero + (c.toNat - '0'.toNat))

def placeholder (n : Nat) : List Char :=
  placeholderStart :: (Nat.toDigits 10 n).map placeholderDigit ++ [placeholderEnd]

def digitsNumber? (n : Nat) : List Char → Option Nat
  | [] => some n
  | c :: cs =>
    if placeholderZero ≤ c.toNat && c.toNat ≤ placeholderZero + 9 then
      digitsNumber? (n * 10 + (c.toNat - placeholderZero)) cs
    else none

/-- Numbers of placeholders are machine words. -/
def maxNumber : Nat := Nat.pow 2 64

/-- Read a placeholder after its first mark: its number, and how many characters it has left. -/
def readNumber? (text : List Char) : Option (Nat × Nat) :=
  let digits := text.takeWhile (· != placeholderEnd)
  if digits.length = text.length then none
  else (digitsNumber? 0 digits) >>= fun n => if n < maxNumber then some (n, digits.length + 1) else none

/-- A part of a text in which placeholders may stand. -/
inductive TextPart where
  | plain (text : List Char)
  | call (number : Nat)
  | stray
  deriving DecidableEq

def consPlain (c : Char) : List TextPart → List TextPart
  | .plain text :: rest => .plain (c :: text) :: rest
  | parts => .plain [c] :: parts

def textParts (text : List Char) : List TextPart :=
  match text with
  | [] => []
  | c :: cs =>
    if c = placeholderStart then
      match readNumber? cs with
      | some (n, length) => .call n :: textParts (cs.drop length)
      | none => .stray :: textParts cs
    else consPlain c (textParts cs)
  termination_by text.length
  decreasing_by all_goals (simp only [List.length_cons, List.length_drop]; omega)

/-- An inline call that was cut out of a source: its invocation until it is put into the tree, and its text. -/
structure CutCall where
  invocation : Option Invocation
  text : List Char
  deriving DecidableEq

/-- The calls after the invocation of one of them has been used up. -/
def useCall (calls : List CutCall) (n : Nat) : List CutCall :=
  calls.modify n fun call => { call with invocation := none }

end MacroDoc
