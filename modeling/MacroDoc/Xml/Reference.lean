import MacroDoc.Text.Scan

/-!
# References in XML text

A reference stands between an ampersand and a semicolon. It names one of five characters, or gives the number of a
character in decimal or, after an `x`, in hexadecimal.

* `ReferenceFault` : why a reference stands for nothing;
* `readNumeral` : a number of at most 32 bits;
* `resolveReference` : what a reference stands for;
* `unescape` : a text with its references resolved.
-/

namespace MacroDoc.Xml

/-- Why digits are no number of at most 32 bits. -/
inductive NumeralFault where
  | empty
  | sign
  | invalidDigit
  | tooLarge
  deriving DecidableEq

def NumeralFault.message : NumeralFault → String
  | empty => "cannot parse integer from empty string"
  | sign => "unexpected number sign"
  | invalidDigit => "invalid digit found in string"
  | tooLarge => "number too large to fit in target type"

/-- Why a reference stands for nothing. Ranges are in bytes. -/
inductive ReferenceFault where
  | unknownName (start stop : Nat) (name : List Char)
  | unterminated (start stop : Nat)
  | numeral (fault : NumeralFault)
  | notCharacter (number : Nat)
  | forbidden (number : Nat)
  deriving DecidableEq

def ReferenceFault.message : ReferenceFault → String
  | unknownName start stop name =>
    "at " ++ toString start ++ ".." ++ toString stop ++ ": unrecognized entity `" ++ String.ofList name ++ "`"
  | unterminated start stop =>
    "Error while escaping character at range " ++ toString start ++ ".." ++ toString stop
      ++ ": Cannot find ';' after '&'"
  | numeral fault => "invalid character reference: " ++ fault.message
  | notCharacter number => "invalid character reference: `" ++ toString number ++ "` is not a valid codepoint"
  | forbidden number =>
    "invalid character reference: 0x" ++ String.ofList (Nat.toDigits 16 number) ++ " character is not permitted in XML"

/-- Read digits after the number `n`. -/
def readDigits (radix n : Nat) : List Char → Except NumeralFault Nat
  | [] => .ok n
  | c :: cs =>
    match Text.digit? radix c with
    | none => .error .invalidDigit
    | some d => if n * radix + d < Nat.pow 2 32 then readDigits radix (n * radix + d) cs else .error .tooLarge

/-- Read a number of at most 32 bits. -/
def readNumeral (radix : Nat) (digits : List Char) : Except NumeralFault Nat :=
  match digits with
  | [] => .error .empty
  | c :: _ => if c = '+' ∨ c = '-' then .error .sign else readDigits radix 0 digits

/-- The character with a number. Zero is not allowed in XML. -/
def numberedCharacter (digits : List Char) : Except ReferenceFault Char :=
  let number := match digits with
    | 'x' :: hexadecimal => readNumeral 16 hexadecimal
    | _ => readNumeral 10 digits
  match number with
  | .error fault => .error (.numeral fault)
  | .ok n =>
    if n = 0 then .error (.forbidden n)
    else if n.isValidChar then .ok (Char.ofNat n)
    else .error (.notCharacter n)

def namedCharacters : List (List Char × Char) :=
  [(['l', 't'], '<'), (['g', 't'], '>'), (['a', 'm', 'p'], '&'), (['a', 'p', 'o', 's'], '\''),
    (['q', 'u', 'o', 't'], '"')]

/-- What a reference stands for that begins right after byte `start`. -/
def resolveReference (start : Nat) (name : List Char) : Except ReferenceFault Char :=
  match name with
  | '#' :: digits => numberedCharacter digits
  | _ =>
    match namedCharacters.lookup name with
    | some c => .ok c
    | none => .error (.unknownName start (start + Text.byteLength name) name)

/-- A character that the name of a reference may hold. -/
def isReferenceChar (c : Char) : Bool :=
  c ≠ '&' && c ≠ ';'

/-- Resolve the references of a text that ends at byte `total`, from byte `place` on. -/
def unescapeFrom (total place : Nat) : List Char → Except ReferenceFault (List Char)
  | [] => .ok []
  | c :: rest =>
    if c = '&' then
      match h : rest.dropWhile isReferenceChar with
      | ';' :: after =>
        let name := rest.takeWhile isReferenceChar
        match resolveReference (place + 1) name with
        | .error fault => .error fault
        | .ok resolved =>
          have : after.length < rest.length + 1 := by
            have := (List.dropWhile_suffix (l := rest) isReferenceChar).length_le
            rw [h] at this
            simp at this
            omega
          (unescapeFrom total (place + Text.byteLength name + 2) after).map (resolved :: ·)
      | _ => .error (.unterminated place total)
    else (unescapeFrom total (place + c.utf8Size) rest).map (c :: ·)
  termination_by text => text.length

def unescape (text : List Char) : Except ReferenceFault (List Char) :=
  unescapeFrom (Text.byteLength text) 0 text

end MacroDoc.Xml
