import MacroDoc.Text.Scan

/-!
# TOML values

Nothing here needs the value of a float or of a date. Numbers, dates and truth values are written without blanks, so
such a value is a whole run of token characters. Only a date with a time may have one space in it.

* `Origin` : how a table came to be, which decides what may still be added to it;
* `Value` : strings, integers, truth values, arrays and tables;
* `readInteger`, `isFloat`, `isDate` and its kin : the kinds of tokens;
* `readToken` : the value of a token;
* `readString` : a string in any of its four forms.
-/

namespace MacroDoc.Toml

/-! ## Values -/

/-- How a table came to be: by a header of its own, by the header of a table inside it, by a dotted key, or as an
inline table. -/
inductive Origin where
  | header
  | implied
  | dotted
  | inline
  deriving DecidableEq

/-- A value. An array of tables that was written with headers is told apart from a written array. -/
inductive Value where
  | string (text : String)
  | integer (number : Int)
  | boolean (truth : Bool)
  | float
  | date
  | array (items : List Value)
  | table (origin : Origin) (entries : List (String × Value))
  | tables (items : List (List (String × Value)))

/-- The entries of a table in the order in which their keys were written first. -/
abbrev Entries := List (String × Value)

def setEntry (key : String) (value : Value) (entries : Entries) : Entries :=
  entries.map fun (k, v) => if k = key then (k, value) else (k, v)

/-! ## Numbers -/

/-- Digits with single underscores between them: the digits. -/
def underscored (isDigit : Char → Bool) : List Char → Option (List Char)
  | [] => none
  | [c] => if isDigit c then some [c] else none
  | c :: '_' :: rest => if isDigit c then (underscored isDigit rest).map (c :: ·) else none
  | c :: rest => if isDigit c then (underscored isDigit rest).map (c :: ·) else none

/-- A text without the sign it may begin with, and whether that is a minus. -/
def dropSign : List Char → Bool × List Char
  | '-' :: rest => (true, rest)
  | '+' :: rest => (false, rest)
  | text => (false, text)

/-- A decimal numeral without a needless zero in front: its digits. -/
def decimalDigits (text : List Char) : Option (List Char) :=
  (underscored Char.isDigit text).filter fun digits => digits.length = 1 || digits.head? ≠ some '0'

/-- A number with a letter for its radix in front. -/
def readRadix (radix : Nat) (text : List Char) : Option Int :=
  (underscored (Text.isDigit radix) text).bind fun digits =>
    let n := Text.numeral radix digits
    if n < Nat.pow 2 63 then some (n : Int) else none

/-- An integer of 64 bits. -/
def readInteger (token : List Char) : Option Int :=
  match token with
  | '0' :: 'x' :: rest => readRadix 16 rest
  | '0' :: 'o' :: rest => readRadix 8 rest
  | '0' :: 'b' :: rest => readRadix 2 rest
  | _ =>
    let (negative, rest) := dropSign token
    (decimalDigits rest).bind fun digits =>
      let n := Text.numeral 10 digits
      if negative then (if n ≤ Nat.pow 2 63 then some (-(n : Int)) else none)
      else if n < Nat.pow 2 63 then some (n : Int) else none

/-- The first number that a double does not hold, not even rounded. -/
def doubleLimit : Nat := Nat.pow 2 1024 - Nat.pow 2 970

/-- Whether `digits` with a point that stands `exponent` places after the last one are too large for a double. -/
def exceedsDouble (digits : List Char) (exponent : Int) : Bool :=
  let n := Text.numeral 10 digits
  let size := ((Nat.toDigits 10 n).length : Int) + exponent
  if n = 0 || size < 309 then false
  else if size > 309 then true
  else if 0 ≤ exponent then n * Nat.pow 10 exponent.toNat ≥ doubleLimit
  else n ≥ doubleLimit * Nat.pow 10 (-exponent).toNat

def readExponent (text : List Char) : Option Int :=
  let (negative, rest) := dropSign text
  (underscored Char.isDigit rest).map fun digits =>
    let n : Int := Text.numeral 10 digits
    if negative then -n else n

/-- Whether a text is a float without its sign, and not too large for a double unless it is negative. -/
def isUnsignedFloat (negative : Bool) (text : List Char) : Bool :=
  if text = "inf".toList || text = "nan".toList then true
  else
    let isMark (c : Char) : Bool := c = '.' || c = 'e' || c = 'E'
    let fits (digits : List Char) (exponent : Int) : Bool := negative || !exceedsDouble digits exponent
    match decimalDigits (text.takeWhile (!isMark ·)), text.dropWhile (!isMark ·) with
    | some whole, '.' :: rest =>
      let isLetter (c : Char) : Bool := c = 'e' || c = 'E'
      match underscored Char.isDigit (rest.takeWhile (!isLetter ·)), rest.dropWhile (!isLetter ·) with
      | some fraction, [] => fits (whole ++ fraction) (-fraction.length)
      | some fraction, _ :: rest =>
        match readExponent rest with
        | some e => fits (whole ++ fraction) (e - fraction.length)
        | none => false
      | none, _ => false
    | some whole, _ :: rest =>
      match readExponent rest with
      | some e => fits whole e
      | none => false
    | _, _ => false

def isFloat (token : List Char) : Bool :=
  let (negative, rest) := dropSign token
  isUnsignedFloat negative rest

/-! ## Dates and times -/

/-- A number of exactly `n` digits at the start of a text, and the text after it. -/
def fixedNumber (n : Nat) (text : List Char) : Option (Nat × List Char) :=
  let digits := text.take n
  if digits.length = n && digits.all Char.isDigit then some (Text.numeral 10 digits, text.drop n) else none

/-- A text after the character that it has to begin with. -/
def expect (c : Char) (text : List Char) : Option (List Char) :=
  Text.dropStart? [c] text

def daysOfMonth (year month : Nat) : Nat :=
  if month = 2 then (if year % 4 = 0 && (year % 100 ≠ 0 || year % 400 = 0) then 29 else 28)
  else if month = 4 || month = 6 || month = 9 || month = 11 then 30
  else 31

def afterDate (text : List Char) : Option (List Char) := do
  let (year, text) ← fixedNumber 4 text
  let (month, text) ← fixedNumber 2 (← expect '-' text)
  let (day, text) ← fixedNumber 2 (← expect '-' text)
  guard (1 ≤ month && month ≤ 12 && 1 ≤ day && day ≤ daysOfMonth year month)
  return text

def afterTime (text : List Char) : Option (List Char) := do
  let (hour, text) ← fixedNumber 2 text
  let (minute, text) ← fixedNumber 2 (← expect ':' text)
  let (second, text) ← fixedNumber 2 (← expect ':' text)
  guard (hour ≤ 23 && minute ≤ 59 && second ≤ 60)
  match text with
  | '.' :: rest =>
    guard ((rest.takeWhile Char.isDigit).length > 0)
    return rest.dropWhile Char.isDigit
  | _ => return text

/-- The text after an offset from universal time. -/
def afterOffset (text : List Char) : Option (List Char) :=
  match text with
  | 'Z' :: rest | 'z' :: rest => some rest
  | '+' :: rest | '-' :: rest => do
    let (hour, text) ← fixedNumber 2 rest
    let (minute, text) ← fixedNumber 2 (← expect ':' text)
    guard (hour ≤ 23 && minute ≤ 59)
    return text
  | _ => none

/-- Whether a token is a time of day, which may have an offset after it if it belongs to a date. -/
def isTime (hasDate : Bool) (token : List Char) : Bool :=
  match afterTime token with
  | none => false
  | some [] => true
  | some rest => hasDate && afterOffset rest = some []

/-- Whether a token is a date, a time, or both with a `T` between them. -/
def isDate (token : List Char) : Bool :=
  match afterDate token with
  | none => isTime false token
  | some [] => true
  | some (c :: rest) => (c = 'T' || c = 't') && isTime true rest

/-! ## Tokens -/

/-- A character of a value that is written without blanks. -/
def isTokenChar (c : Char) : Bool :=
  c.isAlphanum || c = '+' || c = '-' || c = '.' || c = '_' || c = ':'

def readToken (token : List Char) : Option Value :=
  if token = "true".toList then some (.boolean true)
  else if token = "false".toList then some (.boolean false)
  else match readInteger token with
    | some n => some (.integer n)
    | none => if isFloat token then some .float else if isDate token then some .date else none

/-- The value that a text begins with, if it is written without blanks, or is a date with a time after a space. -/
def readTokenValue (text : List Char) : Option (Value × List Char) :=
  let token := text.takeWhile isTokenChar
  let rest := text.dropWhile isTokenChar
  (readToken token).map fun value =>
    match rest with
    | ' ' :: more =>
      if afterDate token = some [] && isTime true (more.takeWhile isTokenChar) then
        (value, more.dropWhile isTokenChar)
      else (value, rest)
    | _ => (value, rest)

/-! ## Strings -/

/-- A character that may stand in a comment, or in a string that does not end at it. -/
def isPlain (c : Char) : Bool :=
  c = '\t' || (0x20 ≤ c.toNat && c.toNat ≠ 0x7F)

/-- The character of an escape of `n` hexadecimal digits, and the text after it. -/
def readCode (n : Nat) (text : List Char) : Option (Char × List Char) :=
  let digits := text.take n
  let code := Text.numeral 16 digits
  if digits.length = n && digits.all (Text.isDigit 16) && code.isValidChar then some (Char.ofNat code, text.drop n)
  else none

/-- The character of the escape that stands after a backslash, and the text after it. -/
def readEscape (text : List Char) : Option (Char × List Char) :=
  match text with
  | 'b' :: rest => some ('\x08', rest)
  | 'f' :: rest => some ('\x0c', rest)
  | 'n' :: rest => some ('\n', rest)
  | 'r' :: rest => some ('\r', rest)
  | 't' :: rest => some ('\t', rest)
  | '"' :: rest => some ('"', rest)
  | '\\' :: rest => some ('\\', rest)
  | 'u' :: rest => readCode 4 rest
  | 'U' :: rest => readCode 8 rest
  | _ => none

def afterNewline (text : List Char) : Option (List Char) :=
  match text with
  | '\n' :: rest | '\r' :: '\n' :: rest => some rest
  | _ => none

def skipSpaces (text : List Char) : List Char :=
  text.dropWhile fun c => c = ' ' || c = '\t'

def skipLines (fuel : Nat) (text : List Char) : List Char :=
  match fuel, afterNewline (skipSpaces text) with
  | fuel + 1, some rest => skipLines fuel rest
  | _, _ => skipSpaces text

/-- The text after a backslash and the line end and the blanks that it hides. -/
def afterHiddenLine (text : List Char) : Option (List Char) :=
  (afterNewline (skipSpaces text)).map fun rest => skipLines rest.length rest

/-- The rest of a string on one line, and the text after it. Escapes count if the quote is double. -/
def readLine (quote : Char) : Nat → List Char → Option (List Char × List Char)
  | 0, _ => none
  | _, [] => none
  | fuel + 1, c :: rest =>
    if c = quote then some ([], rest)
    else if c = '\\' && quote = '"' then do
      let (d, rest) ← readEscape rest
      let (text, rest) ← readLine quote fuel rest
      return (d :: text, rest)
    else if isPlain c then do
      let (text, rest) ← readLine quote fuel rest
      return (c :: text, rest)
    else none

/-- The rest of a string of many lines, and the text after it. It ends with three quotes; one or two more before
them belong to it. -/
def readLines (quote : Char) : Nat → List Char → Option (List Char × List Char)
  | 0, _ => none
  | _, [] => none
  | fuel + 1, c :: rest =>
    if c = quote then
      let quotes := 1 + (rest.takeWhile (· = quote)).length
      if 3 ≤ quotes then
        let own := min (quotes - 3) 2
        some (List.replicate own quote, rest.drop (own + 2))
      else do
        let (text, rest) ← readLines quote fuel rest
        return (c :: text, rest)
    else if c = '\\' && quote = '"' then
      match afterHiddenLine rest with
      | some rest => readLines quote fuel rest
      | none => do
        let (d, rest) ← readEscape rest
        let (text, rest) ← readLines quote fuel rest
        return (d :: text, rest)
    else match afterNewline (c :: rest) with
      | some rest => do
        let (text, rest) ← readLines quote fuel rest
        return ('\n' :: text, rest)
      | none =>
        if isPlain c then do
          let (text, rest) ← readLines quote fuel rest
          return (c :: text, rest)
        else none

/-- A string on one line, if the text begins with one. -/
def readLineString (text : List Char) : Option (List Char × List Char) :=
  match text with
  | c :: rest => if c = '"' || c = '\'' then readLine c (rest.length + 1) rest else none
  | [] => none

/-- A string in any form, if the text begins with one. A line end right after three quotes is not part of it. -/
def readString (text : List Char) : Option (List Char × List Char) :=
  match text with
  | '"' :: '"' :: '"' :: rest => readLines '"' (rest.length + 1) ((afterNewline rest).getD rest)
  | '\'' :: '\'' :: '\'' :: rest => readLines '\'' (rest.length + 1) ((afterNewline rest).getD rest)
  | _ => readLineString text

end MacroDoc.Toml
