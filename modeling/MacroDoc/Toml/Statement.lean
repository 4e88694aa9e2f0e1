import MacroDoc.Toml.Scalar

/-!
# TOML statements

A document is a sequence of statements, each on its own line.

* `readKeys` : a key, which may have several parts with dots between them;
* `Statement` : a pair of key and value, or the header of a table;
* `readValue` : a value; arrays and inline tables do not nest more than `maxDepth` deep;
* `readStatements` : the statements of a text.
-/

namespace MacroDoc.Toml

/-- How deep arrays and inline tables may nest, and how many parts a key may have. -/
def maxDepth : Nat := 79

def skipComment (text : List Char) : List Char :=
  match text with
  | '#' :: rest => rest.dropWhile isPlain
  | _ => text

/-- A text after spaces, tabs, comments and line ends. -/
def skipBlank : Nat → List Char → List Char
  | 0, text => text
  | fuel + 1, text =>
    let text := skipComment (skipSpaces text)
    match afterNewline text with
    | some rest => skipBlank fuel rest
    | none => text

/-- The text after the end of a line, which may have a comment in front. -/
def afterLine (text : List Char) : Option (List Char) :=
  let text := skipComment (skipSpaces text)
  if text.isEmpty then some [] else afterNewline text

/-! ## Keys -/

def isBareKeyChar (c : Char) : Bool :=
  c.isAlphanum || c = '-' || c = '_'

def readKeyPart (text : List Char) : Option (String × List Char) :=
  match readLineString text with
  | some (key, rest) => some (String.ofList key, rest)
  | none =>
    let key := text.takeWhile isBareKeyChar
    if key.isEmpty then none else some (String.ofList key, text.dropWhile isBareKeyChar)

/-- The parts of a key, of which there are at most `fuel`. -/
def readKeys : Nat → List Char → Option (List String × List Char)
  | 0, _ => none
  | fuel + 1, text => do
    let (key, rest) ← readKeyPart (skipSpaces text)
    match skipSpaces rest with
    | '.' :: rest =>
      let (keys, rest) ← readKeys fuel rest
      return (key :: keys, rest)
    | rest => return ([key], rest)

/-! ## Tables -/

/-- Change the table at a path of keys. Tables that are not there are made, as dotted keys or as headers make them;
dotted keys do not reach into tables that have a header, and nothing reaches into an inline table. The path of an
array of tables leads to its last table. -/
def changeAt (byDots : Bool) (change : Origin → Entries → Option Entries) :
    List String → Origin → Entries → Option Entries
  | [], origin, entries => change origin entries
  | key :: keys, _, entries =>
    match entries.lookup key with
    | none =>
      let origin := if byDots then Origin.dotted else .implied
      (changeAt byDots change keys origin []).map fun inner => entries ++ [(key, .table origin inner)]
    | some (.table origin inner) =>
      if origin = .inline || (byDots && origin = .header) then none
      else (changeAt byDots change keys origin inner).map fun inner => setEntry key (.table origin inner) entries
    | some (.tables items) =>
      (items.getLast?.bind (changeAt byDots change keys .header)).map fun last =>
        setEntry key (.tables (items.dropLast ++ [last])) entries
    | some _ => none

/-- Add a new key. After a dotted path it may be added only to a table that dotted keys made. -/
def addEntry (byDots : Bool) (key : String) (value : Value) (origin : Origin) (entries : Entries) : Option Entries :=
  if (byDots && origin ≠ .dotted) || (entries.lookup key).isSome then none else some (entries ++ [(key, value)])

/-- Add a pair of a key, which may have several parts, and a value. -/
def addPair (keys : List String) (value : Value) (entries : Entries) : Option Entries :=
  keys.getLast?.bind fun key =>
    changeAt true (addEntry (keys.length ≠ 1) key value) keys.dropLast .header entries

/-! ## Values -/

/-- The items of an array after its bracket, with the text after it. -/
def readItems (item : List Char → Option (Value × List Char)) : Nat → List Char → Option (List Value × List Char)
  | 0, _ => none
  | fuel + 1, text =>
    match skipBlank text.length text with
    | ']' :: rest => some ([], rest)
    | text => do
      let (value, text) ← item text
      match skipBlank text.length text with
      | ',' :: rest =>
        let (values, rest) ← readItems item fuel rest
        return (value :: values, rest)
      | ']' :: rest => return ([value], rest)
      | _ => none

def readPair (item : List Char → Option (Value × List Char)) (text : List Char) :
    Option ((List String × Value) × List Char) := do
  let (keys, text) ← readKeys maxDepth text
  let (value, text) ← item (skipSpaces (← expect '=' text))
  return ((keys, value), text)

/-- The pairs of an inline table after its brace, with the text after it; `entries` are those before. -/
def readPairs (item : List Char → Option (Value × List Char)) (entries : Entries) :
    Nat → List Char → Option (Entries × List Char)
  | 0, _ => none
  | fuel + 1, text => do
    let ((keys, value), text) ← readPair item text
    let entries ← addPair keys value entries
    match skipSpaces text with
    | ',' :: rest => readPairs item entries fuel rest
    | '}' :: rest => return (entries, rest)
    | _ => none

def readInlineTable (item : List Char → Option (Value × List Char)) (text : List Char) :
    Option (Value × List Char) :=
  match skipSpaces text with
  | '}' :: rest => some (.table .inline [], rest)
  | _ => (readPairs item [] text.length text).map fun (entries, rest) => (.table .inline entries, rest)

/-- The value that a text begins with; `depth` more arrays and inline tables may nest. -/
def readValue (depth : Nat) (text : List Char) : Option (Value × List Char) :=
  match text with
  | '[' :: rest =>
    match depth with
    | 0 => none
    | depth + 1 =>
      (readItems (readValue depth) (rest.length + 1) rest).map fun (items, rest) => (.array items, rest)
  | '{' :: rest =>
    match depth with
    | 0 => none
    | depth + 1 => readInlineTable (readValue depth) rest
  | c :: _ =>
    if c = '"' || c = '\'' then (readString text).map fun (s, rest) => (.string (String.ofList s), rest)
    else readTokenValue text
  | [] => none

/-! ## Statements -/

/-- A pair, the header of a table, or the header of one more table of an array. -/
inductive Statement where
  | pair (keys : List String) (value : Value)
  | table (keys : List String)
  | tableItem (keys : List String)

/-- The statement that a line begins with, and the text after it. -/
def readStatement (text : List Char) : Option (Statement × List Char) :=
  match text with
  | '[' :: '[' :: rest => do
    let (keys, rest) ← readKeys maxDepth rest
    return (.tableItem keys, ← expect ']' (← expect ']' rest))
  | '[' :: rest => do
    let (keys, rest) ← readKeys maxDepth rest
    return (.table keys, ← expect ']' rest)
  | _ => (readPair (readValue maxDepth) text).map fun ((keys, value), rest) => (.pair keys value, rest)

/-- The statements of a text of at most `fuel` lines. -/
def readStatementsFrom : Nat → List Char → Option (List Statement)
  | 0, _ => none
  | fuel + 1, text =>
    match skipBlank text.length text with
    | [] => some []
    | text => do
      let (statement, rest) ← readStatement text
      let others ← readStatementsFrom fuel (← afterLine rest)
      return statement :: others

/-- The statements of a text. A byte order mark at its start is not part of it. -/
def readStatements (text : List Char) : Option (List Statement) :=
  readStatementsFrom (text.length + 1) ((Text.dropStart? ['\uFEFF'] text).getD text)

end MacroDoc.Toml
