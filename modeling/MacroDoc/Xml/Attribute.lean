import MacroDoc.Xml.Reference

/-!
# Attributes

The attributes of a tag are names with quoted values. Places are counted in bytes from the start of the tag's name.

* `AttributeFault` : why attributes cannot be read;
* `readAttributes` : the attributes in order, with the references in their values resolved.
-/

namespace MacroDoc.Xml

/-- The blank characters of XML. -/
def isBlank (c : Char) : Bool :=
  c = ' ' || c = '\r' || c = '\n' || c = '\t'

/-- Why attributes cannot be read. -/
inductive AttributeFault where
  | expectedEquals (place : Nat)
  | expectedValue (place : Nat)
  | unquotedValue (place : Nat)
  | expectedQuote (place : Nat) (quote : Char)
  | duplicated (place earlier : Nat)
  | reference (fault : ReferenceFault)
  deriving DecidableEq

def atPlace (place : Nat) (message : String) : String :=
  "position " ++ toString place ++ ": " ++ message

def AttributeFault.message : AttributeFault → String
  | expectedEquals place => atPlace place "attribute key must be directly followed by `=` or space"
  | expectedValue place => atPlace place "`=` must be followed by an attribute value"
  | unquotedValue place => atPlace place "attribute value must be enclosed in `\"` or `'`"
  | expectedQuote place quote =>
    atPlace place ("missing closing quote `" ++ String.singleton quote ++ "` in attribute value")
  | duplicated place earlier =>
    atPlace place ("duplicated attribute, previous declaration at position " ++ toString earlier)
  | reference fault => fault.message

/-- A text that stands at a byte of a tag. -/
structure Placed where
  place : Nat
  text : List Char

def Placed.dropWhile (t : Placed) (p : Char → Bool) : Placed :=
  ⟨t.place + Text.byteLength (t.text.takeWhile p), t.text.dropWhile p⟩

def Placed.drop (t : Placed) : Placed :=
  match t.text with
  | [] => t
  | c :: rest => ⟨t.place + c.utf8Size, rest⟩

/-- A name that has been read, and the byte where it stands. -/
structure PlacedName where
  place : Nat
  name : List Char

/-- Read a name with the equals sign after it; the text begins with the name. A name has at least one character,
whatever that is. -/
def readName (t : Placed) : Except AttributeFault (PlacedName × Placed) :=
  let isInside (c : Char) : Bool := c ≠ '=' && !isBlank c
  let name := t.text.take 1 ++ (t.text.drop 1).takeWhile isInside
  let rest := (t.drop.dropWhile isInside).dropWhile isBlank
  match rest.text with
  | '=' :: _ => .ok (⟨t.place, name⟩, rest.drop)
  | _ => .error (.expectedEquals rest.place)

/-- Read a quoted value, and resolve its references later. -/
def readValue (t : Placed) : Except AttributeFault (List Char × Placed) :=
  let t := t.dropWhile isBlank
  match t.text with
  | [] => .error (.expectedValue t.place)
  | quote :: _ =>
    if quote = '"' || quote = '\'' then
      let value := (t.drop.text).takeWhile (· ≠ quote)
      let rest := t.drop.dropWhile (· ≠ quote)
      match rest.text with
      | [] => .error (.expectedQuote rest.place quote)
      | _ :: _ => .ok (value, rest.drop)
    else .error (.unquotedValue t.place)

/-- Read one attribute, given the names before it: its name, its value, and the text after it. -/
def readAttribute (seen : List PlacedName) (t : Placed) : Except AttributeFault (PlacedName × List Char × Placed) := do
  let (name, t) ← readName t
  match seen.find? (·.name = name.name) with
  | some earlier => .error (.duplicated name.place earlier.place)
  | none =>
    let (value, t) ← readValue t
    match unescape value with
    | .ok value => .ok (name, value, t)
    | .error fault => .error (.reference fault)

/-- Read at most `fuel` attributes, given the names before them. -/
def readAttributesFrom (seen : List PlacedName) : Nat → Placed → Except AttributeFault (List (String × String))
  | 0, _ => .ok []
  | fuel + 1, t =>
    let t := t.dropWhile isBlank
    if t.text.isEmpty then .ok []
    else do
      let (name, value, t) ← readAttribute seen t
      let others ← readAttributesFrom (seen ++ [name]) fuel t
      return (String.ofList name.name, String.ofList value) :: others

/-- Read the attributes of a text that stands at byte `place` of its tag. There are no more of them than it has
characters. -/
def readAttributes (place : Nat) (text : List Char) : Except AttributeFault (List (String × String)) :=
  readAttributesFrom [] text.length ⟨place, text⟩

end MacroDoc.Xml
