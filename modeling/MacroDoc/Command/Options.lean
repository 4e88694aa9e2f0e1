import MacroDoc.Text.Scan

/-!
# Options and operands

Arguments are options and operands. An option is written `--name`, or `-n` if it has a letter; letters can share one
dash. The value of an option stands after `=`, right after its letter, or in the next argument. After `--` all
arguments are operands.

* `OptionShape` : an option, and which values it takes;
* `Item`, `readItems` : the options and operands of arguments, up to the first that cannot be read;
* `Given`, `gather` : the options and operands all together.
-/

namespace MacroDoc.Command

/-! ## Options -/

/-- Which values an option takes. -/
inductive OptionKind where
  | flag
  | text
  | location
  | number
  deriving DecidableEq

/-- An option: its name, its letter, its values, and whether it may be given more than once. -/
structure OptionShape where
  name : String
  letter : Option Char
  kind : OptionKind
  repeatable : Bool

/-- Numbers that an option may take are below this. -/
def numberBound : Nat := Nat.pow 2 64

/-- Read a number; a plus sign may stand before its digits. -/
def readNumber? (text : List Char) : Option Nat :=
  let digits := if text.head? = some '+' then text.drop 1 else text
  if digits.isEmpty || !digits.all Char.isDigit then none
  else some (Text.numeral 10 digits) |>.filter (· < numberBound)

def OptionKind.accepts (kind : OptionKind) (value : List Char) : Bool :=
  match kind with
  | flag => false
  | text => true
  | location => !value.isEmpty
  | number => (readNumber? value).isSome

/-! ## Items -/

/-- An option, with its value if it takes one; an operand; or something that cannot be read. -/
inductive Item where
  | option (shape : OptionShape) (value : String)
  | operand (text : String)
  | invalid

def OptionShape.item (shape : OptionShape) (value : List Char) : Item :=
  if shape.kind.accepts value then .option shape (String.ofList value) else .invalid

/-- What an argument holds by itself: items, and maybe an option that takes its value from the next argument. -/
structure Reading where
  items : List Item
  waiting : Option OptionShape

/-- Read an option by name, after its dashes. -/
def readNamed (shapes : List OptionShape) (text : List Char) : Reading :=
  let (name, value) := match Text.splitOnce? '=' text with
    | some (name, value) => (name, some value)
    | none => (text, none)
  match shapes.find? (·.name.toList = name), value with
  | none, _ => ⟨[.invalid], none⟩
  | some shape, some value => ⟨[shape.item value], none⟩
  | some shape, none => if shape.kind = .flag then ⟨[.option shape ""], none⟩ else ⟨[], some shape⟩

/-- Read options by letter, after their dash. -/
def readLetters (shapes : List OptionShape) : List Char → Reading
  | [] => ⟨[], none⟩
  | letter :: rest =>
    match shapes.find? (·.letter = some letter) with
    | none => ⟨[.invalid], none⟩
    | some shape =>
      if shape.kind = .flag then
        let others := readLetters shapes rest
        ⟨.option shape "" :: others.items, others.waiting⟩
      else match rest with
        | [] => ⟨[], some shape⟩
        | '=' :: value => ⟨[shape.item value], none⟩
        | value => ⟨[shape.item value], none⟩

/-- Read one argument. A dash alone is an operand. -/
def readArgument (shapes : List OptionShape) (argument : String) : Reading :=
  match argument.toList with
  | '-' :: '-' :: text => readNamed shapes text
  | ['-'] => ⟨[.operand argument], none⟩
  | '-' :: letters => readLetters shapes letters
  | _ => ⟨[.operand argument], none⟩

/-- Whether an argument can be the value of the option before it. -/
def canBeValue (argument : String) : Bool :=
  argument = "-" || argument.toList.head? ≠ some '-'

def readItems (shapes : List OptionShape) : List String → List Item
  | [] => []
  | "--" :: rest => rest.map .operand
  | argument :: rest =>
    let reading := readArgument shapes argument
    match reading.waiting, rest with
    | none, rest => reading.items ++ readItems shapes rest
    | some _, [] => reading.items ++ [.invalid]
    | some shape, value :: rest =>
      if canBeValue value then reading.items ++ shape.item value.toList :: readItems shapes rest
      else reading.items ++ [.invalid]

/-! ## Arguments as a whole -/

/-- The options of some arguments by name, and the operands, in order. -/
structure Given where
  options : List (String × String)
  operands : List String

namespace Given

def has (g : Given) (name : String) : Bool :=
  g.options.any (·.1 = name)

def values (g : Given) (name : String) : List String :=
  (g.options.filter (·.1 = name)).map (·.2)

def value? (g : Given) (name : String) : Option String :=
  (g.values name).head?

end Given

/-- Why arguments are no request of their own: they cannot be read, or they ask about the program. -/
inductive Interruption where
  | rejected
  | help
  | version
  deriving DecidableEq

/-- Add items to what was given, of which there may be at most `limit` operands. Questions are answered as soon as they
are met. -/
def gatherFrom (limit : Nat) (given : Given) : List Item → Except Interruption Given
  | [] => .ok given
  | .invalid :: _ => .error .rejected
  | .operand text :: rest =>
    if given.operands.length < limit then
      gatherFrom limit { given with operands := given.operands ++ [text] } rest
    else .error .rejected
  | .option shape value :: rest =>
    if shape.name = "help" then .error .help
    else if shape.name = "version" then .error .version
    else if given.has shape.name && !shape.repeatable then .error .rejected
    else gatherFrom limit { given with options := given.options ++ [(shape.name, value)] } rest

def gather (shapes : List OptionShape) (limit : Nat) (arguments : List String) : Except Interruption Given :=
  gatherFrom limit ⟨[], []⟩ (readItems shapes arguments)

end MacroDoc.Command
