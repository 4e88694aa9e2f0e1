import MacroDoc.Command.Options
import MacroDoc.Dialect

/-!
# Requests and outcomes

What the arguments of the program ask it to do: expand a document, run test files, or say something about itself. A
document alone asks for its expansion.

* `ExpandRequest`, `TestRequest`, `Request` : what is asked;
* `Request.read` : the request of some arguments, if they make one;
* `Outcome` : what a command writes, and the status that it ends with.
-/

namespace MacroDoc.Command

/-- Expand the document in a file. What else is written than its markup is up to the switches. -/
structure ExpandRequest where
  file : String
  dialect : String
  macroFiles : List String
  configFile : Option String
  maxDepth : Option Nat
  strict : Bool
  check : Bool
  dump : Bool
  events : Bool
  listMacros : Bool

/-- Run the test file at a location, or those in the folder at a location. -/
structure TestRequest where
  location : String
  categories : List String
  listCategories : Bool
  colored : Bool

/-- What the program is asked to do. -/
inductive Request where
  | expand (request : ExpandRequest)
  | test (request : TestRequest)
  | help
  | version

/-! ## Shapes -/

/-- Options that may stand before and after the command. -/
def commonShapes : List OptionShape :=
  [⟨"no-color", none, .flag, false⟩, ⟨"verbose", some 'v', .flag, true⟩, ⟨"help", some 'h', .flag, true⟩]

def programShapes : List OptionShape :=
  ⟨"version", some 'V', .flag, true⟩ :: commonShapes

def expandShapes : List OptionShape :=
  [⟨"syntax", some 's', .text, false⟩, ⟨"macros", some 'm', .location, true⟩, ⟨"config", some 'c', .location, false⟩,
    ⟨"max-depth", none, .number, false⟩, ⟨"strict", none, .flag, false⟩, ⟨"check", none, .flag, false⟩,
    ⟨"ast", none, .flag, false⟩, ⟨"events", none, .flag, false⟩, ⟨"list-macros", none, .flag, false⟩] ++ commonShapes

def testShapes : List OptionShape :=
  [⟨"category", some 'c', .text, true⟩, ⟨"list-categories", none, .flag, false⟩] ++ commonShapes

/-! ## Reading -/

def isDashed (argument : String) : Bool :=
  argument.toList.head? = some '-'

def commandWords : List String := ["run", "test", "help"]

/-- The arguments with the command that a document alone stands for. -/
def completeArguments (arguments : List String) : List String :=
  match arguments.dropWhile isDashed with
  | [] => arguments
  | word :: _ =>
    if word ∈ commandWords then arguments
    else arguments.takeWhile isDashed ++ "run" :: arguments.dropWhile isDashed

def expandRequest (g : Given) (file : String) : ExpandRequest where
  file := file
  dialect := (g.value? "syntax").getD Dialect.default.render
  macroFiles := g.values "macros"
  configFile := g.value? "config"
  maxDepth := (g.value? "max-depth").bind fun n => readNumber? n.toList
  strict := g.has "strict"
  check := g.has "check"
  dump := g.has "ast"
  events := g.has "events"
  listMacros := g.has "list-macros"

def testRequest (before g : Given) (location : String) : TestRequest where
  location := location
  categories := g.values "category"
  listCategories := g.has "list-categories"
  colored := !before.has "no-color" && !g.has "no-color"

/-- What options and one operand ask for. -/
def requestOf (shapes : List OptionShape) (arguments : List String) (make : Given → String → Request) :
    Except Interruption Request := do
  let given ← gather shapes 1 arguments
  match given.operands with
  | [operand] => .ok (make given operand)
  | _ => .error .rejected

/-- What a command with its arguments asks for; `before` stands before the command. -/
def commandRequest (before : Given) (word : String) (arguments : List String) : Except Interruption Request :=
  match word with
  | "run" => requestOf expandShapes arguments fun g file => .expand (expandRequest g file)
  | "test" => requestOf testShapes arguments fun g location => .test (testRequest before g location)
  | "help" => .error (if arguments.all (· ∈ commandWords) ∧ arguments.length ≤ 1 then .help else .rejected)
  | _ => .error .rejected

/-- What arguments with a command ask for. -/
def completeRequest (arguments : List String) : Except Interruption Request := do
  let options := arguments.takeWhile isDashed
  let before ← gather programShapes 0 options
  match arguments.dropWhile isDashed with
  | word :: rest => if "--" ∈ options then .error .rejected else commandRequest before word rest
  | [] => .error .rejected

/-- The request of some arguments, if they make one. -/
def Request.read (arguments : List String) : Option Request :=
  match completeRequest (completeArguments arguments) with
  | .ok request => some request
  | .error .help => some .help
  | .error .version => some .version
  | .error .rejected => none

/-! ## Outcomes -/

/-- What a command wrote to its output, what it had to say about that, and the status that it ended with. -/
structure Outcome where
  status : Nat
  output : String
  messages : String
  deriving DecidableEq

def unlines (lines : List String) : String :=
  String.join (lines.map (· ++ "\n"))

namespace Outcome

def success (output messages : String) : Outcome := ⟨0, output, messages⟩

def failure (messages : String) : Outcome := ⟨1, "", messages⟩

def error (reason : String) : Outcome := failure (unlines ["error: " ++ reason])

/-- Arguments that make no request. -/
def rejected : Outcome := ⟨2, "", unlines ["error: unexpected arguments; see --help"]⟩

end Outcome

end MacroDoc.Command
