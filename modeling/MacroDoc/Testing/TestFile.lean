import MacroDoc.Expansion.ConfigText

/-!
# Test files

A test file begins with its front matter: TOML between two lines that begin with `---`. The rest of it is the document
under test, which is expanded with the settings of the front matter and has to come out as that says.

* `TestCase` : the settings and expectations of a test;
* `splitFrontMatter` : the front matter and the document of a file;
* `readTestFile` : the test of a file, and its document.
-/

namespace MacroDoc.Testing

/-- A diagnostic that is expected: what its message contains, and maybe the line that it is about. -/
structure ExpectedDiagnostic where
  contains : String
  line : Option Nat
  deriving DecidableEq

/-- The settings of a test and what it expects. A missing expectation is not checked. -/
structure TestCase where
  description : Option String
  dialect : Option String
  macroFiles : List String
  config : Config
  output : Option String
  events : Option String
  failure : Option String
  parseError : Bool
  warnings : Option (List ExpectedDiagnostic)
  macroErrors : Option (List ExpectedDiagnostic)
  deriving DecidableEq

/-- Why a file is no test file. -/
inductive FrontMatterError where
  | noOpening
  | noClosing
  | unreadable
  deriving DecidableEq

def FrontMatterError.message : FrontMatterError → String
  | noOpening => "missing opening --- frontmatter delimiter"
  | noClosing => "missing closing --- frontmatter delimiter"
  | unreadable => "TOML parse error"

/-! ## Records -/

def ExpectedDiagnostic.ofToml? (value : Toml.Value) : Option ExpectedDiagnostic := do
  let fields ← Toml.fieldsOf ["contains", "line"] false value
  return ⟨← Toml.required Toml.Value.string? "contains" fields,
    ← Toml.optional Toml.Value.natural? "line" fields⟩

def TestCase.fieldNames : List String :=
  ["description", "syntax", "macros", "transform", "expect_output", "expect_events", "expect_error",
    "expect_parse_error", "expect_warnings", "expect_macro_errors"]

def TestCase.ofToml? (value : Toml.Value) : Option TestCase := do
  let fields ← Toml.fieldsOf TestCase.fieldNames true value
  let string name := Toml.optional Toml.Value.string? name fields
  let diagnostics name := Toml.optional (Toml.Value.list? ExpectedDiagnostic.ofToml?) name fields
  return ⟨← string "description", ← string "syntax",
    ← Toml.withDefault [] (Toml.Value.list? Toml.Value.string?) "macros" fields,
    ← Toml.withDefault .default Config.ofToml? "transform" fields,
    ← string "expect_output", ← string "expect_events", ← string "expect_error",
    ← Toml.withDefault false Toml.Value.boolean? "expect_parse_error" fields,
    ← diagnostics "expect_warnings", ← diagnostics "expect_macro_errors"⟩

def TestCase.read? (text : List Char) : Option TestCase :=
  (Toml.parse (String.ofList text)).bind fun entries => TestCase.ofToml? (.table .header entries)

/-! ## Files -/

/-- What opens and closes front matter. -/
def delimiter : List Char := ['-', '-', '-']

/-- What may stand at the start of a file to tell how it is encoded. -/
def byteOrderMark : Char := '\ufeff'

def dropLineEnd : List Char → List Char
  | '\n' :: rest => rest
  | '\r' :: '\n' :: rest => rest
  | text => text

/-- The front matter of a file, and the document after it. -/
def splitFrontMatter (text : List Char) : Except FrontMatterError (List Char × List Char) :=
  match Text.dropStart? delimiter (text.dropWhile (· = byteOrderMark)) with
  | none => .error .noOpening
  | some afterOpening =>
    let body := dropLineEnd afterOpening
    match Text.indexOf? ('\n' :: delimiter) body with
    | none => .error .noClosing
    | some n => .ok (Text.dropTrailing '\r' (body.take n), dropLineEnd (body.drop (n + 1 + delimiter.length)))

/-- The test of a file, and its document. -/
def readTestFile (text : String) : Except FrontMatterError (TestCase × String) := do
  let (frontMatter, document) ← splitFrontMatter text.toList
  match TestCase.read? frontMatter with
  | some test => .ok (test, String.ofList document)
  | none => .error .unreadable

end MacroDoc.Testing
