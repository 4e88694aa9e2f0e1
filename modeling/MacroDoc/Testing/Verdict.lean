import MacroDoc.Expansion.Run
import MacroDoc.Macros.Library
import MacroDoc.Source.Line
import MacroDoc.Source.Parse
import MacroDoc.Storage.Location
import MacroDoc.Testing.TestFile

/-!
# Verdicts

A test passes if its document comes out as expected; otherwise the first thing that is not as expected is its failure.

* `TestFailure` : what is not as expected;
* `compareText`, `compareDiagnostics` : check one expectation;
* `judge` : check the expectations on a run;
* `TestCase.check` : run a test.
-/

namespace MacroDoc.Testing

/-! ## Failures -/

/-- What is wrong with one diagnostic that was expected to contain a text, or to be about a line. -/
inductive DiagnosticMismatch where
  | text (expected actual : String)
  | noSpan (expected : Nat)
  | line (expected actual : Nat)
  deriving DecidableEq

/-- Why a test failed. -/
inductive TestFailure where
  | unreadable (cause : ReadError)
  | frontMatter (cause : FrontMatterError)
  | dialect (cause : Dialect.ReadError)
  | parseSucceeded
  | parseFailed (errors : List ParseError)
  | libraries (cause : Macros.LibraryError)
  | otherFailure (expected : String) (actual : ExpansionError)
  | succeeded (expected : String)
  | failed (cause : ExpansionError)
  | text (what : String) (expected actual : String)
  | diagnosticCount (kind : String) (expected : Nat) (actual : List Diagnostic)
  | diagnostic (kind : String) (index : Nat) (mismatch : DiagnosticMismatch)
  deriving DecidableEq

def DiagnosticMismatch.message : DiagnosticMismatch → String
  | text expected actual => "expected message containing \"" ++ expected ++ "\", got: " ++ actual
  | noSpan expected => "expected on line " ++ toString expected ++ ", but it has no span"
  | line expected actual => "expected on line " ++ toString expected ++ ", but span is on line " ++ toString actual

def indented (text : String) : String :=
  "\n".intercalate ((Text.lines text.toList).map fun line => "    " ++ String.ofList line)

def listed (diagnostics : List Diagnostic) : String :=
  if diagnostics.isEmpty then "    (none)" else "\n".intercalate (diagnostics.map fun d => "  - " ++ d.message)

def TestFailure.message : TestFailure → String
  | unreadable cause => "cannot read file: " ++ cause.message
  | frontMatter cause => "frontmatter error: " ++ cause.message
  | dialect cause => cause.message
  | parseSucceeded => "expected parse error, but parsing succeeded"
  | parseFailed errors => "unexpected parse error: " ++ "; ".intercalate (errors.map (·.message))
  | libraries cause => "cannot load macros: " ++ cause.message
  | otherFailure expected actual => "expected error containing \"" ++ expected ++ "\", got: " ++ actual.message
  | succeeded expected => "expected error containing \"" ++ expected ++ "\", but transformation succeeded"
  | failed cause => "unexpected transformation error: " ++ cause.message
  | text what expected actual =>
    what ++ " mismatch\n  expected:\n" ++ indented expected ++ "\n  actual:\n" ++ indented actual
  | diagnosticCount kind expected actual =>
    "expected " ++ toString expected ++ " " ++ kind ++ "(s), got " ++ toString actual.length ++ "\n  actual:\n"
      ++ listed actual
  | diagnostic kind index mismatch => kind ++ "[" ++ toString index ++ "]: " ++ mismatch.message

/-! ## Expectations -/

def containsText (part text : String) : Bool :=
  Text.contains part.toList text.toList

/-- Check a text against what was expected, but for blank characters around them. -/
def compareText (what : String) (expected : Option String) (actual : String) : Option TestFailure :=
  expected.bind fun expected =>
    let trim (text : String) := String.ofList (Text.trim text.toList)
    if trim expected = trim actual then none else some (.text what (trim expected) (trim actual))

def compareDiagnostic (source : String) (expected : ExpectedDiagnostic) (actual : Diagnostic) :
    Option DiagnosticMismatch :=
  if !containsText expected.contains actual.message then some (.text expected.contains actual.message)
  else expected.line.bind fun line =>
    match actual.span with
    | none => some (.noSpan line)
    | some span =>
      let found := (lineAt (sourceLines source.toList) span.start).number
      if found = line then none else some (.line line found)

/-- Check diagnostics of a document one by one, from an index on. -/
def compareEach (kind source : String) (index : Nat) : List ExpectedDiagnostic → List Diagnostic → Option TestFailure
  | e :: expected, d :: actual =>
    match compareDiagnostic source e d with
    | some mismatch => some (.diagnostic kind index mismatch)
    | none => compareEach kind source (index + 1) expected actual
  | _, _ => none

def compareDiagnostics (kind source : String) (expected : Option (List ExpectedDiagnostic))
    (actual : List Diagnostic) : Option TestFailure :=
  expected.bind fun expected =>
    if expected.length = actual.length then compareEach kind source 0 expected actual
    else some (.diagnosticCount kind expected.length actual)

/-- Check a run that was completed. -/
def TestCase.judgeReport (t : TestCase) (source : String) (document : Document) (report : Report) :
    Option TestFailure :=
  compareText "output" t.output document.markup
    <|> compareText "events" t.events document.events
    <|> compareDiagnostics "warning" source t.warnings report.warnings
    <|> compareDiagnostics "macro error" source t.macroErrors report.errors

/-- Check a run. If it is expected to fail, nothing else is. -/
def TestCase.judge (t : TestCase) (source : String) (run : Run Unit) : Option TestFailure :=
  match t.failure, run.result with
  | some expected, .error e => if containsText expected e.message then none else some (.otherFailure expected e)
  | some expected, .ok _ => some (.succeeded expected)
  | none, .error e => some (.failed e)
  | none, .ok report => t.judgeReport source run.document report

/-! ## Tests -/

variable {m : Type → Type} [Monad m]

/-- Run a test whose document has been read. Its macro files are seen from `folder`. -/
def TestCase.checkDocument (t : TestCase) (storage : Storage m) (folder : String) (dialect : Dialect)
    (source : String) (document : Document) : m (Option TestFailure) := do
  let start : Registry Unit := Registry.empty.withStandard
  match ← Macros.loadLibraries storage (t.macroFiles.map (joinLocation folder)) start with
  | .error cause => pure (some (.libraries cause))
  | .ok registry => pure (t.judge source (expandDocument registry.lookup t.config dialect document ()))

/-- Run a test on its document. The result is its failure, if it fails. -/
def TestCase.check (t : TestCase) (storage : Storage m) (folder : String) (source : String) :
    m (Option TestFailure) :=
  match (t.dialect.map Dialect.read).getD (.ok .default) with
  | .error cause => pure (some (.dialect cause))
  | .ok dialect =>
    match parseDocument dialect 0 source, t.parseError with
    | .error _, true => pure none
    | .ok _, true => pure (some .parseSucceeded)
    | .error errors, false => pure (some (.parseFailed errors))
    | .ok document, false => t.checkDocument storage folder dialect source document

/-- What came of running a test file: the name of the test, and its failure if it failed. -/
structure TestResult where
  location : String
  name : String
  failure : Option TestFailure
  deriving DecidableEq

/-- Run the test file at a location. A test without a description has the name of its file. -/
def runTestFile (storage : Storage m) (location : String) : m TestResult := do
  let fallback := stem (fileName location)
  match ← storage.read location with
  | .error cause => pure ⟨location, fallback, some (.unreadable cause)⟩
  | .ok text =>
    match readTestFile text with
    | .error cause => pure ⟨location, fallback, some (.frontMatter cause)⟩
    | .ok (t, source) =>
      let failure ← t.check storage (folderOf location) source
      pure ⟨location, t.description.getD fallback, failure⟩

end MacroDoc.Testing
