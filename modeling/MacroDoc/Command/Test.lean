import MacroDoc.Command.Request
import MacroDoc.Testing.Discovery
import MacroDoc.Testing.Verdict

/-!
# Running test files

The command runs a test file, or those below a folder by category, and ends well if there are any and all of them pass.

* `resultLines`, `failureLines`, `summaryLine` : what is said about tests;
* `runGroups` : run tests and sum them up;
* `TestRequest.perform` : the command.
-/

namespace MacroDoc.Command

open Testing

/-! ## Reports -/

/-- A text in a style of the terminal, if styles are wanted. -/
def styled (colored : Bool) (style : Nat) (text : String) : String :=
  if colored then "\x1b[" ++ toString style ++ "m" ++ text ++ "\x1b[0m" else text

def bold : Nat := 1

def red : Nat := 31

def green : Nat := 32

def resultLine (colored : Bool) (r : TestResult) : String :=
  let word := if r.failure.isNone then styled colored green "PASS" else styled colored red "FAIL"
  "  " ++ word ++ "  " ++ r.name

/-- The lines of a failed test; a test that passed has none. -/
def failureLines (r : TestResult) : List String :=
  match r.failure with
  | none => []
  | some failure =>
    ["", "  --- " ++ r.location ++ " ---"]
      ++ (Text.lines failure.message.toList).map fun line => "  " ++ String.ofList line

def summaryLine (colored : Bool) (passed failed : Nat) : String :=
  if failed = 0 then
    "test result: " ++ styled colored green "ok" ++ ". " ++ toString passed ++ " passed, 0 failed"
  else
    "test result: " ++ styled colored red "FAILED" ++ ". " ++ toString passed ++ " passed, " ++ toString failed
      ++ " failed (of " ++ toString (passed + failed) ++ ")"

/-- The results of some tests under a heading, if they have one. -/
structure ResultGroup where
  heading : Option String
  results : List TestResult

def groupLines (colored : Bool) (g : ResultGroup) : List String :=
  (match g.heading with
    | some heading => ["", styled colored bold heading]
    | none => [])
    ++ g.results.map (resultLine colored)

def testOutcome (colored : Bool) (groups : List ResultGroup) : Outcome :=
  let results := groups.flatMap (·.results)
  let failures := results.filter (·.failure.isSome)
  let details := if failures.isEmpty then [] else ["", "failures:"] ++ failures.flatMap failureLines
  let summary := ["", summaryLine colored (results.length - failures.length) failures.length]
  ⟨if failures.isEmpty then 0 else 1, "", unlines (groups.flatMap (groupLines colored) ++ details ++ summary)⟩

/-! ## The command -/

def noTestsLine (location : String) : String :=
  "no .test.md files found in " ++ location

/-- What is said about a category that was asked for in vain. -/
def unansweredLine (groups : List TestGroup) (requested : String) : String :=
  "warning: category '" ++ trimSlashes requested ++ "' not found (available: "
    ++ ", ".intercalate (groups.map fun g => shownCategory g.category) ++ ")"

def categoryLine (g : TestGroup) : String :=
  "  " ++ shownCategory g.category ++ " (" ++ toString g.tests.length ++ " tests)"

variable {m : Type → Type} [Monad m]

/-- Run the tests of a group below `root`. -/
def runGroup (storage : Storage m) (root : String) (g : TestGroup) : m ResultGroup := do
  let results ← g.tests.mapM fun t => runTestFile storage (t.location root)
  pure ⟨some (shownCategory g.category), results⟩

/-- The groups of tests below a location, if that is a folder or nothing. -/
def groupsAt (tree : Option (Tree Unit)) : List TestGroup :=
  match tree with
  | some (.folder entries) => groupTests (testsIn [] entries)
  | _ => []

namespace TestRequest

def listOutcome (r : TestRequest) (groups : List TestGroup) : Outcome :=
  if groups.isEmpty then .success "" (unlines [noTestsLine r.location])
  else .success "" (unlines ("available categories:" :: groups.map categoryLine))

/-- Run the tests that are asked for out of all groups below a folder. -/
def runSelected (r : TestRequest) (storage : Storage m) (groups : List TestGroup) : m Outcome := do
  if groups.isEmpty then pure (.failure (unlines [noTestsLine r.location]))
  else
    let warnings := (unansweredRequests r.categories groups).map (unansweredLine groups)
    match selectGroups r.categories groups with
    | [] => pure (.failure (unlines (warnings ++ ["no matching categories found"])))
    | selected =>
      let outcome := testOutcome r.colored (← selected.mapM (runGroup storage r.location))
      pure { outcome with messages := unlines warnings ++ outcome.messages }

/-- Run the tests, or list their categories. -/
def perform (r : TestRequest) (storage : Storage m) : m Outcome := do
  match ← storage.look r.location with
  | some (.file _) =>
    if r.listCategories then pure (.success "" (unlines ["(single file, no categories)"]))
    else pure (testOutcome r.colored [⟨none, [← runTestFile storage r.location]⟩])
  | tree =>
    if r.listCategories then pure (r.listOutcome (groupsAt tree))
    else r.runSelected storage (groupsAt tree)

end TestRequest

end MacroDoc.Command
