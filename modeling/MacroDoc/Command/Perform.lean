import MacroDoc.Command.Expand
import MacroDoc.Command.Test

/-!
# The program

* `Request.perform` : do what is asked;
* `runProgram` : do what the arguments ask.
-/

namespace MacroDoc.Command

def versionText : String := unlines ["xdom 0.1.0"]

def helpText : String :=
  unlines ["Expand macros in xdom documents", "", "Usage: xdom [OPTIONS] <COMMAND>", "", "Commands:",
    "  run FILE   Parse a document and expand its macros", "  test PATH  Run .test.md test files", "",
    "Options of both: --no-color, -v", "Options of run: -s, -m, -c, --max-depth, --strict, --check, --ast, --events, "
      ++ "--list-macros", "Options of test: -c, --list-categories"]

variable {m : Type → Type} [Monad m]

def Request.perform (storage : Storage m) : Request → m Outcome
  | expand request => request.perform storage
  | test request => request.perform storage
  | help => pure (.success helpText "")
  | version => pure (.success versionText "")

/-- Do what the arguments ask. -/
def runProgram (storage : Storage m) (arguments : List String) : m Outcome :=
  match Request.read arguments with
  | some request => request.perform storage
  | none => pure .rejected

end MacroDoc.Command
