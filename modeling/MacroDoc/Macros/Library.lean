import MacroDoc.Macros.Definition
import MacroDoc.Macros.Standard
import MacroDoc.Storage

/-!
# Macro libraries

A library is a file of macro definitions. The macros that a document may use are the standard ones and those of its
libraries.

* `LibraryError` : why the macros of a library cannot be used;
* `registerText`, `loadLibraries` : register the macros of a text, and of files one after the other.
-/

namespace MacroDoc.Macros

/-- Why the macros of a library cannot be used. -/
inductive LibraryError where
  | unreadable (location : String) (cause : ReadError)
  | malformed
  | definition (cause : DefinitionError)
  deriving DecidableEq

def LibraryError.message : LibraryError → String
  | unreadable location cause => "cannot read macro definitions from " ++ location ++ ": " ++ cause.message
  | malformed => "invalid macro definitions"
  | definition cause => cause.message

variable {σ : Type} {m : Type → Type} [Monad m]

def registerText (text : String) (r : Registry σ) : Except LibraryError (Registry σ) :=
  match readDefinitions text with
  | none => .error .malformed
  | some definitions => (registerDefinitions definitions r).mapError .definition

/-- Register the macros of libraries; the first that cannot be used ends this. -/
def loadLibraries (storage : Storage m) : List String → Registry σ → m (Except LibraryError (Registry σ))
  | [], r => pure (.ok r)
  | location :: rest, r => do
    match ← storage.read location with
    | .error cause => pure (.error (.unreadable location cause))
    | .ok text =>
      match registerText text r with
      | .error e => pure (.error e)
      | .ok r => loadLibraries storage rest r

end MacroDoc.Macros
