import MacroDoc.Block.Dump
import MacroDoc.Command.Request
import MacroDoc.Expansion.ConfigText
import MacroDoc.Expansion.Run
import MacroDoc.Macros.Library
import MacroDoc.Source.Excerpt
import MacroDoc.Source.Parse

/-!
# Expanding a document

The command reads a document, expands it, and writes its markup. Problems with a place in the document are shown there.

* `diagnosticText`, `failureText` : what is said about a diagnostic, and about a run that failed;
* `ExpandRequest.perform` : the command.
-/

namespace MacroDoc.Command

variable {m : Type → Type} [Monad m]

/-- A file with a document: its name and its text. -/
structure SourceFile where
  name : String
  text : String

def SourceFile.excerpts (file : SourceFile) (notices : List Notice) : String :=
  String.join (notices.map fun n => n.render file.name file.text)

def diagnosticText (file : SourceFile) (d : Diagnostic) : String :=
  match d.span with
  | some span => file.excerpts [⟨if d.isWarning then .warning else .error, d.message, span, []⟩]
  | none => unlines [(if d.isWarning then "warning: " else "macro error: ") ++ d.message]

def failureText (file : SourceFile) (e : ExpansionError) : String :=
  match e with
  | .unresolvedMacro _ _ (some span) => file.excerpts [⟨.error, e.message, span, []⟩]
  | _ => unlines ["error: " ++ e.message]

def expandOutcome (file : SourceFile) (events : Bool) (run : Run Unit) : Outcome :=
  match run.result with
  | .error e => .failure (failureText file e)
  | .ok report =>
    .success (if events then run.document.events else run.document.markup)
      (String.join (report.diagnostics.map (diagnosticText file)))

namespace ExpandRequest

/-- The configuration of a file, or the default one, with the switches of the request set on top of it. -/
def config (r : ExpandRequest) (storage : Storage m) : m (Except String Config) := do
  let override (c : Config) : Config :=
    { c with maxDepth := r.maxDepth.getD c.maxDepth, strict := c.strict || r.strict }
  match r.configFile with
  | none => pure (.ok (override .default))
  | some location =>
    match ← storage.read location with
    | .error cause => pure (.error ("cannot read '" ++ location ++ "': " ++ cause.message))
    | .ok text =>
      match Config.read text with
      | .error e => pure (.error (location ++ ": " ++ e.message))
      | .ok c => pure (.ok (override c))

/-- Expand a document that has been read. -/
def expand (r : ExpandRequest) (storage : Storage m) (dialect : Dialect) (file : SourceFile) (document : Document) :
    m Outcome := do
  match ← Macros.loadLibraries storage r.macroFiles (Registry.empty.withStandard : Registry Unit) with
  | .error e => pure (.error e.message)
  | .ok registry =>
    if r.listMacros then pure (.success (unlines registry.identifiers) "")
    else match ← r.config storage with
      | .error reason => pure (.error reason)
      | .ok config => pure (expandOutcome file r.events (expandDocument registry.lookup config dialect document ()))

/-- Read a document, and do with it what is asked. -/
def perform (r : ExpandRequest) (storage : Storage m) : m Outcome := do
  match Dialect.read r.dialect with
  | .error e => pure (.error e.message)
  | .ok dialect =>
    match ← storage.read r.file with
    | .error cause => pure (.error ("cannot read '" ++ r.file ++ "': " ++ cause.message))
    | .ok text =>
      let file : SourceFile := ⟨r.file, text⟩
      match parseDocument dialect 0 text with
      | .error errors => pure (.failure (file.excerpts (errors.map .ofParseError)))
      | .ok document =>
        if r.check then pure (.success "" (unlines ["ok: " ++ r.file ++ " parsed successfully"]))
        else if r.dump then pure (.success (unlines [document.dump]) "")
        else r.expand storage dialect file document

end ExpandRequest

end MacroDoc.Command
