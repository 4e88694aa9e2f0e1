import MacroDoc.Block
import MacroDoc.Expansion.Config

/-!
# Diagnostics, reports and failures

A run of an expansion recovers from most problems and reports them; only a few end it.

* `Diagnostic` : one problem about one invocation, found in a numbered pass;
* `Report` : what a completed run did, and its diagnostics in order;
* `ExpansionError` : what ends a run.
-/

namespace MacroDoc

inductive DiagnosticKind where
  | unresolvedMacro
  | macroExecution
  | placement
  | recursionLimitExceeded
  deriving DecidableEq, Inhabited

/-- A problem about one invocation. It has a span if the invocation was read from a source text. -/
structure Diagnostic where
  kind : DiagnosticKind
  identifier : String
  message : String
  span : Option Span
  sourceId : Nat
  pass : Nat
  deriving DecidableEq, Inhabited

/-- Unknown macros and the recursion limit are warnings. The others are errors, and show in the document. -/
def Diagnostic.isWarning (d : Diagnostic) : Bool :=
  match d.kind with
  | .unresolvedMacro | .recursionLimitExceeded => true
  | .macroExecution | .placement => false

/-- Summary of a completed run: passes that expanded something, invocations replaced by a marker in them, and
diagnostics. -/
structure Report where
  passes : Nat
  expansions : Nat
  diagnostics : List Diagnostic
  deriving DecidableEq, Inhabited

namespace Report

def empty : Report := ⟨0, 0, []⟩

def warnings (r : Report) : List Diagnostic :=
  r.diagnostics.filter Diagnostic.isWarning

def errors (r : Report) : List Diagnostic :=
  r.diagnostics.filter fun d => !d.isWarning

/-- The report of two runs, one after the other. -/
def merge (a b : Report) : Report :=
  ⟨a.passes + b.passes, a.expansions + b.expansions, a.diagnostics ++ b.diagnostics⟩

end Report

/-- A lookup that a registry could not answer; "there is no such macro" is an answer. -/
structure RegistryError where
  message : String
  deriving DecidableEq

/-- What ends a run. -/
inductive ExpansionError where
  | registryUnavailable (identifier : String) (dialect : Dialect) (cause : RegistryError)
  | unresolvedMacro (identifier : String) (dialect : Dialect) (span : Option Span)
  | invalidConfig (cause : ConfigError)
  deriving DecidableEq

def unknownMacroMessage (identifier : String) (dialect : Dialect) : String :=
  "unknown macro '" ++ identifier ++ "' for syntax " ++ dialect.render

def ExpansionError.message : ExpansionError → String
  | registryUnavailable identifier dialect cause =>
    "macro registry unavailable while resolving '" ++ identifier ++ "' for " ++ dialect.render ++ ": " ++ cause.message
  | unresolvedMacro identifier dialect _ => unknownMacroMessage identifier dialect
  | invalidConfig cause => "invalid transformation config: " ++ cause.message

end MacroDoc
