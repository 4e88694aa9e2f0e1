import MacroDoc.Expansion.Pass

/-!
# Runs

A run expands the invocations of a document in passes. Each pass resolves, schedules and runs what stands in the
document; what its macros produce is expanded in the next pass. A run ends when no invocation can be resolved, or
when its passes are used up; then the invocations that the last pass produced are frozen.

* `frozen`, `freeze` : an invocation that will not be expanded is a marker over a reference;
* `runPasses` : the passes that are left, and then the freeze;
* `Resolver.expandDocument`, `expandDocument` : a whole run, with a registry and with a lookup. If it fails, the
  document is as the last completed pass left it.
-/

namespace MacroDoc

variable {σ : Type}

/-- The result of a run, with the document and the shared state that it left. -/
structure Run (σ : Type) where
  result : Except ExpansionError Report
  document : Document
  state : σ

/-- What stands for a call that will not be expanded. -/
def frozen (call : Call) : Block :=
  .node (.marker call) [.leaf (.reference call)]

/-- The invocations of a document that stand strictly below one of `markers`. -/
def pendingBelow (markers : List Path) (document : Document) : List PlacedInvocation :=
  document.invocations.filter fun i => markers.any fun m => m.isAncestorOf i.path

/-- The diagnostic of an invocation that the limit of passes leaves unexpanded. -/
def limitDiagnostic (limit pass sourceId : Nat) (i : Invocation) : Diagnostic :=
  ⟨.recursionLimitExceeded, i.identifier,
    "macro '" ++ i.identifier ++ "' not expanded: recursion limit of " ++ toString limit ++ " passes reached",
    i.span, sourceId, pass⟩

/-- The document with every invocation below `markers` frozen. -/
def freeze (markers : List Path) (document : Document) : Document :=
  (pendingBelow markers document).foldl (fun d i => d.set i.path (frozen i.invocation.call)) document

def unresolvedDiagnostic (dialect : Dialect) (pass sourceId : Nat) (u : UnresolvedInvocation) : Diagnostic :=
  ⟨.unresolvedMacro, u.identifier, unknownMacroMessage u.identifier dialect, u.span, sourceId, pass⟩

/-- What a run has done so far: the document and the shared state, the paths of unresolved invocations that are
already reported, the markers of the last pass, and the report. -/
structure Progress (σ : Type) where
  document : Document
  state : σ
  reported : List Path
  markers : List Path
  report : Report

namespace Progress

/-- The report with the unresolved invocations that are met for the first time. -/
def reportUnresolved (p : Progress σ) (dialect : Dialect) (unresolved : List UnresolvedInvocation) : Progress σ :=
  let fresh := unresolved.filter fun u => u.path ∉ p.reported
  { p with
    reported := p.reported ++ fresh.map (·.path)
    report := { p.report with
      diagnostics := p.report.diagnostics
        ++ fresh.map (unresolvedDiagnostic dialect (p.report.passes + 1) p.document.sourceId) } }

def pass (p : Progress σ) (dialect : Dialect) (scheduled : List (ResolvedInvocation σ)) : Progress σ :=
  let o := executePass dialect (p.report.passes + 1) scheduled p.document p.state
  { p with
    document := o.document
    state := o.state
    markers := o.markers
    report :=
      ⟨p.report.passes + 1, p.report.expansions + o.executed, p.report.diagnostics ++ o.diagnostics⟩ }

def fail (p : Progress σ) (e : ExpansionError) : Run σ :=
  ⟨.error e, p.document, p.state⟩

/-- A run that ends here because nothing is left to expand. -/
def finish (p : Progress σ) : Run σ :=
  ⟨.ok p.report, p.document, p.state⟩

/-- A run that ends here because its passes are used up. -/
def stop (p : Progress σ) (limit : Nat) : Run σ :=
  let found := (pendingBelow p.markers p.document).map fun i =>
    limitDiagnostic limit p.report.passes p.document.sourceId i.invocation
  ⟨.ok { p.report with diagnostics := p.report.diagnostics ++ found }, freeze p.markers p.document, p.state⟩

end Progress

/-- Run at most the given number of passes, and stop when they are used up. -/
def runPasses (resolver : Resolver σ σ) (config : Config) (dialect : Dialect) : Nat → Progress σ → Run σ
  | 0, p => p.stop config.maxDepth
  | remaining + 1, p =>
    match resolver.resolve dialect p.document p.state with
    | (.error e, state) => { p with state }.fail e
    | (.ok resolution, state) =>
      match config.strict, resolution.unresolved with
      | true, u :: _ => { p with state }.fail (.unresolvedMacro u.identifier dialect u.span)
      | _, unresolved =>
        let p := { p with state }.reportUnresolved dialect unresolved
        if resolution.resolved.isEmpty then p.finish
        else
          runPasses resolver config dialect remaining (p.pass dialect (schedule config.order resolution.resolved))

def Progress.start (document : Document) (state : σ) : Progress σ :=
  ⟨document, state, [], [], .empty⟩

/-- Expand the macro invocations of a document with the macros of a registry. The registry and the macros share
their state. -/
def Resolver.expandDocument (resolver : Resolver σ σ) (config : Config) (dialect : Dialect) (document : Document)
    (state : σ) : Run σ :=
  match config.check with
  | .error cause => (Progress.start document state).fail (.invalidConfig cause)
  | .ok () => runPasses resolver config dialect config.maxDepth (.start document state)

def expandDocument (lookup : Lookup σ) (config : Config) (dialect : Dialect) (document : Document) (state : σ) :
    Run σ :=
  lookup.resolver.expandDocument config dialect document state

end MacroDoc
