import MacroDoc.Expansion.Resolution

/-!
# Passes

A pass runs invocations by priority; among equal priorities the one that comes first in the document runs first,
whichever end of the priority scale comes first. Each runs on the document that those before it left. Every invocation
that is met becomes a marker, which keeps the call. Under it stand the blocks of the expander, or an error notice if the
macro may not stand there, does not take the call, or fails.

* `runsBefore`, `schedule` : the order of two invocations, and the invocations of a pass in order;
* `forgetSpans` : the blocks of an expander do not point into the source of the document;
* `Fault` : why an invocation has no blocks;
* `attempt` : run one macro, with the checks before it;
* `executeOne`, `executePass` : one invocation, and all of them.
-/

namespace MacroDoc

variable {σ : Type}

/-! ## Schedules -/

/-- Whether `a` runs no later than `b`. -/
def runsBefore (order : PriorityOrder) (a b : ResolvedInvocation σ) : Bool :=
  if a.priority = b.priority then a.position ≤ b.position
  else match order with
    | .ascending => a.priority < b.priority
    | .descending => b.priority < a.priority

/-- The invocations of a pass in the order in which they run. -/
def schedule (order : PriorityOrder) (resolved : List (ResolvedInvocation σ)) : List (ResolvedInvocation σ) :=
  resolved.mergeSort (runsBefore order)

/-! ## Running one macro -/

mutual

/-- A block whose invocations have no span. -/
def Block.forgetSpans : Block → Block
  | .leaf (.invocation i) => .leaf (.invocation { i with span := none })
  | .leaf l => .leaf l
  | .node c children => .node c (forgetSpans children)

def forgetSpans : List Block → List Block
  | [] => []
  | block :: blocks => block.forgetSpans :: forgetSpans blocks

end

/-- Why an invocation has no blocks. -/
inductive Fault where
  | standaloneInline (identifier : String)
  | invalidCall (cause : InvalidCall)
  | failed (message : String)
  deriving DecidableEq

def Fault.message : Fault → String
  | standaloneInline identifier =>
    "the [" ++ identifier ++ "] macro is a standalone macro and cannot be used inline"
  | invalidCall cause => cause.message
  | failed message => message

def Fault.kind : Fault → DiagnosticKind
  | standaloneInline _ => .placement
  | invalidCall _ | failed _ => .macroExecution

/-- The notice that stands in the document in place of the blocks of a macro. -/
def Fault.notice (fault : Fault) (identifier : String) : Block :=
  .leaf (.error ("Failed to execute the [" ++ identifier ++ "] macro") (some fault.message))

/-- Run one macro, if it may stand at its place and takes its call. -/
def Expander.attempt (expander : Expander σ) (context : Context) (state : σ) : Except Fault (List Block) × σ :=
  if context.placement = .inline ∧ expander.descriptor.supportsInline = false then
    (.error (.standaloneInline context.call.identifier), state)
  else match expander.descriptor.check context.call with
    | .error cause => (.error (.invalidCall cause), state)
    | .ok () =>
      let (result, state) := expander.expand context state
      (result.mapError .failed, state)

/-! ## Running all of them -/

/-- A document and the shared state after an invocation has run, with the diagnostic of a fault. -/
structure Execution (σ : Type) where
  document : Document
  state : σ
  diagnostic? : Option Diagnostic

/-- Run one scheduled invocation. Nothing happens if there is none at its path. -/
def executeOne (dialect : Dialect) (pass : Nat) (r : ResolvedInvocation σ) (document : Document) (state : σ) :
    Option (Execution σ) :=
  (document.get? r.path >>= Block.invocation?).map fun i =>
    let (result, state) := r.expander.attempt ⟨document, dialect, r.path, r.placement, i.call⟩ state
    let marked (children : List Block) := document.set r.path (.node (.marker i.call) children)
    match result with
    | .ok blocks => ⟨marked (forgetSpans blocks), state, none⟩
    | .error fault =>
      ⟨marked [fault.notice i.identifier], state,
        some ⟨fault.kind, i.identifier, fault.message, i.span, document.sourceId, pass⟩⟩

/-- What a pass left: the document and the shared state, the paths of its markers in the order in which they were
written, and its diagnostics. -/
structure PassOutcome (σ : Type) where
  document : Document
  state : σ
  markers : List Path
  diagnostics : List Diagnostic

/-- Number of invocations that a pass replaced by a marker. -/
def PassOutcome.executed (o : PassOutcome σ) : Nat :=
  o.markers.length

/-- Run scheduled invocations in order. -/
def executePass (dialect : Dialect) (pass : Nat) :
    List (ResolvedInvocation σ) → Document → σ → PassOutcome σ
  | [], document, state => ⟨document, state, [], []⟩
  | r :: rest, document, state =>
    match executeOne dialect pass r document state with
    | none => executePass dialect pass rest document state
    | some e =>
      let o := executePass dialect pass rest e.document e.state
      { o with markers := r.path :: o.markers, diagnostics := e.diagnostic?.toList ++ o.diagnostics }

end MacroDoc
