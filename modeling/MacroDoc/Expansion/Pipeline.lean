import MacroDoc.Expansion.Run

/-!
# Pipelines

A pipeline applies several stages to a document, by priority. Stages of one priority run in the order in which they
were registered.

* `Stage` : a named step; `Stage.ofExpansion` is the one that expands macros;
* `Pipeline.register` : add a stage;
* `Pipeline.perform` : run the stages. The first one that fails ends it, with the document as that stage left it.
-/

namespace MacroDoc

variable {σ : Type}

/-- A step that changes a whole document. -/
structure Stage (σ : Type) where
  name : String
  priority : Int
  run : Dialect → Document → σ → Run σ

/-- The stage that expands macros. -/
def Stage.ofExpansion (lookup : Lookup σ) (config : Config) : Stage σ :=
  ⟨"macro", 100, expandDocument lookup config⟩

/-- Run stages one after the other, and add their reports to `report`. -/
def performFrom (dialect : Dialect) (report : Report) : List (Stage σ) → Document → σ → Run σ
  | [], document, state => ⟨.ok report, document, state⟩
  | stage :: rest, document, state =>
    let run := stage.run dialect document state
    match run.result with
    | .ok more => performFrom dialect (report.merge more) rest run.document run.state
    | .error _ => run

/-- Stages in the order in which they run. -/
structure Pipeline (σ : Type) where
  stages : List (Stage σ)

namespace Pipeline

def empty : Pipeline σ := ⟨[]⟩

/-- Add a stage after those that have its priority or a lower one. -/
def register (p : Pipeline σ) (stage : Stage σ) : Pipeline σ :=
  ⟨(p.stages ++ [stage]).mergeSort fun a b => a.priority ≤ b.priority⟩

def names (p : Pipeline σ) : List String :=
  p.stages.map (·.name)

/-- Run the stages on a document. -/
def perform (p : Pipeline σ) (dialect : Dialect) (document : Document) (state : σ) : Run σ :=
  performFrom dialect .empty p.stages document state

end Pipeline

end MacroDoc
