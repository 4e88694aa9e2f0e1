import MacroDoc.Document
import MacroDoc.Expansion.Descriptor
import MacroDoc.Expansion.Diagnostic

/-!
# Expanders

An expander is what runs a macro: its descriptor, and a function from the place of an invocation to the blocks that
take its place. Expanders may share a state of type `σ`.

* `Context` : what an expander is told;
* `Expander` : a macro that can be run;
* `Lookup` : a way to find the expander of an identifier for a dialect;
* `Resolver` : a registry whose answers may depend on a state; `Lookup.resolver` is one whose answers do not.
-/

namespace MacroDoc

/-- What an expander is told about the invocation it runs for: the document as it stands, the dialect that is
aimed at, where the invocation stands, and its call. -/
structure Context where
  document : Document
  dialect : Dialect
  path : Path
  placement : Placement
  call : Call

/-- A macro that can be run. Its blocks may hold invocations of their own. -/
structure Expander (σ : Type) where
  descriptor : Descriptor
  expand : Context → σ → Except String (List Block) × σ

/-- An expander that neither reads nor changes the shared state. -/
def Expander.stateless {σ : Type} (descriptor : Descriptor) (expand : Context → Except String (List Block)) :
    Expander σ :=
  ⟨descriptor, fun context state => (expand context, state)⟩

/-- Finds the expander of an identifier for a dialect, if there is one. -/
abbrev Lookup (σ : Type) := String → Dialect → Except RegistryError (Option (Expander σ))

/-- A registry that keeps a state of type `τ`. An answer may depend on the state, and may change it. -/
abbrev Resolver (τ σ : Type) := String → Dialect → τ → Except RegistryError (Option (Expander σ)) × τ

/-- The registry that answers by a lookup and leaves the state alone. -/
def Lookup.resolver {τ σ : Type} (lookup : Lookup σ) : Resolver τ σ :=
  fun identifier dialect state => (lookup identifier dialect, state)

end MacroDoc
