import MacroDoc.Expansion.Expander

/-!
# Resolutions

A resolution looks up every invocation of a document, in document order. The first lookup that is not answered ends
it.

* `ResolvedInvocation`, `UnresolvedInvocation` : an invocation with its expander, and one without;
* `Resolver.resolve`, `resolve` : the resolution of a document, with a registry and with a lookup.
-/

namespace MacroDoc

/-- An invocation with the expander that will run it. Its position is its number among all invocations of the
document. -/
structure ResolvedInvocation (σ : Type) where
  path : Path
  position : Nat
  placement : Placement
  expander : Expander σ

def ResolvedInvocation.priority {σ : Type} (r : ResolvedInvocation σ) : Int :=
  r.expander.descriptor.priority

/-- An invocation of a macro that is not known. It stays in the document. -/
structure UnresolvedInvocation where
  path : Path
  identifier : String
  span : Option Span
  deriving DecidableEq

/-- The invocations of a document, by whether their macro is known; both lists are in document order. -/
structure Resolution (σ : Type) where
  resolved : List (ResolvedInvocation σ)
  unresolved : List UnresolvedInvocation

variable {τ σ : Type}

/-- The resolution with one more invocation in front, by whether its macro was found. -/
def Resolution.cons (position : Nat) (i : PlacedInvocation) (found : Option (Expander σ)) (others : Resolution σ) :
    Resolution σ :=
  match found with
  | some expander => { others with resolved := ⟨i.path, position, i.placement, expander⟩ :: others.resolved }
  | none =>
    { others with unresolved := ⟨i.path, i.invocation.identifier, i.invocation.span⟩ :: others.unresolved }

/-- Look up invocations one after the other, of which the first has number `position`. -/
def resolveFrom (resolver : Resolver τ σ) (dialect : Dialect) (position : Nat) :
    List PlacedInvocation → τ → Except ExpansionError (Resolution σ) × τ
  | [], state => (.ok ⟨[], []⟩, state)
  | i :: rest, state =>
    match resolver i.invocation.identifier dialect state with
    | (.error cause, state) => (.error (.registryUnavailable i.invocation.identifier dialect cause), state)
    | (.ok found, state) =>
      let (others, state) := resolveFrom resolver dialect (position + 1) rest state
      (others.map (Resolution.cons position i found), state)

/-- Look up every invocation of a document. The state is the one that the last lookup left. -/
def Resolver.resolve (resolver : Resolver τ σ) (dialect : Dialect) (document : Document) (state : τ) :
    Except ExpansionError (Resolution σ) × τ :=
  resolveFrom resolver dialect 0 document.invocations state

def resolve (lookup : Lookup σ) (dialect : Dialect) (document : Document) :
    Except ExpansionError (Resolution σ) :=
  (lookup.resolver.resolve dialect document ()).1

end MacroDoc
