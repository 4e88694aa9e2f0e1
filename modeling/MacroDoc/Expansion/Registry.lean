import MacroDoc.Expansion.Expander

/-!
# Registries

A registry holds expanders, each for one dialect or for all of them.

* `Registry.register`, `Registry.registerForAll` : add an expander, in place of an earlier one;
* `Registry.find?` : an expander for the dialect comes before one for all dialects;
* `Registry.identifiers` : every registered identifier once, in increasing order.
-/

namespace MacroDoc

/-- Expanders by identifier and dialect, and by identifier alone. The latest registration stands first. -/
structure Registry (σ : Type) where
  specific : List ((String × Dialect) × Expander σ)
  general : List (String × Expander σ)

/-- Put an identifier into a strictly increasing list, unless it is there. -/
def insertIdentifier (identifier : String) : List String → List String
  | [] => [identifier]
  | other :: rest =>
    if identifier < other then identifier :: other :: rest
    else if identifier = other then other :: rest
    else other :: insertIdentifier identifier rest

namespace Registry

variable {σ : Type}

def empty : Registry σ := ⟨[], []⟩

def register (r : Registry σ) (identifier : String) (dialect : Dialect) (expander : Expander σ) : Registry σ :=
  { r with specific := ((identifier, dialect), expander) :: r.specific }

def registerForAll (r : Registry σ) (identifier : String) (expander : Expander σ) : Registry σ :=
  { r with general := (identifier, expander) :: r.general }

/-- The expander of an identifier for a dialect. -/
def find? (r : Registry σ) (identifier : String) (dialect : Dialect) : Option (Expander σ) :=
  (r.specific.lookup (identifier, dialect)).or (r.general.lookup identifier)

/-- A registry in memory answers every lookup. -/
def lookup (r : Registry σ) : Lookup σ :=
  fun identifier dialect => .ok (r.find? identifier dialect)

/-- Every registered identifier once, in increasing order. -/
def identifiers (r : Registry σ) : List String :=
  (r.specific.map (·.1.1) ++ r.general.map (·.1)).foldr insertIdentifier []

def isEmpty (r : Registry σ) : Bool :=
  r.specific.isEmpty && r.general.isEmpty

end Registry

end MacroDoc
