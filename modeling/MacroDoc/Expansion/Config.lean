/-!
# Configuration of an expansion

* `Config` : how many passes may run, whether an unknown macro is an error, and which end of the priority scale
  comes first;
* `Config.check` : a run needs at least one pass.
-/

namespace MacroDoc

/-- Which end of the priority scale runs first within a pass. -/
inductive PriorityOrder where
  | ascending
  | descending
  deriving DecidableEq, Inhabited

/-- The settings of a run. -/
structure Config where
  maxDepth : Nat
  strict : Bool
  order : PriorityOrder
  deriving DecidableEq, Inhabited

/-- Why there is no usable configuration. -/
inductive ConfigError where
  | zeroMaxDepth
  | unreadable
  deriving DecidableEq

namespace Config

/-- Sixteen passes, unknown macros are left in place, lower priorities run first. -/
def default : Config := ⟨16, false, .ascending⟩

/-- A run needs at least one pass. -/
def check (c : Config) : Except ConfigError Unit :=
  if c.maxDepth = 0 then .error .zeroMaxDepth else .ok ()

end Config

def ConfigError.message : ConfigError → String
  | zeroMaxDepth => "max_depth must be at least 1"
  | unreadable => "cannot parse config"

end MacroDoc
