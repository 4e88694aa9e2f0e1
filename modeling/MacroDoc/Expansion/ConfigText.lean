import MacroDoc.Expansion.Config
import MacroDoc.Toml.Record

/-!
# Configurations in TOML

* `Config.ofToml?` : a configuration as a record, every field of which may be missing;
* `Config.read` : the configuration of a text, which has to be one that a run can use.
-/

namespace MacroDoc

def PriorityOrder.ofName? : String → Option PriorityOrder
  | "ascending" => some .ascending
  | "descending" => some .descending
  | _ => none

namespace Config

def ofToml? (value : Toml.Value) : Option Config := do
  let fields ← Toml.fieldsOf ["max_depth", "strict", "priority_order"] true value
  let maxDepth ← Toml.withDefault default.maxDepth Toml.Value.natural? "max_depth" fields
  let strict ← Toml.withDefault default.strict Toml.Value.boolean? "strict" fields
  let order ←
    Toml.withDefault default.order (fun v => v.name?.bind PriorityOrder.ofName?) "priority_order" fields
  return ⟨maxDepth, strict, order⟩

/-- Read a configuration that a run can use. -/
def read (text : String) : Except ConfigError Config :=
  match (Toml.parse text).bind fun entries => ofToml? (.table .header entries) with
  | none => .error .unreadable
  | some config => config.check.map fun _ => config

end Config

end MacroDoc
