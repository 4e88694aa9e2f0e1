import MacroDoc.Expansion.Registry
import MacroDoc.Macros.Standard
import MacroDoc.Macros.Template
import MacroDoc.Toml.Record

/-!
# Macro definitions

A macro can be defined by a record: its descriptor, and a template of markup. A text of TOML holds any number of such
records under the key `macro`.

* `Definition` : the record;
* `DefinedMacro`, `Definition.build` : the macro that a record defines, if it does;
* `DefinedMacro.expander` : fill the template and read it as markup;
* `registerAll`, `registerDefinitions` : register the macros of all records, or of none.
-/

namespace MacroDoc.Macros

structure ParameterDefinition where
  name : String
  description : String
  mandatory : Bool
  deriving DecidableEq

structure Definition where
  id : String
  name : String
  description : String
  category : Option String
  supportsInline : Bool
  contentType : String
  priority : Int
  code : String
  parameters : List ParameterDefinition
  deriving DecidableEq

/-- Why a definition defines no macro. -/
inductive DefinitionError where
  | emptyId
  | unknownContentType (id contentType : String)
  | invalidCode (id : String) (errors : List ParseError)
  deriving DecidableEq

def DefinitionError.message : DefinitionError → String
  | emptyId => "macro definition has an empty id"
  | unknownContentType id contentType => "macro '" ++ id ++ "' has unknown content type '" ++ contentType ++ "'"
  | invalidCode id errors => "macro '" ++ id ++ "' has invalid code: " ++ joinMessages errors

/-! ## Records -/

def ParameterDefinition.ofToml? (value : Toml.Value) : Option ParameterDefinition := do
  let fields ← Toml.fieldsOf ["name", "description", "mandatory"] true value
  return ⟨← Toml.required Toml.Value.string? "name" fields,
    ← Toml.withDefault "" Toml.Value.string? "description" fields,
    ← Toml.withDefault false Toml.Value.boolean? "mandatory" fields⟩

def Definition.fieldNames : List String :=
  ["id", "name", "description", "default_category", "supports_inline_mode", "content_type", "priority", "code",
    "parameters"]

/-- A definition as a record. Priorities are integers of 32 bits. -/
def Definition.ofToml? (value : Toml.Value) : Option Definition := do
  let fields ← Toml.fieldsOf Definition.fieldNames true value
  return ⟨← Toml.required Toml.Value.string? "id" fields,
    ← Toml.withDefault "" Toml.Value.string? "name" fields,
    ← Toml.withDefault "" Toml.Value.string? "description" fields,
    ← Toml.optional Toml.Value.string? "default_category" fields,
    ← Toml.withDefault false Toml.Value.boolean? "supports_inline_mode" fields,
    ← Toml.withDefault "Optional" Toml.Value.string? "content_type" fields,
    ← Toml.withDefault Descriptor.defaultPriority (Toml.Value.integer? (-2147483648) 2147483647) "priority" fields,
    ← Toml.required Toml.Value.string? "code" fields,
    ← Toml.withDefault [] (Toml.Value.list? ParameterDefinition.ofToml?) "parameters" fields⟩

def readDefinitions (text : String) : Option (List Definition) := do
  let fields ← Toml.fieldsOf ["macro"] true (.table .header (← Toml.parse text))
  Toml.withDefault [] (Toml.Value.list? Definition.ofToml?) "macro" fields

/-! ## Macros -/

structure DefinedMacro where
  id : String
  descriptor : Descriptor
  code : String
  deriving DecidableEq

/-- The content that a macro takes, by the name of its content type. -/
def contentOfType? : String → Option (Option ContentDescriptor)
  | "No content" => some none
  | "Optional" => some (some ⟨"Macro content", false⟩)
  | "Mandatory" => some (some ⟨"Macro content", true⟩)
  | _ => none

/-- The descriptor of a definition. The macro is called by its id unless it has a name that is not blank. -/
def Definition.descriptor (d : Definition) (id : String) (content : Option ContentDescriptor) : Descriptor where
  name := if Text.isBlankText d.name.toList then id else d.name
  description := d.description
  category := d.category
  supportsInline := d.supportsInline
  content := content
  parameters := d.parameters.map fun p => ⟨p.name, p.description, p.mandatory⟩
  priority := d.priority

/-- The macro that a definition defines. Its template has to be readable as it stands. -/
def Definition.build (d : Definition) : Except DefinitionError DefinedMacro :=
  let id := String.ofList (Text.trim d.id.toList)
  if id.isEmpty then .error .emptyId
  else match contentOfType? d.contentType with
    | none => .error (.unknownContentType id d.contentType)
    | some content =>
      match parseFragment .default d.code with
      | .error errors => .error (.invalidCode id errors)
      | .ok _ => .ok ⟨id, d.descriptor id content, d.code⟩

/-- What stands for a call inside a run of text: the children of a paragraph, if there is just that. -/
def unwrapParagraph : List Block → List Block
  | [.node .paragraph children] => children
  | blocks => blocks

/-- Fill the template and read it as markup. -/
def DefinedMacro.expand (m : DefinedMacro) (context : Context) : Except String (List Block) :=
  let source := fillTemplate m.code.toList context.call.parameters context.call.content
  match parseFragment context.dialect (String.ofList source) with
  | .error errors => .error (joinMessages errors)
  | .ok blocks =>
    match context.placement with
    | .inline => .ok (unwrapParagraph blocks)
    | .block => .ok blocks

variable {σ : Type}

def DefinedMacro.expander (m : DefinedMacro) : Expander σ :=
  .stateless m.descriptor m.expand

/-- Register the macros of definitions for all dialects, each under its id, and answer how many there are. If one of
them defines no macro, the error of the first such is the answer, and nothing is registered. -/
def registerAll (definitions : List Definition) (r : Registry σ) : Except DefinitionError Nat × Registry σ :=
  match definitions.mapM Definition.build with
  | .error e => (.error e, r)
  | .ok built => (.ok built.length, built.foldl (fun r m => r.registerForAll m.id m.expander) r)

/-- The registry with the macros of definitions, if all of them define one. -/
def registerDefinitions (definitions : List Definition) (r : Registry σ) : Except DefinitionError (Registry σ) :=
  match registerAll definitions r with
  | (.error e, _) => .error e
  | (.ok _, r) => .ok r

end MacroDoc.Macros
