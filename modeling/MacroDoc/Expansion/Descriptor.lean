import MacroDoc.Call
import MacroDoc.Text.Scan

/-!
# Descriptors of macros

A descriptor says what a macro is called, where it may stand, what it takes, and when it runs.

* `Descriptor` : the facts;
* `InvalidCall` : why a call does not fit them;
* `Descriptor.check` : mandatory parameters are looked at first, in order of declaration, then the content. Content
  counts if it has a character that is not blank. Parameters that the descriptor does not name are let through.
-/

namespace MacroDoc

structure ContentDescriptor where
  description : String
  mandatory : Bool
  deriving DecidableEq, Inhabited

structure ParameterDescriptor where
  name : String
  description : String
  mandatory : Bool
  deriving DecidableEq, Inhabited

/-- The facts about a macro. It takes no content if it has no content descriptor. -/
structure Descriptor where
  name : String
  description : String
  category : Option String
  supportsInline : Bool
  content : Option ContentDescriptor
  parameters : List ParameterDescriptor
  priority : Int
  deriving DecidableEq, Inhabited

/-- The priority of a macro that does not ask for one. -/
def Descriptor.defaultPriority : Int := 1000

/-- Why a call does not fit its macro. -/
inductive InvalidCall where
  | missingParameter (name : String)
  | contentRefused (identifier : String)
  | contentRequired (identifier : String)
  deriving DecidableEq

def InvalidCall.message : InvalidCall → String
  | missingParameter name => "missing mandatory parameter '" ++ name ++ "'"
  | contentRefused identifier => "the '" ++ identifier ++ "' macro does not accept content"
  | contentRequired identifier => "the '" ++ identifier ++ "' macro requires content"

/-- Whether a call has content that is not blank. -/
def Call.hasContent (c : Call) : Bool :=
  match c.content with
  | some content => !Text.isBlankText content.toList
  | none => false

/-- The first mandatory parameter that a call lacks. -/
def Descriptor.missingParameter? (d : Descriptor) (call : Call) : Option ParameterDescriptor :=
  d.parameters.find? fun p => p.mandatory && !call.parameters.contains p.name

/-- Check a call against the descriptor of its macro. -/
def Descriptor.check (d : Descriptor) (call : Call) : Except InvalidCall Unit :=
  match d.missingParameter? call with
  | some p => .error (.missingParameter p.name)
  | none =>
    match d.content with
    | none => if call.hasContent then .error (.contentRefused call.identifier) else .ok ()
    | some content =>
      if content.mandatory && !call.hasContent then .error (.contentRequired call.identifier) else .ok ()

end MacroDoc
