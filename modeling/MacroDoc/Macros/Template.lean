import MacroDoc.Parameters
import MacroDoc.Text.Scan

/-!
# Templates

A template is text with placeholders `${name}`, which stand for the parameters of a call, or for its content.
What takes the place of a placeholder is not looked at again.

* `TemplatePart`, `templateParts` : a template as literal text and placeholders, which depends on the template alone;
* `TemplatePart.fill`, `fillTemplate` : the text of a part, and of a template, for a call.
-/

namespace MacroDoc.Macros

/-- Literal text, or a placeholder with its trimmed name. -/
inductive TemplatePart where
  | literal (text : List Char)
  | placeholder (name : List Char)
  deriving DecidableEq

def consLiteral (c : Char) : List TemplatePart → List TemplatePart
  | .literal text :: parts => .literal (c :: text) :: parts
  | parts => .literal [c] :: parts

/-- The parts of a template. A placeholder ends at the first closing brace; without one it is literal. -/
def templateParts (text : List Char) : List TemplatePart :=
  match text with
  | '$' :: '{' :: rest =>
    match h : Text.splitOnce? '}' rest with
    | some (name, after) =>
      have : after.length < rest.length + 1 + 1 := by
        have := congrArg List.length (Text.eq_append_of_splitOnce? h)
        simp at this
        omega
      .placeholder (Text.trim name) :: templateParts after
    | none => [.literal ('$' :: '{' :: rest)]
  | c :: rest => consLiteral c (templateParts rest)
  | [] => []
  termination_by text.length

/-- The text of a part. A parameter that is not given, and content that is not there, are empty. -/
def TemplatePart.fill (parameters : Parameters) (content : Option String) : TemplatePart → List Char
  | literal text => text
  | placeholder name =>
    if name = "content".toList then (content.getD "").toList
    else ((parameters.get? (String.ofList name)).getD "").toList

def fillTemplate (template : List Char) (parameters : Parameters) (content : Option String) : List Char :=
  (templateParts template).flatMap (TemplatePart.fill parameters content)

end MacroDoc.Macros
