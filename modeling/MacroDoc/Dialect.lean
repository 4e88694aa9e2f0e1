import MacroDoc.Text.Scan

/-!
# Markup dialects

A macro call is written against a dialect, and macros are looked up per dialect. An id is written
`type/version`.

* `Dialect.render`, `Dialect.read` : the written id;
* `Dialect.compare` : by type, then by version.
-/

namespace MacroDoc

/-- A markup dialect: its type and its version. -/
structure Dialect where
  kind : String
  version : String
  deriving DecidableEq, Inhabited

namespace Dialect

/-- The dialect that documents are written in unless another one is named. -/
def default : Dialect := ⟨"xwiki", "2.0"⟩

def render (d : Dialect) : String :=
  d.kind ++ "/" ++ d.version

/-- A text that is no dialect id. -/
structure ReadError where
  text : String
  deriving DecidableEq

def ReadError.message (e : ReadError) : String :=
  "invalid syntax id '" ++ e.text ++ "': expected <type>/<version>"

/-- Read an id. It is cut at its first slash; both sides must hold something before they are trimmed. -/
def read (text : String) : Except ReadError Dialect :=
  match Text.splitOnce? '/' text.toList with
  | some (kind, version) =>
    if kind.isEmpty || version.isEmpty then .error ⟨text⟩
    else .ok ⟨String.ofList (Text.trim kind), String.ofList (Text.trim version)⟩
  | none => .error ⟨text⟩

/-- Order by type, then by version. -/
def compare (a b : Dialect) : Ordering :=
  (Ord.compare a.kind b.kind).then (Ord.compare a.version b.version)

end Dialect

end MacroDoc
