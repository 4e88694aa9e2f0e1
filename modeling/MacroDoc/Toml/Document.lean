import MacroDoc.Toml.Statement

/-!
# TOML documents

The statements of a document build one table. No key is set twice, and no table has two headers.

* `addHeader`, `addItemHeader` : what a header makes;
* `ofStatements` : the table of statements;
* `parse` : the table of a text.
-/

namespace MacroDoc.Toml

/-- Make the table of a header. It may take over a table that the header of an inner table implied. -/
def addHeader (key : String) (entries : Entries) : Option Entries :=
  match entries.lookup key with
  | none => some (entries ++ [(key, .table .header [])])
  | some (.table .implied inner) => some (setEntry key (.table .header inner) entries)
  | some _ => none

/-- Make one more table of an array of tables. -/
def addItemHeader (key : String) (entries : Entries) : Option Entries :=
  match entries.lookup key with
  | none => some (entries ++ [(key, .tables [[]])])
  | some (.tables items) => some (setEntry key (.tables (items ++ [[]])) entries)
  | some _ => none

/-- Add statements to a table; `current` is the path that pairs belong to. -/
def addStatements (current : List String) (entries : Entries) : List Statement → Option Entries
  | [] => some entries
  | .pair keys value :: rest => do
    let entries ← changeAt false (fun _ inner => addPair keys value inner) current .header entries
    addStatements current entries rest
  | .table keys :: rest => do
    let key ← keys.getLast?
    let entries ← changeAt false (fun _ inner => addHeader key inner) keys.dropLast .header entries
    addStatements keys entries rest
  | .tableItem keys :: rest => do
    let key ← keys.getLast?
    let entries ← changeAt false (fun _ inner => addItemHeader key inner) keys.dropLast .header entries
    addStatements keys entries rest

def parse (text : String) : Option Entries :=
  (readStatements text.toList).bind (addStatements [] [])

end MacroDoc.Toml
