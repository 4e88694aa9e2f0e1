import MacroDoc.Toml.Document

/-!
# Records in TOML

A record is written as a table, or as an array of its fields in order.

* `Value.string?`, `Value.integer?` and their kin : values of one kind;
* `fieldsOf` : the fields of a record by name;
* `required`, `optional`, `withDefault` : a field of a record.
-/

namespace MacroDoc.Toml

namespace Value

def string? : Value → Option String
  | string text => some text
  | _ => none

def boolean? : Value → Option Bool
  | boolean truth => some truth
  | _ => none

/-- An integer from `low` to `high`. -/
def integer? (low high : Int) : Value → Option Int
  | integer n => if low ≤ n ∧ n ≤ high then some n else none
  | _ => none

/-- An integer that is not negative. -/
def natural? : Value → Option Nat
  | integer n => if 0 ≤ n then some n.toNat else none
  | _ => none

/-- The items of an array, each read by `read`. -/
def list? {α : Type} (read : Value → Option α) : Value → Option (List α)
  | array items => items.mapM read
  | tables items => items.mapM fun entries => read (.table .header entries)
  | _ => none

/-- Whether the value is an array or a table without anything in it. -/
def isEmpty : Value → Bool
  | array [] | table _ [] => true
  | _ => false

/-- A name out of a fixed set: a string, or a table of nothing but that name with an empty value. -/
def name? : Value → Option String
  | string text => some text
  | table _ [(name, value)] => if value.isEmpty then some name else none
  | _ => none

end Value

/-- The fields of a record. A closed record has no other fields than `names`; fields beyond the last name of an array
are passed over. -/
def fieldsOf (names : List String) (closed : Bool) : Value → Option Entries
  | .table _ entries => if closed && entries.any (fun e => e.1 ∉ names) then none else some entries
  | .array items => some (names.zip items)
  | .tables items => some (names.zip (items.map (.table .header)))
  | _ => none

variable {α : Type}

def required (read : Value → Option α) (name : String) (fields : Entries) : Option α :=
  fields.lookup name >>= read

def optional (read : Value → Option α) (name : String) (fields : Entries) : Option (Option α) :=
  match fields.lookup name with
  | some value => (read value).map some
  | none => some none

def withDefault (fallback : α) (read : Value → Option α) (name : String) (fields : Entries) : Option α :=
  (optional read name fields).map (·.getD fallback)

end MacroDoc.Toml
