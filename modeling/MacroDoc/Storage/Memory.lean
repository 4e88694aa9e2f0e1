import MacroDoc.Storage
import MacroDoc.Text.Scan

/-!
# Storage in memory

A tree of files is a storage: its root is the folder that locations are seen from.

* `Tree.insert`, `Tree.ofFiles` : the tree of files with the names of the folders that they are in;
* `Tree.follow` : where the names of a location lead;
* `Tree.storage` : the answers of a tree.
-/

namespace MacroDoc.Tree

variable {α : Type}

/-! ## Building -/

/-- Put a file into the entries of a folder, below the folders that the names before the last one name. -/
def insert (content : α) : List String → List (String × Tree α) → List (String × Tree α)
  | [], entries => entries
  | [name], entries => entries.filter (·.1 ≠ name) ++ [(name, file content)]
  | name :: names, entries =>
    let inner := match entries.lookup name with
      | some (folder inner) => inner
      | _ => []
    entries.filter (·.1 ≠ name) ++ [(name, folder (insert content names inner))]

def names (location : String) : List String :=
  (Text.split '/' location.toList).map String.ofList

/-- The tree of files by location. -/
def ofFiles (files : List (String × α)) : Tree α :=
  folder (files.foldl (fun entries (location, content) => insert content (names location) entries) [])

mutual

/-- The same tree with nothing known of its files. -/
def outline : Tree α → Tree Unit
  | file _ => file ()
  | folder entries => folder (outlineEach entries)

def outlineEach : List (String × Tree α) → List (String × Tree Unit)
  | [] => []
  | (name, tree) :: rest => (name, tree.outline) :: outlineEach rest

end

/-! ## Reading -/

/-- Where names lead from a tree that stands within `around`, the innermost folder first. -/
def follow (around : List (Tree α)) : Tree α → List String → Except ReadError (Tree α)
  | tree, [] => .ok tree
  | file _, _ :: _ => .error .notFolder
  | folder entries, name :: names =>
    if name = "" ∨ name = "." then follow around (folder entries) names
    else if name = ".." then
      match around with
      | [] => follow [] (folder entries) names
      | outer :: rest => follow rest outer names
    else if maxNameBytes < name.utf8ByteSize then .error .nameTooLong
    else match entries.lookup name with
      | none => .error .notFound
      | some tree => follow (folder entries :: around) tree names

/-- What stands at a location as seen from the root. Of locations that begin with a slash only that slash is known. -/
def find (root : Tree α) (location : String) : Except ReadError (Tree α) :=
  match locationError? location with
  | some e => .error e
  | none => follow [] (if location.toList.head? = some '/' then folder [] else root) (names location)

def read (root : Tree (Option String)) (location : String) : Except ReadError String :=
  match root.find location with
  | .error e => .error e
  | .ok (folder _) => .error .isFolder
  | .ok (file none) => .error .notText
  | .ok (file (some text)) => .ok text

/-- The answers of a tree whose files are texts, or known to be none. -/
def storage (root : Tree (Option String)) : Storage Id where
  read location := root.read location
  look location := (root.find location).toOption.map outline

end MacroDoc.Tree
