import MacroDoc.Storage
import MacroDoc.Text.Scan

/-!
# Discovery

The tests of a folder are its files whose names end with `.test.md`, at any depth. The folders that a test is in are its
category.

* `testsIn` : the tests of a folder;
* `groupTests` : the tests by category, in order;
* `covers`, `selectGroups` : the groups that are asked for.
-/

namespace MacroDoc.Testing

/-- A test file below a folder: the folders that it is in, and its name. -/
structure FoundTest where
  folders : List String
  name : String
  deriving DecidableEq, Inhabited

def isTestName (name : String) : Bool :=
  ".test.md".toList.isSuffixOf name.toList

/-- The test files among entries that stand below `folders`. -/
def testsIn (folders : List String) : List (String × Tree Unit) → List FoundTest
  | [] => []
  | (name, .file _) :: rest =>
    if isTestName name then ⟨folders, name⟩ :: testsIn folders rest else testsIn folders rest
  | (name, .folder entries) :: rest => testsIn (folders ++ [name]) entries ++ testsIn folders rest
termination_by entries => sizeOf entries
decreasing_by
  all_goals
    simp only [List.cons.sizeOf_spec, Prod.mk.sizeOf_spec, Tree.folder.sizeOf_spec]
    omega

namespace FoundTest

def names (t : FoundTest) : List String :=
  t.folders ++ [t.name]

/-- The folders that the file is in, with slashes between them; a backslash counts as a slash. -/
def category (t : FoundTest) : String :=
  String.ofList (("/".intercalate t.folders).toList.map fun c => if c = '\\' then '/' else c)

/-- The location of the file as seen from where `root` is. -/
def location (root : String) (t : FoundTest) : String :=
  let start := if root.toList.getLast? = some '/' then root else root ++ "/"
  start ++ "/".intercalate t.names

/-- Whether a test comes before another one, or is in the same place: by category, then name by name. -/
def precedes (a b : FoundTest) : Bool :=
  ((compare a.category b.category).then (List.compareLex compare a.names b.names)).isLE

end FoundTest

/-- The tests of one category. -/
structure TestGroup where
  category : String
  tests : List FoundTest
  deriving DecidableEq, Inhabited

/-- Tests by category, in order. -/
def groupTests (tests : List FoundTest) : List TestGroup :=
  let sorted := tests.mergeSort FoundTest.precedes
  (sorted.map FoundTest.category).eraseDups.map fun c => ⟨c, sorted.filter fun t => t.category = c⟩

def trimSlashes (text : String) : String :=
  String.ofList (Text.dropTrailing '/' (text.toList.dropWhile (· = '/')))

/-- Whether a request for a category asks for this one: it is the same, or lies below it. -/
def covers (requested category : String) : Bool :=
  category = trimSlashes requested || (trimSlashes requested ++ "/").toList.isPrefixOf category.toList

/-- The groups that one of the requests asks for; all of them if there are no requests. -/
def selectGroups (requested : List String) (groups : List TestGroup) : List TestGroup :=
  groups.filter fun g => requested.isEmpty || requested.any fun r => covers r g.category

def unansweredRequests (requested : List String) (groups : List TestGroup) : List String :=
  requested.filter fun r => !groups.any fun g => covers r g.category

/-- A category as it is shown. -/
def shownCategory (category : String) : String :=
  if category.isEmpty then "(root)" else category

end MacroDoc.Testing
