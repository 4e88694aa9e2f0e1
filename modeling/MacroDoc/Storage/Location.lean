import MacroDoc.Text.Scan

/-!
# Locations

A location is the text that names a file: names of folders and the name of the file, with slashes between them.

* `fileName`, `folderOf` : the last name of a location, and the folder that it is in;
* `stem` : a file name without its last extension;
* `joinLocation` : a location as seen from a folder.
-/

namespace MacroDoc

/-- The name of a file without the folders that it is in. -/
def fileName (location : String) : String :=
  String.ofList (location.toList.reverse.takeWhile (· ≠ '/')).reverse

/-- Drop the slashes that a location ends with, and the names `.` between them; the argument is the location read from
its end. A slash or a `.` that all the others stand after is kept. -/
def dropEmptyNames : List Char → List Char
  | ['/'] => ['/']
  | '/' :: rest => dropEmptyNames rest
  | '.' :: '/' :: rest => dropEmptyNames ('/' :: rest)
  | reversed => reversed

/-- The folder that a file is in; empty for a name alone. -/
def folderOf (location : String) : String :=
  String.ofList (dropEmptyNames (location.toList.reverse.dropWhile (· ≠ '/'))).reverse

/-- A file name without its last extension. A dot that the name begins with starts no extension. -/
def stem (name : String) : String :=
  match name.toList.reverse.dropWhile (· ≠ '.') with
  | [] | [_] => name
  | _ :: rest => String.ofList rest.reverse

/-- A location as seen from a folder. One that begins with a slash is the same from everywhere. -/
def joinLocation (folder location : String) : String :=
  if location.toList.head? = some '/' ∨ folder.isEmpty then location
  else if folder.toList.getLast? = some '/' then folder ++ location
  else folder ++ "/" ++ location

end MacroDoc
