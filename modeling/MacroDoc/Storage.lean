/-!
# Storage

Commands read files through a storage. What they do with the answers does not depend on where the files are.

* `ReadError` : why a file could not be read;
* `locationError?` : why no file can be at a location, whatever files there are;
* `Tree` : a file, or a folder with named entries;
* `Storage` : what a command may ask.
-/

namespace MacroDoc

/-- Why a file could not be read. -/
inductive ReadError where
  | notFound
  | isFolder
  | notFolder
  | notText
  | nameTooLong
  | nulInName
  | other (message : String)
  deriving DecidableEq

def ReadError.message : ReadError → String
  | notFound => "No such file or directory (os error 2)"
  | isFolder => "Is a directory (os error 21)"
  | notFolder => "Not a directory (os error 20)"
  | notText => "stream did not contain valid UTF-8"
  | nameTooLong => "File name too long (os error 36)"
  | nulInName => "file name contained an unexpected NUL byte"
  | other message => message

def maxNameBytes : Nat := 255

def maxLocationBytes : Nat := 4095

/-- Why a location as a whole cannot be one of a file, if it cannot. -/
def locationError? (location : String) : Option ReadError :=
  if location.toList.contains '\x00' then some .nulInName
  else if location.isEmpty then some .notFound
  else if maxLocationBytes < location.utf8ByteSize then some .nameTooLong
  else none

/-- A file with something known of it, or a folder with its entries by name. -/
inductive Tree (α : Type) where
  | file (content : α)
  | folder (entries : List (String × Tree α))
  deriving Inhabited

/-- Answers to what a command asks: the text of a file, and the tree that stands at a location if there is one. -/
structure Storage (m : Type → Type) where
  read : String → m (Except ReadError String)
  look : String → m (Option (Tree Unit))

end MacroDoc
