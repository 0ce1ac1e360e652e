import SiteScript.Text.Utf8

/-!
# Files

A collection of files and what they hold, by path.  Parts of a path that stay where
they are, a single point or nothing at all, do not matter.  A file can be added to the
place of the collection itself, but not to a directory below it.
-/

namespace SiteScript

/-- Files by path. -/
abbrev Files := List (String × List UInt8)

namespace Files

/-- The parts of a path that matter, and whether it begins at the root. -/
def place (path : String) : Bool × List String :=
  (path.toList.head? == some '/',
    (path.splitOn "/").filter fun part => !part.isEmpty && part != ".")

/-- Whether a path can be that of a file: it ends with a name. -/
def isFilePath (path : String) : Bool :=
  let name := (path.splitOn "/").getLast?.getD ""
  !name.isEmpty && name != "." && name != ".."

/-- What the file at a path holds, if there is one. -/
def read? (files : Files) (path : String) : Option (List UInt8) :=
  if isFilePath path then
    (files.find? fun file => place file.1 == place path).map fun file => file.2
  else none

/-- The text that the file at a path holds, if there is one and it holds a text. -/
def readText? (files : Files) (path : String) : Option String :=
  (files.read? path).bind fun bytes =>
    match Text.Utf8.decode bytes with
    | .ok text => some (.ofList text)
    | .error _ => none

/-- The number of octets that the name of a file may have. -/
def nameLimit : Nat := 255

/-- The collection after a text has been written to a path, if that names a file in it. -/
def write? (files : Files) (path text : String) : Option Files :=
  match place path with
  | (false, [name]) =>
    if isFilePath path && name.utf8ByteSize ≤ nameLimit then
      some ((path, Text.Utf8.encode text.toList) :: files)
    else none
  | _ => none

/-- The extension of the file at a path: what follows the last point of its name, unless the name
begins with that point. -/
def extension? (path : String) : Option String :=
  let name := ((place path).2.getLast?.getD "").toList
  let after := (name.reverse.takeWhile (· != '.')).reverse
  if name.length ≤ after.length + 1 then none else some (.ofList after)

end Files

end SiteScript
