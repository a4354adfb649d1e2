import DrawScript.Text.Blank

/-!
Paths, and the disk they lead through. A path is a row of names with slashes between them; the
extension of a file is what follows the last dot of its name, unless that dot is the first character.
A place is the row of names that leads from the root to a file or a directory. A path that starts with
a slash is followed from the root and every other one from the working directory, where two dots lead
one directory up and the root is above itself.
-/

namespace DrawScript

namespace Path

def names (path : String) : List String :=
  (Text.splitOn (· == '/') path.toList).map String.ofList

def isAbsolute (path : String) : Bool := path.toList.head? == some '/'

def splitName (path : List Char) : List Char × List Char :=
  ((path.reverse.dropWhile (· != '/')).reverse, (path.reverse.takeWhile (· != '/')).reverse)

def stem (name : List Char) : List Char :=
  match name.reverse.dropWhile (· != '.') with
  | _ :: c :: cs => (c :: cs).reverse
  | _ => name

def withExtension (path extension : String) : String :=
  let (directory, name) := splitName path.toList
  String.ofList (directory ++ stem name ++ '.' :: extension.toList)

end Path

inductive Device where
  | null
  | input
  | output
  deriving DecidableEq, Repr

inductive Entry where
  | directory
  | file (text : Option String)
  | device (device : Device)
  deriving DecidableEq, Repr

structure Disk where
  entries : List (List String × Entry)
  current : List String
  deriving DecidableEq, Repr

namespace Disk

def entryAt (d : Disk) (place : List String) : Option Entry :=
  if place = [] then some .directory else d.entries.lookup place

def walk (d : Disk) (place : List String) : List String → Option (List String)
  | [] => some place
  | name :: names =>
    if name = "" ∨ name = "." then d.walk place names
    else if name = ".." then d.walk place.dropLast names
    else if d.entryAt (place ++ [name]) = some .directory then d.walk (place ++ [name]) names
    else none

def placeIn (name : String) (directory : List String) : Option (List String) :=
  if ["", ".", ".."].contains name then none else some (directory ++ [name])

/-- The place of the file that a path names, whether or not the file is there. All names but the last
have to lead to directories. -/
def locate (d : Disk) (path : String) : Option (List String) :=
  (d.walk (if Path.isAbsolute path then [] else d.current) (Path.names path).dropLast).bind
    (placeIn ((Path.names path).getLastD ""))

def read? (d : Disk) (input path : String) : Option String :=
  match (d.locate path).bind d.entryAt with
  | some (.file text) => text
  | some (.device .null) => some ""
  | some (.device .input) => some input
  | _ => none

end Disk

end DrawScript
