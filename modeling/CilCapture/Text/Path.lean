import CilCapture.Text.Blank

/-!
# Paths of files

A path is components joined by slashes. Empty components and single dots do not count, except that
a leading slash makes the path absolute and a leading dot component is kept. The last component
names the file unless it is a pair of dots. In a name, the last dot separates stem and extension,
but a dot at its start does not.
-/

namespace CilCapture.Text

/-- The start of a path that is kept whatever follows it, and the rest. -/
def pathRoot : List Char → List Char × List Char
  | '/' :: rest => (['/'], rest)
  | ['.'] => (['.'], [])
  | '.' :: '/' :: rest => (['.'], '/' :: rest)
  | path => ([], path)

def isHollow (component : List Char) : Bool := component == [] || component == ['.']

/-- The components of the path without its root, the last that counts first. -/
def componentsBack (path : List Char) : List (List Char) :=
  (splitAt '/' (pathRoot path).2).reverse.dropWhile isHollow

/-- The name of the file, if the path has one. -/
def fileName? (path : List Char) : Option (List Char) :=
  match componentsBack path with
  | name :: _ => if name = ['.', '.'] then none else some name
  | [] => none

/-- The path as written up to the last component before the file. -/
def directory (path : List Char) : List Char :=
  let before := ((componentsBack path).drop 1).dropWhile isHollow
  (pathRoot path).1 ++ ['/'].intercalate before.reverse

/-- A name that ends in an extension, cut at its last dot. -/
def cutExtension? (name : List Char) : Option (List Char × List Char) :=
  match cut? '.' name.reverse with
  | some (extension, stem@(_ :: _)) => some (stem.reverse, extension.reverse)
  | _ => none

/-- A path continued by a name; an absolute name stands for itself. -/
def joinPath (path name : List Char) : List Char :=
  if name.head? = some '/' then name
  else if path = [] ∨ path.getLast? = some '/' then path ++ name
  else path ++ '/' :: name

/-- The path with another file name; one without a name is continued by it. -/
def withFileName (name path : List Char) : List Char :=
  joinPath (if (fileName? path).isSome then directory path else path) name

end CilCapture.Text
