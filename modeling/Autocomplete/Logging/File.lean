import Autocomplete.Logging.Config
import Autocomplete.Text.Split

/-!
Where the log file is: the directory and the name that a path stands for.
-/
namespace Autocomplete.LogFile
open Text

/-- Removes slashes and single points from the end of a path, which is given from its end; a single
slash stays. -/
def trimPath : List Char → List Char
  | '/' :: c :: rest => trimPath (c :: rest)
  | '.' :: '/' :: rest => trimPath ('/' :: rest)
  | cs => cs

/-- The part of a path after its last slash, if it names a file. -/
def name? (f : LogFile) : Option String :=
  let last := ((trimPath f.path.toList.reverse).takeWhile (· ≠ '/')).reverse
  if last = [] ∨ last = ['.'] ∨ last = ['.', '.'] then none else some (String.ofList last)

/-- The path of the directory; a file without one is in the current directory. -/
def directory (f : LogFile) : String :=
  let outside := trimPath ((trimPath f.path.toList.reverse).dropWhile (· ≠ '/'))
  if outside = [] ∨ trimPath f.path.toList.reverse = ['/'] then "."
  else String.ofList outside.reverse

/-- Goes down into a directory, or up out of the one that was entered last. -/
def enter (inside : List String) (part : String) : List String :=
  if part = "" ∨ part = "." then inside
  else if part = ".." then inside.dropLast
  else inside ++ [part]

/-- The names between the slashes of a path. -/
def parts (path : String) : List String := (splitAtEach '/' path.toList).map String.ofList

/-- The directories on the way along a path, each given by the names that lead to it. -/
def visited : List String → List String → List (List String)
  | _, [] => []
  | inside, part :: rest => enter inside part :: visited (enter inside part) rest

/-- Whether a path is one that a directory can have: so long at most, and so are its names, none of
which has a zero character in it. -/
def isPossible (path : String) : Bool :=
  path.utf8ByteSize < 4096 && !path.toList.contains '\x00' &&
    (parts path).all (·.utf8ByteSize < 256)

/-- Whether the directory cannot be made, because of its path or of a plain file in its way. -/
def isBlocked (f : LogFile) (occupied : Option String) : Bool :=
  let dir := f.directory
  !isPossible dir || occupied.any fun file =>
    !dir.startsWith "/" && (visited [] (parts dir)).contains ((parts file).foldl enter [])

/-- The name of the file that is written, seen from the current directory. A file that is replaced
from time to time has a date in its name. -/
def writtenName (f : LogFile) (date : String) : Option String :=
  f.name?.map fun name =>
    let dated := if f.rotation = .never then name else name ++ "." ++ date
    let inside := "/".intercalate ((parts f.directory).foldl enter [] ++ [dated])
    if f.directory.startsWith "/" then "/" ++ inside else inside

end Autocomplete.LogFile
