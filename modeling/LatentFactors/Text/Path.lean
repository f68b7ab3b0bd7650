/-!
# Paths of files

A path is compared and reported in its short form: without empty parts and
without parts that stand for the same directory.  The root is a part of its
own, before all others.
-/

namespace LatentFactors.Text.Path

/-- The part that stands for the root. -/
def root : String := "/"

/-- The parts of a path that count. -/
def parts (path : String) : List String :=
  (if path.startsWith "/" then [root] else []) ++
    (path.splitOn "/").filter fun part => part != "" && part != "."

/-- Writes a path from its parts. -/
def ofParts : List String → String
  | [] => "."
  | first :: rest =>
    if first == root then "/" ++ "/".intercalate rest else "/".intercalate (first :: rest)

/-- The short form of a path. -/
def normalize (path : String) : String := ofParts (parts path)

/-- The path of a file in a directory. -/
def join (directory file : String) : String := ofParts (parts directory ++ parts file)

/-- The directory of a file. -/
def directory (path : String) : String := ofParts (parts path).dropLast

/-- The end of the last part of a path, from its last point on.  A point at
the start or at the end of the part does not count. -/
def suffix (path : String) : String :=
  let name := ((parts path).getLast?.getD "").toList
  let tail := name.reverse.takeWhile (· != '.')
  if tail.length + 1 < name.length && !tail.isEmpty then
    String.ofList ('.' :: tail.reverse)
  else ""

end LatentFactors.Text.Path
