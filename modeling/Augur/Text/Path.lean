/-
# File paths

A path in its plain form: no empty parts and no parts that stand for the same
folder. Parts that go up stay. Two slashes at the very front stay two, more
are one, and the empty path is the folder itself.

Key definitions: `Text.plainPath`, `Text.parentPath`.
-/

namespace Augur.Text

/-- The parts of a path that count. -/
def pathParts (path : String) : List String :=
  (path.splitOn "/").filter fun p => !(p.isEmpty || p == ".")

/-- The slashes that a path starts with, as they are kept. -/
def pathRoot (path : String) : String :=
  match (path.toList.takeWhile (· == '/')).length with
  | 0 => ""
  | 2 => "//"
  | _ => "/"

/-- A path of a root and its parts. -/
def joinPath (root : String) (parts : List String) : String :=
  if root.isEmpty && parts.isEmpty then "." else root ++ "/".intercalate parts

/-- A path in its plain form. -/
def plainPath (path : String) : String := joinPath (pathRoot path) (pathParts path)

/-- The folder that a path lies in. -/
def parentPath (path : String) : String := joinPath (pathRoot path) (pathParts path).dropLast

end Augur.Text
