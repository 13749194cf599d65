import Chip8.Text.Fields

/-!
Paths of files. A path is a text of names with slashes between them. Slashes in a row count as one, a
slash at the end counts for nothing, and so does a dot between slashes; a dot in front is kept. Two
texts that differ in nothing else are the same path.
-/

namespace Chip8

structure Path where
  /-- It begins with a slash. -/
  rooted : Bool
  /-- It begins with a dot that is a name of its own. -/
  dotted : Bool
  names : List String
  deriving DecidableEq, Repr

namespace Path

/-- Whether a part of a path names something: it is not empty and not a dot. -/
def isName (part : List Char) : Bool := part != [] && part != ['.']

def ofText (text : String) : Path :=
  let parts := Text.divide '/' text.toList
  { rooted := parts.1 == [] && parts.2 != []
    dotted := parts.1 == ['.']
    names := ((parts.1 :: parts.2).filter isName).map String.ofList }

end Path
end Chip8
