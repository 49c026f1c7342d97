/-!
# Paths of log files

A path is a text with slashes. Its parts are names, `.` and `..`; further slashes and a `.` that is
not at the start say nothing. `parent?` is the text up to the last part, written as it was, and
`fileName?` is the last part if it is a name.
-/

namespace RadioLink.LogPath

/-- A part of a path. -/
inductive Part where
  | root | here | up
  | name (text : List Char)
  deriving DecidableEq, Repr

/-- The part that the text between two slashes is; an empty one and `.` are none. -/
def part? (cs : List Char) : Option Part :=
  if cs = [] ∨ cs = ['.'] then none
  else if cs = ['.', '.'] then some .up
  else some (.name cs)

/-- The number of characters at the start of a path that are its root or a `.` before all else. -/
def leadLength : List Char → Nat
  | '/' :: _ => 1
  | ['.'] => 1
  | '.' :: '/' :: _ => 1
  | _ => 0

/-- Takes parts off the end of the text after the start of a path, given backwards, until one says
something; returns what is left. -/
def lastPart (fuel : Nat) (back : List Char) : Option (Part × List Char) :=
  match fuel, back with
  | 0, _ => none
  | _, [] => none
  | fuel + 1, back =>
    let text := back.takeWhile (· ≠ '/')
    let rest := back.drop (text.length + 1)
    match part? text.reverse with
    | some p => some (p, rest)
    | none => lastPart fuel rest

/-- Takes slashes and parts that say nothing off the end of the text after the start of a path,
given backwards. -/
def trimEnd (fuel : Nat) (back : List Char) : List Char :=
  match fuel, back with
  | 0, _ => back
  | _, [] => []
  | fuel + 1, back =>
    let text := back.takeWhile (· ≠ '/')
    match part? text.reverse with
    | some _ => back
    | none => trimEnd fuel (back.drop (text.length + 1))

/-- The last part of `path` and the path without it, if it has a part. -/
def split? (path : List Char) : Option (Part × List Char) :=
  let lead := path.take (leadLength path)
  let back := (path.drop (leadLength path)).reverse
  match lastPart path.length back with
  | some (p, rest) => some (p, lead ++ (trimEnd path.length rest).reverse)
  | none =>
    match lead with
    | ['/'] => some (.root, [])
    | ['.'] => some (.here, [])
    | _ => none

/-- The directory of `path`; the root is in none. -/
def parent? (path : String) : Option String :=
  match split? path.toList with
  | some (.root, _) | none => none
  | some (_, rest) => some (String.ofList rest)

/-- The name of the file that `path` leads to. A path that is only the root, or ends in `..`, names
no file. -/
def fileName? (path : String) : Option String :=
  match split? path.toList with
  | some (.name text, _) => some (String.ofList text)
  | _ => none

/-- The parts of `path` below its start. -/
def parts (path : List Char) : List Part :=
  (path.splitOnP (· = '/')).filterMap part?

/-- The directories there are: the root, those below it whose names are given, and the directory in
which relative paths start, whose own name is not known. -/
structure Directories where
  known : List (List (List Char))

namespace Directories

/-- Follows the parts of a path from the root on; `here` holds the names passed, the last one first.
-/
def follow (d : Directories) (here : List (List Char)) : List Part → Bool
  | [] => true
  | .name n :: rest => d.known.contains (n :: here).reverse && follow d (n :: here) rest
  | .up :: rest => follow d here.tail rest
  | .root :: rest => follow d [] rest
  | .here :: rest => follow d here rest

/-- Whether `path` leads to a directory that there is. -/
def contains (d : Directories) (path : String) : Bool :=
  match path.toList with
  | '/' :: rest => d.follow [] (parts rest)
  | [] => false
  | cs => (parts cs).all (· = .up)

end Directories
end RadioLink.LogPath
