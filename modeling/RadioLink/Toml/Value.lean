import RadioLink.Toml.Number
import RadioLink.Toml.Table

/-!
# Values of TOML

Texts, numbers, moments, yes and no, arrays, and tables within a line. An array may go over several
lines and end with a comma, a table may not.
-/

namespace RadioLink.Toml.Reader

open Text.Reader Schema

/-- A value that holds no others. -/
def simple : Reader Datum := do
  match ← peek with
  | some '"' => return .string (← text '"')
  | some '\'' => return .string (← text '\'')
  | some 't' => do
    chars .malformed ['t', 'r', 'u', 'e']
    return .bool true
  | some 'f' => do
    chars .malformed ['f', 'a', 'l', 's', 'e']
    return .bool false
  | _ => moment.or number

/-- Whether another element of an array follows. -/
def anotherElement : Reader Bool := do
  if ← follows ',' then do
    trivia
    return (← peek) ≠ some ']'
  else Pure.pure false

/-- An array, after its opening bracket. -/
def array (element : Reader Datum) : Reader Datum := do
  trivia
  if ← follows ']' then return .sequence []
  else do
    let elements ← items (do
      let d ← element
      trivia
      return d) anotherElement
    exactly ']'
    return .sequence elements

/-- A key and its value. -/
def pair (element : Reader Datum) : Reader (List String × Datum) := do
  let path ← key
  exactly '='
  blanks
  return (path, ← element)

/-- A table within a line, after its opening brace. -/
def inlineTable (element : Reader Datum) : Reader Datum := do
  blanks
  if ← follows '\x7d' then return .table []
  else do
    let pairs ← items (do
      let p ← pair element
      blanks
      return p) (follows ',')
    exactly '\x7d'
    match pairs.foldlM (fun (t : Table) p => t.putValue p.1 p.2) Table.empty with
    | some t => return t.datum
    | none => malformed

/-- A value that holds others down to some depth. -/
def datum : (depth : Nat) → Reader Datum
  | 0 => simple
  | depth + 1 => do
    match ← peek with
    | some '[' => do
      advance
      array (datum depth)
    | some '\x7b' => do
      advance
      inlineTable (datum depth)
    | _ => simple

end RadioLink.Toml.Reader
