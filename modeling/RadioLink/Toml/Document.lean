import RadioLink.Toml.Value

/-!
# Documents of TOML

A document is a row of lines: headers, and keys with values, which belong to the header before them.
`Draft.add` takes in one line after the other.
-/

namespace RadioLink.Toml

open Schema

/-- One line of a document. -/
inductive Line where
  | blank
  | value (path : List String) (datum : Datum)
  | header (path : List String)
  | arrayHeader (path : List String)

namespace Reader

open Text.Reader

/-- One line, with its line end. -/
def line : Reader Line := do
  blanks
  match ← peek with
  | none => Pure.pure .blank
  | some '\n' => do newline; Pure.pure .blank
  | some '\r' => do newline; Pure.pure .blank
  | some '#' => do lineEnd; Pure.pure .blank
  | some '[' => do
    advance
    if ← follows '[' then do
      let path ← key
      exactly ']'
      exactly ']'
      lineEnd
      return .arrayHeader path
    else do
      let path ← key
      exactly ']'
      lineEnd
      return .header path
  | some _ => do
    let (path, d) ← pair (datum depthLimit)
    lineEnd
    return .value path d

/-- Whether there is more text. -/
def unfinished : Reader Bool := return (← peek).isSome

/-- All lines. -/
def document : Reader (List Line) := do
  let _ ← follows '\uFEFF'
  items line unfinished

end Reader

/-- A document read so far: what has been put together, and the table that is being read with the
path of its header. -/
structure Draft where
  root : Table := .empty
  current : Table := .empty
  path : List String := []
  /-- Whether the table is one of an array. -/
  inArray : Bool := false

namespace Draft

/-- Puts the table that has been read where its header says. -/
def finish (d : Draft) : Option Table :=
  match d.path.getLast? with
  | none => some d.current
  | some name => do
    let (root, ()) ← d.root.update false (fun parent =>
      match parent.get? name with
      | none =>
        some (parent.put name (if d.inArray then .tables [d.current] else .table d.current), ())
      | some (.tables ts) =>
        if d.inArray then some (parent.put name (.tables (ts ++ [d.current])), ()) else none
      | some (.table t) =>
        if !d.inArray && t.implicit then some (parent.put name (.table d.current), ()) else none
      | some (.value _) => none) d.path.dropLast
    return root

/-- Starts the table of the header `path`. A table that only headers below it have made is taken up
again. -/
def start (root : Table) (path : List String) : Option Draft := do
  let name ← path.getLast?
  let (root, current) ← root.update false (fun parent =>
    match parent.get? name with
    | none => some (parent, Table.empty)
    | some (.table t) =>
      if t.implicit && !t.dotted then some (parent.erase name, t.withHeader) else none
    | some _ => none) path.dropLast
  return { root, current, path }

/-- Starts a table of the array at `path`. -/
def startArray (root : Table) (path : List String) : Option Draft := do
  let name ← path.getLast?
  let (root, ()) ← root.update false (fun parent =>
    match parent.get? name with
    | none => some (parent, ())
    | some (.tables _) => some (parent, ())
    | some _ => none) path.dropLast
  return { root, path, inArray := true }

/-- Takes in a line. -/
def add (d : Draft) : Line → Option Draft
  | .blank => some d
  | .value path v => do return { d with current := ← d.current.putValue path v }
  | .header path => do start (← d.finish) path
  | .arrayHeader path => do startArray (← d.finish) path

end Draft

/-- What the document `text` says. -/
def parse (text : String) : Except Fault Datum :=
  match Text.Reader.run Reader.document text.toList with
  | .error f => .error f
  | .ok (_, _ :: _) => .error .malformed
  | .ok (lines, []) =>
    match (lines.foldlM Draft.add {}).bind Draft.finish with
    | some t => .ok t.datum
    | none => .error .malformed

end RadioLink.Toml
