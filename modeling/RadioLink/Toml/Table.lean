import RadioLink.Schema.Datum

/-!
# Tables of a document

A table comes about in three ways: by a header of its own, by a header or a key that names something
below it, or as one of an array of tables. Only what a header names below itself (`Table.implicit`)
may get a header of its own later, and keys may not reach into a table that has a header.
-/

namespace RadioLink.Toml

open Schema

mutual

/-- What stands under a name. -/
inductive Item where
  | value (datum : Datum)
  | table (table : Table)
  /-- Tables of one name, in order. -/
  | tables (tables : List Table)

/-- A table, and how it has come about. -/
inductive Table where
  /-- `implicit` unless it has a header, `dotted` if a key with points has made it. -/
  | mk (implicit dotted : Bool) (entries : List (String × Item))

end

namespace Table

/-- A table with a header and no entries. -/
def empty : Table := .mk false false []

instance : Inhabited Table := ⟨empty⟩

/-- Whether the table has no header. -/
def implicit : Table → Bool
  | .mk i _ _ => i

/-- Whether a key with points has made the table. -/
def dotted : Table → Bool
  | .mk _ d _ => d

/-- The entries in the order in which they came. -/
def entries : Table → List (String × Item)
  | .mk _ _ es => es

/-- The same table with other entries. -/
def withEntries (t : Table) (es : List (String × Item)) : Table := .mk t.implicit t.dotted es

/-- The same table with a header. -/
def withHeader (t : Table) : Table := .mk false t.dotted t.entries

/-- What stands under `name`. -/
def get? (t : Table) (name : String) : Option Item :=
  (t.entries.find? fun e => e.1 = name).map (·.2)

/-- Puts `item` under `name`: at the end, or in the place of what stood there. -/
def put (t : Table) (name : String) (item : Item) : Table :=
  if (t.get? name).isSome then
    t.withEntries (t.entries.map fun e => if e.1 = name then (name, item) else e)
  else t.withEntries (t.entries ++ [(name, item)])

/-- The table without what stands under `name`. -/
def erase (t : Table) (name : String) : Table :=
  t.withEntries (t.entries.filter fun e => e.1 ≠ name)

/-- Changes with `f` the table to which a path leads, making the tables that are missing on the way.
For an array of tables the path goes on in the last one. A path of `keys` may not pass a table with
a header. -/
def update (keys : Bool) (f : Table → Option (Table × α)) :
    List String → Table → Option (Table × α)
  | [], t => f t
  | k :: ks, t => do
    match t.get? k with
    | none =>
      let (child, a) ← update keys f ks (.mk true keys [])
      return (t.put k (.table child), a)
    | some (.value _) => none
    | some (.table child) =>
      if keys && !child.implicit then none
      else
        let (child, a) ← update keys f ks child
        return (t.put k (.table child), a)
    | some (.tables ts) =>
      let (last, a) ← update keys f ks (ts.getLast?.getD empty)
      return (t.put k (.tables (ts.dropLast ++ [last])), a)

/-- Puts `value` under the key `path` in a table. -/
def putValue (t : Table) (path : List String) (value : Datum) : Option Table := do
  let name ← path.getLast?
  let above := path.dropLast
  let (t, ()) ← t.update true (fun target =>
    if target.dotted == above.isEmpty || (target.get? name).isSome then none
    else some (target.put name (.value value), ())) above
  return t

end Table

mutual

/-- What the item says. -/
def Item.datum : Item → Datum
  | .value d => d
  | .table t => t.datum
  | .tables ts => .sequence (Table.data ts)

/-- What the table says. -/
def Table.datum : Table → Datum
  | .mk _ _ es => .table (Table.entryData es)

/-- What the tables of one name say. -/
def Table.data : List Table → List Datum
  | [] => []
  | t :: ts => t.datum :: Table.data ts

/-- What the entries of a table say. -/
def Table.entryData : List (String × Item) → List (String × Datum)
  | [] => []
  | (name, item) :: es => (name, item.datum) :: Table.entryData es

end

end RadioLink.Toml
