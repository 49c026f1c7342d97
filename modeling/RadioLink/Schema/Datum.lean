import RadioLink.Schema

/-!
# Data without a notation

What a document says, apart from how it is written (`Datum`), and records read from it (`Record`). A
record is a table with its members under their names, or a list of its members in order. A fault in
a member is found where the member stands; a missing member when the table ends.
-/

namespace RadioLink.Schema

open Decimal

/-- What a document says. -/
inductive Datum where
  | null
  | bool (value : Bool)
  | integer (value : Int)
  | float (value : Binary64)
  | string (value : String)
  | sequence (elements : List Datum)
  /-- Entries in the order in which they are read. -/
  | table (entries : List (String × Datum))
  /-- A date or a time of day. -/
  | moment
  deriving Inhabited

/-- What the datum is, as a reader is told about it. -/
def Datum.found : Datum → Found
  | .null => .null
  | .bool b => .bool b
  | .integer n => .integer n
  | .float x => .float x
  | .string s => .string s
  | .sequence _ => .sequence
  | .table _ => .map
  | .moment => .map

/-- How records are read in a notation. -/
structure Dialect where
  /-- How floating-point values are shown. -/
  style : Style
  /-- Whether a list may have more elements than a record has members. -/
  surplus : Bool
  /-- Whether an identifier may be given as a list of its octets. -/
  octets : Bool

namespace Datum

/-- A whole number from zero to `high`. -/
def natural (high : Nat) (expected : String) : Datum → Except Fault Nat
  | .integer n =>
    if 0 ≤ n ∧ n ≤ high then .ok n.toNat else .error (.wrongValue (.integer n) expected)
  | d => .error (.wrongType d.found expected)

/-- A number of eight bits. -/
def u8 : Datum → Except Fault Nat := natural (UInt8.size - 1) "u8"

/-- A number of thirty-two bits. -/
def u32 : Datum → Except Fault Nat := natural (UInt32.size - 1) "u32"

/-- A number of sixty-four bits. -/
def u64 : Datum → Except Fault Nat := natural (UInt64.size - 1) "u64"

/-- A size in memory. -/
def usize : Datum → Except Fault Nat := natural (UInt64.size - 1) "usize"

/-- Yes or no. -/
def boolean : Datum → Except Fault Bool
  | .bool b => .ok b
  | d => .error (.wrongType d.found "a boolean")

/-- A text. -/
def text : Datum → Except Fault String
  | .string s => .ok s
  | d => .error (.wrongType d.found "a string")

/-- A text or nothing. -/
def text? : Datum → Except Fault (Option String)
  | .null => .ok none
  | d =>
    match d.text with
    | .ok s => .ok (some s)
    | .error f => .error f

end Datum

/-- A member of a record `σ`: how its value is put into the record. -/
structure Member (σ : Type) where
  name : String
  /-- Whether a table may leave it out. -/
  optional : Bool := false
  set : Dialect → Datum → σ → Except Fault σ

/-- A kind of record. -/
structure Record (σ : Type) where
  name : String
  members : List (Member σ)
  /-- The record before any member has been read. -/
  start : σ

namespace Record

/-- What is expected where a record should stand. -/
def expected (r : Record σ) : String := "struct " ++ r.name

/-- What is expected of a list that stands for a record. -/
def expectedLength (r : Record σ) : String :=
  r.expected ++ " with " ++ toString r.members.length ++ " element"
    ++ (if r.members.length = 1 then "" else "s")

/-- Reads the entries of a table; `seen` holds the names of the members read. Entries under other
names are left alone. -/
def ofEntries (r : Record σ) (dialect : Dialect) :
    (seen : List String) → σ → List (String × Datum) → Except Fault σ
  | seen, s, [] =>
    match r.members.find? fun m => !m.optional && !seen.contains m.name with
    | some m => .error (.missingField m.name)
    | none => .ok s
  | seen, s, (name, d) :: rest =>
    match r.members.find? fun m => m.name = name with
    | none => ofEntries r dialect seen s rest
    | some m =>
      if seen.contains name then .error (.duplicateField name)
      else
        match m.set dialect d s with
        | .error f => .error f
        | .ok s => ofEntries r dialect (name :: seen) s rest

/-- Reads the elements of a list into the members from one on; returns what is left of the list. -/
def ofElements (r : Record σ) (dialect : Dialect) :
    (index : Nat) → σ → List (Member σ) → List Datum → Except Fault (σ × List Datum)
  | _, s, [], rest => .ok (s, rest)
  | index, _, _ :: _, [] => .error (.wrongLength index r.expectedLength)
  | index, s, m :: ms, d :: rest =>
    match m.set dialect d s with
    | .error f => .error f
    | .ok s => ofElements r dialect (index + 1) s ms rest

/-- Reads a record. -/
def ofDatum (r : Record σ) (dialect : Dialect) : Datum → Except Fault σ
  | .table entries => r.ofEntries dialect [] r.start entries
  | .moment => r.ofEntries dialect [] r.start []
  | .sequence elements =>
    match r.ofElements dialect 0 r.start r.members elements with
    | .error f => .error f
    | .ok (s, rest) =>
      if rest.isEmpty || dialect.surplus then .ok s
      else .error (.wrongLength elements.length "fewer elements in array")
  | d => .error (.wrongType d.found r.expected)

end Record
end RadioLink.Schema
