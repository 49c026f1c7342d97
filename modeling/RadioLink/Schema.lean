import RadioLink.Decimal.Shortest
import RadioLink.Text.Quoted

/-!
# Values that do not fit

A document can be well formed and still not describe the value that is wanted: a member is missing
or given twice, or something of another type stands where a number should. `Schema.Fault` holds the
reasons, common to every notation such a document may be written in, and `Fault.message` their
wording.
-/

namespace RadioLink.Schema

open Decimal Text

/-- What stood where something else was expected. -/
inductive Found where
  | null
  | bool (value : Bool)
  | integer (value : Int)
  | float (value : Binary64)
  | string (value : String)
  | sequence
  | map
  deriving DecidableEq, Repr

/-- What was found, as a reader is told about it; `style` lays out floating-point values. -/
def Found.text (style : Style) : Found → String
  | .null => "null"
  | .bool b => "boolean `" ++ (if b then "true" else "false") ++ "`"
  | .integer n => "integer `" ++ toString n ++ "`"
  | .float x => "floating point `" ++ x.text style ++ "`"
  | .string s => "string " ++ quote s
  | .sequence => "sequence"
  | .map => "map"

/-- Why a well-formed document does not describe the value that is wanted. -/
inductive Fault where
  /-- A member that has to be there is not. -/
  | missingField (name : String)
  /-- A member stands twice. -/
  | duplicateField (name : String)
  /-- Something of another type stands where `expected` should. -/
  | wrongType (found : Found) (expected : String)
  /-- The type is right, but the value is not one of `expected`. -/
  | wrongValue (found : Found) (expected : String)
  /-- A sequence has another number of elements. -/
  | wrongLength (length : Nat) (expected : String)
  /-- A rule of the value's own refuses it, in its own words. -/
  | refused (reason : String)
  deriving DecidableEq, Repr

/-- The wording of the fault. -/
def Fault.message (style : Style) : Fault → String
  | .missingField name => "missing field `" ++ name ++ "`"
  | .duplicateField name => "duplicate field `" ++ name ++ "`"
  | .wrongType found expected => "invalid type: " ++ found.text style ++ ", expected " ++ expected
  | .wrongValue found expected =>
    "invalid value: " ++ found.text style ++ ", expected " ++ expected
  | .wrongLength n expected => "invalid length " ++ toString n ++ ", expected " ++ expected
  | .refused reason => reason

end RadioLink.Schema
