import RadioLink.Hex

/-!
# Service identifiers

A service is named by sixteen octets, which `toString` writes as groups of 8, 4, 4, 4 and 12 small
digits between hyphens. `ofString` also takes the digits alone, the grouped form in braces, and the
grouped form after `urn:uuid:`.
-/

namespace RadioLink

/-- The identifier of a service. -/
structure Uuid where
  octets : Vector UInt8 16
  deriving DecidableEq, Repr

namespace Uuid

/-- The identifier with these octets, if there are sixteen. -/
def ofList? (bs : List UInt8) : Option Uuid :=
  if h : bs.length = 16 then some ⟨⟨bs.toArray, by simpa using h⟩⟩ else none

/-- The identifier whose octets are all zero. -/
def nil : Uuid := ⟨Vector.replicate 16 0⟩

/-- The written form of `u`: grouped small digits. -/
protected def toString (u : Uuid) : String :=
  let part (start count : Nat) := Hex.encode ((u.octets.toList.drop start).take count)
  part 0 4 ++ "-" ++ part 4 2 ++ "-" ++ part 6 2 ++ "-" ++ part 8 2 ++ "-" ++ part 10 6

instance : ToString Uuid := ⟨Uuid.toString⟩

/-- Why a text is no identifier. -/
inductive Fault where
  /-- The character `c` at `index` is neither a digit nor a hyphen. -/
  | character (c : Char) (index : Nat)
  /-- The form without hyphens has another number of digits. -/
  | simpleLength (length : Nat)
  /-- There is another number of groups than five. -/
  | groupCount (count : Nat)
  /-- A group, counted from zero, has another number of digits. -/
  | groupLength (group length : Nat)
  deriving DecidableEq, Repr

/-- The numbers of digits of the five groups. -/
def groupSizes : List Nat := [8, 4, 4, 4, 12]

/-- The wording of the fault. -/
def Fault.message : Fault → String
  | .character c index =>
    "invalid character: expected an optional prefix of `urn:uuid:` followed by [0-9a-fA-F-], found `"
      ++ String.singleton c ++ "` at " ++ toString index
  | .simpleLength n =>
    "invalid length: expected length 32 for simple format, found " ++ toString n
  | .groupCount n => "invalid group count: expected 5, found " ++ toString n
  | .groupLength group n =>
    "invalid group length in group " ++ toString group ++ ": expected "
      ++ toString (groupSizes.getD group 0) ++ ", found " ++ toString n

/-- The octets that pairs of digits stand for. -/
def octets? (cs : List Char) : Option (List UInt8) :=
  match Hex.decode (String.ofList cs) with
  | .ok bs => some bs
  | .error _ => none

/-- The identifier that digits without hyphens stand for. -/
def ofDigits? (cs : List Char) : Option Uuid := (octets? cs).bind ofList?

/-- The lengths of the parts of `cs` between hyphens. -/
def partSizes (cs : List Char) : List Nat :=
  cs.foldr (fun c sizes =>
    if c = '-' then 0 :: sizes
    else
      match sizes with
      | [] => [1]
      | n :: ns => (n + 1) :: ns) [0]

/-- What is around the digits of an identifier: nothing, braces, or a name in front. -/
inductive Wrapping where
  | bare | braces | urn
  deriving DecidableEq, Repr

/-- The name that may stand in front. -/
def urnName : List Char := "urn:uuid:".toList

/-- `cs` without its `Wrapping`. -/
def unwrap (cs : List Char) : Wrapping × List Char :=
  if cs.head? = some '\x7b' ∧ cs.getLast? = some '\x7d' ∧ 2 ≤ cs.length then
    (.braces, (cs.drop 1).dropLast)
  else if cs.take urnName.length = urnName then (.urn, cs.drop urnName.length)
  else (.bare, cs)

/-- How many characters are in front of the digits. -/
def Wrapping.offset : Wrapping → Nat
  | .bare => 0
  | .braces => 1
  | .urn => urnName.length

/-- The first character that is neither a digit nor a hyphen, and its place counted in bytes from
`index` on. -/
def strange? (index : Nat) : List Char → Option (Char × Nat)
  | [] => none
  | c :: rest =>
    if c = '-' ∨ (Hex.value? c.toNat).isSome then strange? (index + 1) rest else some (c, index)

/-- The fault of the first group whose size is not as wanted; a text with the right first four is
wrong in the last one. -/
def wrongPart (index total : Nat) : List Nat → List Nat → Fault
  | n :: ns, w :: ws =>
    if ns = [] then .groupLength index total
    else if n = w then wrongPart (index + 1) total ns ws
    else .groupLength index n
  | _, _ => .groupLength index total

/-- Why `cs`, which stands for no identifier, does not. -/
def faultOf (cs : List Char) : Fault :=
  let length := cs.foldl (fun n c => n + c.utf8Size) 0
  let (wrapping, body) := unwrap cs
  let sizes := partSizes body
  match strange? 0 body with
  | some (c, index) => .character c (index + wrapping.offset + 1)
  | none =>
    if sizes.length = 1 ∧ wrapping = .bare then .simpleLength length
    else if sizes.length ≠ 5 then .groupCount sizes.length
    else wrongPart 0 (length - 24) sizes groupSizes

/-- The identifier that `s` stands for, or why it stands for none. -/
def ofString (s : String) : Except Fault Uuid :=
  let cs := s.toList
  let body := (unwrap cs).2
  let found :=
    if partSizes body = groupSizes then ofDigits? (body.filter (· ≠ '-')) else ofDigits? cs
  match found with
  | some u => .ok u
  | none => .error (faultOf cs)

end Uuid
end RadioLink
