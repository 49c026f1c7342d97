import RadioLink.Hex
import RadioLink.Text.Blank

/-!
# Device addresses

A radio is known by six octets. `toString` writes them as six pairs of capital digits between
colons, and `ofString?` reads them from six two-byte groups between colons or hyphens, with blanks
around the whole left out. A group is a hexadecimal number, and like any number it may have a plus
sign in front: `octet?` reads `+f` as fifteen.
-/

namespace RadioLink

/-- The address of a radio. -/
structure Address where
  octets : Vector UInt8 6
  deriving DecidableEq, Repr

namespace Address

/-- The address as a number, most significant octet first: `<` compares these. -/
def toNat (a : Address) : Nat := Bytes.toNatBE a.octets.toList

instance : LT Address := ⟨fun a b => a.toNat < b.toNat⟩

instance (a b : Address) : Decidable (a < b) := inferInstanceAs (Decidable (a.toNat < b.toNat))

/-- The octets as pairs of digits, with `:` between them. -/
def pairs : List UInt8 → List Char
  | [] => []
  | [b] => Hex.encodeByteUpper b
  | b :: rest => Hex.encodeByteUpper b ++ ':' :: pairs rest

/-- The written form of `a`. -/
protected def toString (a : Address) : String := String.ofList (pairs a.octets.toList)

instance : ToString Address := ⟨Address.toString⟩

/-- Whether `c` stands between two groups. -/
def isSeparator (c : Char) : Bool := c = ':' || c = '-'

/-- The groups of `cs`: there is one more than there are characters with `isSeparator`. -/
def groups (cs : List Char) : List (List Char) :=
  cs.foldr (fun c gs =>
    if isSeparator c then [] :: gs
    else
      match gs with
      | [] => [[c]]
      | g :: gs => (c :: g) :: gs) [[]]

/-- The octet that a group stands for. -/
def octet? : List Char → Option UInt8
  | [a, b] =>
    if a = '+' then (Hex.value? b.toNat).map UInt8.ofNat
    else
      match Hex.value? a.toNat, Hex.value? b.toNat with
      | some h, some l => some (UInt8.ofNat (16 * h + l))
      | _, _ => none
  | _ => none

/-- The address with these octets, if there are six. -/
def ofList? (bs : List UInt8) : Option Address :=
  if h : bs.length = 6 then some ⟨⟨bs.toArray, by simpa using h⟩⟩ else none

/-- The address that `s` stands for, if it does. -/
def ofString? (s : String) : Option Address :=
  ((groups (Text.trim s.toList)).mapM octet?).bind ofList?

/-- Puts `a` at its place in a list in order, unless it is there already. -/
def insertSorted (a : Address) : List Address → List Address
  | [] => [a]
  | b :: bs =>
    if a < b then a :: b :: bs
    else if a = b then b :: bs
    else b :: insertSorted a bs

/-- The addresses in order, each once. -/
def sort (as : List Address) : List Address := as.foldl (fun bs a => insertSorted a bs) []

end Address

/-- A device as the link knows it. Its `deviceId` comes with an announcement, so a device known by
its address alone has none. -/
structure Peer where
  address : Address
  deviceId : Option String
  deriving DecidableEq, Repr

instance : ToString Peer where
  toString p :=
    match p.deviceId with
    | some id => id ++ "@" ++ toString p.address
    | none => toString p.address

end RadioLink
