import RadioLink.Json.Skipped

/-!
# Values of a wanted shape

Readers for numbers in a range, text, values that may be `null`, and records. A record is written as
an object, or as a list of its members in order. A value of another type is read as far as its
wording asks for it, so a fault inside it comes before the fault of its type.
-/

namespace RadioLink.Json.Reader

open Schema Text.Reader

/-- Refuses a value for its type, its first character `c` having been taken. -/
def wrongType (expected : String) (c : Char) : Reader α := do
  if c = 'n' then do word ['u', 'l', 'l']; refuse .null
  else if c = 't' then do word ['r', 'u', 'e']; refuse (.bool true)
  else if c = 'f' then do word ['a', 'l', 's', 'e']; refuse (.bool false)
  else if c = '"' then refuse (.string (← string))
  else if c = '[' then refuse .sequence
  else if c = '\x7b' then refuse .map
  else if startsNumber c then
    match ← number c with
    | .integer n => refuse (.integer n)
    | .float x => refuse (.float x)
  else fail .expectedValue
where
  /-- The fault for what was found. -/
  refuse (found : Found) : Reader α := fail (.schema (.wrongType found expected))

/-- A whole number from `low` to `high`. -/
def integer (low high : Int) (expected : String) : Reader Int := do
  let c ← take (.ended .value)
  if startsNumber c then
    match ← number c with
    | .integer n =>
      if low ≤ n ∧ n ≤ high then Pure.pure n
      else fail (.schema (.wrongValue (.integer n) expected))
    | .float x => fail (.schema (.wrongType (.float x) expected))
  else wrongType expected c

/-- A number of the type `Int64`. -/
def int64 : Reader Int64 := do
  return Int64.ofInt (← integer Int64.minValue.toInt Int64.maxValue.toInt "i64")

/-- A number of the type `UInt64`. -/
def uint64 : Reader UInt64 := do
  return UInt64.ofNat (← integer 0 (UInt64.size - 1) "u64").toNat

/-- A number of the type `UInt8`. -/
def uint8 : Reader UInt8 := do
  return UInt8.ofNat (← integer 0 255 "u8").toNat

/-- A text. -/
def text : Reader String := do
  let c ← take (.ended .value)
  if c = '"' then string else wrongType "a string" c

/-- A text that `check` accepts. -/
def checkedText (check : String → Except String α) : Reader α := do
  match check (← text) with
  | .ok a => Pure.pure a
  | .error reason => fail (.schema (.refused reason))

/-- What `r` reads, or `null`. -/
def orNull (r : Reader α) : Reader (Option α) := do
  match ← token with
  | some 'n' => do
    advance
    word ['u', 'l', 'l']
    Pure.pure none
  | _ => return some (← r)

/-! ### Objects -/

/-- The name of the next member of an object, or nothing at the closing brace; `first` before any
member. -/
def memberName? (first : Bool) : Reader (Option String) := do
  let c ← take (.ended .object)
  if c = '\x7d' then Pure.pure none
  else if first then
    if c = '"' then return some (← string) else fail .keyNotString
  else if c = ',' then do
    let c ← take (.ended .value)
    if c = '"' then return some (← string)
    else if c = '\x7d' then fail .trailingComma
    else fail .keyNotString
  else fail .expectedObjectEnd

/-- The members of an object from the next one on, each taken in by `member`. -/
def membersFrom (member : σ → String → Reader σ) (first : Bool) (s : σ) (cs : List Char) :
    Except Fault (σ × List Char) :=
  match _h : (memberName? first).run cs with
  | .error fault => .error fault
  | .ok (none, rest) => .ok (s, rest)
  | .ok (some name, rest) =>
    match _h' : (member s name).run rest with
    | .error fault => .error fault
    | .ok (s, rest) => membersFrom member false s rest
  termination_by cs.length
  decreasing_by
    exact Nat.lt_of_le_of_lt ((member _ _).shrinks ‹_›) ((consumes_take _).bind _ ‹_›)

theorem membersFrom_shrinks {member : σ → String → Reader σ} {first : Bool} {s s' : σ}
    {cs rest : List Char} (h : membersFrom member first s cs = .ok (s', rest)) :
    rest.length ≤ cs.length := by
  fun_induction membersFrom member first s cs with
  | case1 => cases h
  | case2 _ _ _ _ hn =>
    injection h with h; injection h with _ h; subst h
    exact (memberName? _).shrinks hn
  | case3 => cases h
  | case4 _ _ _ _ _ hn _ _ hm ih =>
    exact Nat.le_trans (ih h)
      (Nat.le_trans ((member _ _).shrinks hm) ((memberName? _).shrinks hn))

/-- The members of an object, after its opening brace. -/
def members (member : σ → String → Reader σ) (s : σ) : Reader σ :=
  ⟨membersFrom member true s, membersFrom_shrinks⟩

/-- A member of a record: `seen` says whether it has been read before, which is refused. -/
def field (name : String) (seen : Option β) (r : Reader α) : Reader α := do
  if seen.isSome then fail (.schema (.duplicateField name))
  else do
    colon
    r

/-- A member that nobody asked for. -/
def skippedField : Reader Unit := do
  colon
  skippedValue

/-- What has been read of the member `name`, which has to be there. -/
def required (name : String) : Option α → Reader α
  | some a => Pure.pure a
  | none => fail (.schema (.missingField name))

/-- An object whose members are all texts, taken in by `insert`. -/
def textObject (insert : σ → String → String → σ) (empty : σ) : Reader σ := do
  let c ← take (.ended .value)
  if c = '\x7b' then
    members (fun s name => do
      colon
      return insert s name (← text)) empty
  else wrongType "a map" c

/-! ### Lists -/

/-- Whether another element follows in a list; the closing bracket is left in place. -/
def more (first : Bool) : Reader Bool := do
  match ← token with
  | none => fail (.ended .list)
  | some c =>
    if c = ']' then Pure.pure false
    else if first then Pure.pure true
    else if c = ',' then do
      advance
      match ← token with
      | none => fail (.ended .value)
      | some d => if d = ']' then fail .trailingComma else Pure.pure true
    else fail .expectedListEnd

/-- The closing bracket of a list from which all wanted elements have been read. -/
def listEnd : Reader Unit := do
  let c ← take (.ended .list)
  if c = ']' then Pure.pure ()
  else if c = ',' then do
    match ← token with
    | some ']' => fail .trailingComma
    | _ => fail .trailingCharacters
  else fail .trailingCharacters

/-- The element at `index` of a list that stands for a record and has to have it. -/
def element (index : Nat) (record : String) (r : Reader α) : Reader α := do
  if ← more (index = 0) then r else fail (.schema (.wrongLength index record))

/-- An element of a list that stands for a record and may end before it, which gives `default`. -/
def elementOr (default : α) (r : Reader α) : Reader α := do
  if ← more false then r else Pure.pure default

/-- The elements of a list from the next one on, before those in `acc`. -/
def elementsFrom (r : Reader α) (hr : r.Consumes) (first : Bool) (acc : List α)
    (cs : List Char) : Except Fault (List α × List Char) :=
  match _h : (more first).run cs with
  | .error fault => .error fault
  | .ok (false, rest) => .ok (acc.reverse, rest)
  | .ok (true, rest) =>
    match _h' : r.run rest with
    | .error fault => .error fault
    | .ok (a, rest) => elementsFrom r hr false (a :: acc) rest
  termination_by cs.length
  decreasing_by exact Nat.lt_of_lt_of_le (hr ‹_›) ((more _).shrinks ‹_›)

theorem elementsFrom_shrinks {r : Reader α} {hr : r.Consumes} {first : Bool} {acc as : List α}
    {cs rest : List Char} (h : elementsFrom r hr first acc cs = .ok (as, rest)) :
    rest.length ≤ cs.length := by
  fun_induction elementsFrom r hr first acc cs with
  | case1 => cases h
  | case2 _ _ _ _ hm =>
    injection h with h; injection h with _ h; subst h
    exact (more _).shrinks hm
  | case3 => cases h
  | case4 _ _ _ _ hm _ _ he ih =>
    exact Nat.le_trans (ih h) (Nat.le_trans (r.shrinks he) ((more _).shrinks hm))

/-- A list of any length, its elements read by `r`. -/
def list (r : Reader α) (hr : r.Consumes) : Reader (List α) := do
  let c ← take (.ended .value)
  if c = '[' then do
    let as ← (⟨elementsFrom r hr true [], elementsFrom_shrinks⟩ : Reader (List α))
    listEnd
    Pure.pure as
  else wrongType "a sequence" c

/-- A record, written as an object or as a list of its members. -/
def record (expected : String) (object elements : Reader α) : Reader α := do
  let c ← take (.ended .value)
  if c = '\x7b' then object
  else if c = '[' then do
    let a ← elements
    listEnd
    Pure.pure a
  else wrongType expected c

end RadioLink.Json.Reader
