import RadioLink.Json.Reader
import RadioLink.Text.Quotation
import RadioLink.Hex

/-!
# String literals

Reading starts after the opening quotation mark. A literal whose text is wanted (`string`) has to
pair its surrogate escapes; one that is only passed over (`skippedString`) is checked for the form
of its escapes alone.
-/

namespace RadioLink.Json

/-- The number that the four hexadecimal digits in front stand for, and what follows them. -/
def fourDigits? : List Char → Option (Nat × List Char)
  | a :: b :: c :: d :: rest =>
    match Hex.value? a.toNat, Hex.value? b.toNat, Hex.value? c.toNat, Hex.value? d.toNat with
    | some a, some b, some c, some d => some (((a * 16 + b) * 16 + c) * 16 + d, rest)
    | _, _, _, _ => none
  | _ => none

/-- The number of bytes that `cs` takes in UTF-8. -/
def utf8Length (cs : List Char) : Nat := cs.foldl (fun n c => n + c.utf8Size) 0

namespace Reader

open Text.Reader

/-- Four hexadecimal digits; with less than four bytes left it is the literal that ends. -/
def hexWord : Reader Nat where
  run cs :=
    match fourDigits? cs with
    | some (n, rest) => .ok (n, rest)
    | none => .error (if utf8Length (cs.take 4) < 4 then .ended .string else .invalidEscape)
  shrinks {cs n rest} h := by
    split at h
    · next m mid hm =>
      injection h with h; injection h with _ h; subst h
      unfold fourDigits? at hm
      split at hm
      · split at hm
        · injection hm with hm; injection hm with _ hm; subst hm
          simp only [List.length_cons]; omega
        · cases hm
      · cases hm
    · cases h

/-- The next character inside a literal. -/
def inString : Reader Char := do
  match ← peek with
  | none => fail (.ended .string)
  | some c => do advance; Pure.pure c

/-- The character that a backslash and this letter stand for. -/
def shortEscape? : Char → Option Char
  | '"' => some '"'
  | '\\' => some '\\'
  | '/' => some '/'
  | 'b' => some '\x08'
  | 'f' => some '\x0c'
  | 'n' => some '\n'
  | 'r' => some '\r'
  | 't' => some '\t'
  | _ => none

/-- Whether `n` is the first half of a surrogate pair. -/
def isLead (n : Nat) : Bool := 0xD800 ≤ n && n ≤ 0xDBFF

/-- Whether `n` is the second half of a surrogate pair. -/
def isTrail (n : Nat) : Bool := 0xDC00 ≤ n && n ≤ 0xDFFF

/-- The character that the pair of `lead` and `trail` stands for. -/
def ofPair (lead trail : Nat) : Char :=
  Char.ofNat ((lead - 0xD800) * 0x400 + (trail - 0xDC00) + 0x10000)

/-- Takes `c`, which has to follow the first half of a pair. -/
def inPair (c : Char) : Reader Unit := do
  match ← peek with
  | none => fail (.ended .string)
  | some d => if d = c then advance else fail .unfinishedPair

/-- The character that an escape by number stands for. -/
def numberEscape : Reader Char := do
  let n ← hexWord
  if isTrail n then fail .loneSurrogate
  else if isLead n then do
    inPair '\\'
    inPair 'u'
    let m ← hexWord
    if isTrail m then Pure.pure (ofPair n m) else fail .loneSurrogate
  else Pure.pure (Char.ofNat n)

/-- The character that an escape stands for, after the backslash. -/
def escape : Reader Char := do
  let c ← inString
  match shortEscape? c with
  | some d => Pure.pure d
  | none => if c = 'u' then numberEscape else fail .invalidEscape

/-- An escape whose character is not wanted. -/
def skippedEscape : Reader Unit := do
  let c ← inString
  match shortEscape? c with
  | some _ => Pure.pure ()
  | none =>
    if c = 'u' then do
      let _ ← hexWord
    else fail .invalidEscape

/-- Whether `c` stands for itself in a literal. -/
def isPlain (c : Char) : Bool := 0x20 ≤ c.toNat

/-- The text of a literal, after its opening quotation mark. -/
def string : Reader String := do
  let acc ← quotation isPlain (.ended .string) .controlCharacter (fun acc c => c :: acc)
    (fun acc => do return (← escape) :: acc) []
  return String.ofList acc.reverse

/-- A literal whose text is not wanted, after its opening quotation mark. -/
def skippedString : Reader Unit :=
  quotation isPlain (.ended .string) .controlCharacter (fun _ _ => ()) (fun _ => skippedEscape) ()

end Reader
end RadioLink.Json
