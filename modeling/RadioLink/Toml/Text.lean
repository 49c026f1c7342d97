import RadioLink.Hex
import RadioLink.Text.Choice
import RadioLink.Text.Quotation

/-!
# Blanks, texts and keys of TOML

Comments and line ends, the four kinds of texts, and keys, which are bare words or texts with points
between them. A line ends with a line feed, possibly after a carriage return.
-/

namespace RadioLink.Toml

/-- What every text that is no document breaks. -/
inductive Fault where
  | malformed
  deriving DecidableEq, Repr

/-- A reader of TOML. -/
abbrev Reader := Text.Reader Fault

/-- How deep containers may be nested, and how many parts a key may have. -/
def depthLimit : Nat := 79

namespace Reader

open Text.Reader

/-- Refuses. -/
def malformed : Reader α := fail .malformed

/-- Takes `c`. -/
def exactly (c : Char) : Reader Unit := char .malformed c

/-! ### Blanks -/

/-- Whether `c` is a blank within a line. -/
def isBlank (c : Char) : Bool := c = ' ' || c = '\t'

/-- Whether `c` may stand in a line: no control but the tab. -/
def isLine (c : Char) : Bool := c = '\t' || (0x20 ≤ c.toNat && c.toNat ≠ 0x7F)

/-- Blanks within a line. -/
def blanks : Reader Unit := do
  let _ ← takeWhile isBlank

/-- A comment, if there is one. -/
def comment : Reader Unit := do
  match ← peek with
  | some '#' => do let _ ← takeWhile isLine
  | _ => Pure.pure ()

/-- A line end. -/
def newline : Reader Unit := do
  match ← peek with
  | some '\n' => advance
  | some '\r' => do
    advance
    exactly '\n'
  | _ => malformed

/-- The rest of a line after all that it says. -/
def lineEnd : Reader Unit := do
  blanks
  comment
  match ← peek with
  | none => Pure.pure ()
  | some _ => newline

/-- Blanks, comments and line ends up to the next token, as many as `fuel` lines. -/
def triviaFrom : (fuel : Nat) → Reader Unit
  | 0 => blanks
  | fuel + 1 => do
    blanks
    comment
    match ← peek with
    | some '\n' => do newline; triviaFrom fuel
    | some '\r' => do newline; triviaFrom fuel
    | _ => Pure.pure ()

/-- Blanks, comments and line ends up to the next token. -/
def trivia : Reader Unit where
  run cs := (triviaFrom cs.length).run cs
  shrinks {cs _ _} h := (triviaFrom cs.length).shrinks h

/-! ### Texts -/

/-- The number that `count` hexadecimal digits stand for. -/
def hexNumber (acc : Nat) : (count : Nat) → Reader Nat
  | 0 => Pure.pure acc
  | count + 1 => do
    match ← peek with
    | none => malformed
    | some c =>
      match Hex.value? c.toNat with
      | none => malformed
      | some v => do
        advance
        hexNumber (acc * 16 + v) count

/-- The character with the number `n`, which has to be one. -/
def scalar (n : Nat) : Reader Char :=
  if n.isValidChar then Pure.pure (Char.ofNat n) else malformed

/-- The character that an escape stands for, after the backslash. -/
def escape : Reader Char := do
  match ← peek with
  | none => malformed
  | some c => do
    advance
    match c with
    | 'b' => Pure.pure '\x08'
    | 't' => Pure.pure '\t'
    | 'n' => Pure.pure '\n'
    | 'f' => Pure.pure '\x0c'
    | 'r' => Pure.pure '\r'
    | '"' => Pure.pure '"'
    | '\\' => Pure.pure '\\'
    | 'u' => do scalar (← hexNumber 0 4)
    | 'U' => do scalar (← hexNumber 0 8)
    | _ => malformed

/-- A text on one line, after its opening quotation mark. -/
def basicText : Reader String := do
  let acc ← quotation isLine .malformed .malformed (fun acc c => c :: acc)
    (fun acc => do return (← escape) :: acc) []
  return String.ofList acc.reverse

/-- A text without escapes on one line, after its opening mark. -/
def literalText : Reader String := do
  let cs ← takeWhile fun c => isLine c && c ≠ '\''
  exactly '\''
  return String.ofList cs

/-- A text without the blanks and line ends at its start. -/
def dropLines : List Char → List Char
  | ' ' :: rest => dropLines rest
  | '\t' :: rest => dropLines rest
  | '\n' :: rest => dropLines rest
  | '\r' :: '\n' :: rest => dropLines rest
  | cs => cs

theorem length_dropLines_le (cs : List Char) : (dropLines cs).length ≤ cs.length := by
  fun_induction dropLines cs with
  | case1 _ ih => exact Nat.le_succ_of_le ih
  | case2 _ ih => exact Nat.le_succ_of_le ih
  | case3 _ ih => exact Nat.le_succ_of_le ih
  | case4 _ ih => exact Nat.le_succ_of_le (Nat.le_succ_of_le ih)
  | case5 => exact Nat.le_refl _

/-- The text after a line end that a backslash takes away together with the blanks after it. -/
def joinedLine? (cs : List Char) : Option (List Char) :=
  match cs.dropWhile isBlank with
  | '\n' :: rest => some (dropLines rest)
  | '\r' :: '\n' :: rest => some (dropLines rest)
  | _ => none

theorem length_joinedLine?_le {cs rest : List Char} (h : joinedLine? cs = some rest) :
    rest.length ≤ cs.length := by
  have hle := length_dropWhile_le isBlank cs
  unfold joinedLine? at h
  split at h
  · next r heq =>
    injection h with h; subst h
    rw [heq] at hle
    have := length_dropLines_le r
    simp only [List.length_cons] at hle
    omega
  · next r heq =>
    injection h with h; subst h
    rw [heq] at hle
    have := length_dropLines_le r
    simp only [List.length_cons] at hle
    omega
  · cases h

/-- A text on several lines between three marks on either side; up to two more marks may stand at
its end. Only between double marks do backslashes start escapes. -/
def linesFrom (mark : Char) (acc : List Char) : List Char → Except Fault (List Char × List Char)
  | [] => .error .malformed
  | c :: rest =>
    if c = mark then
      let marks := min (rest.takeWhile (· = mark)).length 4 + 1
      if 3 ≤ marks then .ok (List.replicate (marks - 3) mark ++ acc, rest.drop (marks - 1))
      else linesFrom mark (List.replicate marks mark ++ acc) (rest.drop (marks - 1))
    else if c = '\\' ∧ mark = '"' then
      match _hj : joinedLine? rest with
      | some rest' => linesFrom mark acc rest'
      | none =>
        match _he : escape.run rest with
        | .ok (d, rest') => linesFrom mark (d :: acc) rest'
        | .error f => .error f
    else if c = '\n' then linesFrom mark (c :: acc) rest
    else if c = '\r' then
      match rest with
      | '\n' :: rest' => linesFrom mark ('\n' :: acc) rest'
      | _ => .error .malformed
    else if isLine c then linesFrom mark (c :: acc) rest
    else .error .malformed
  termination_by cs => cs.length
  decreasing_by
    · simp only [List.length_drop, List.length_cons]; omega
    · exact Nat.lt_succ_of_le (length_joinedLine?_le ‹_›)
    · exact Nat.lt_succ_of_le (escape.shrinks ‹_›)
    · exact Nat.lt_succ_self _
    · simp only [List.length_cons]; omega
    · exact Nat.lt_succ_self _

theorem linesFrom_shrinks {mark : Char} {acc : List Char} {cs : List Char} {a rest : List Char}
    (h : linesFrom mark acc cs = .ok (a, rest)) : rest.length ≤ cs.length := by
  fun_induction linesFrom mark acc cs with
  | case1 => cases h
  | case2 =>
    injection h with h; injection h with _ h; subst h
    simp only [List.length_drop, List.length_cons]; omega
  | case3 _ _ _ _ ih =>
    have := ih h
    simp only [List.length_drop, List.length_cons] at *; omega
  | case4 _ _ _ _ _ _ hj ih =>
    exact Nat.le_succ_of_le (Nat.le_trans (ih h) (length_joinedLine?_le hj))
  | case5 _ _ _ _ _ _ _ _ he ih =>
    exact Nat.le_succ_of_le (Nat.le_trans (ih h) (escape.shrinks he))
  | case6 => cases h
  | case7 _ _ _ _ ih => exact Nat.le_succ_of_le (ih h)
  | case8 _ _ _ _ _ ih =>
    have := ih h
    simp only [List.length_cons] at *; omega
  | case9 => cases h
  | case10 _ _ _ _ _ _ _ _ ih => exact Nat.le_succ_of_le (ih h)
  | case11 => cases h

/-- A text on several lines, after its three opening marks; a line end right after them does not
belong to it. -/
def linesText (mark : Char) : Reader String := do
  let _ ← optional newline
  let acc ← (⟨linesFrom mark [], linesFrom_shrinks⟩ : Reader (List Char))
  return String.ofList acc.reverse

/-- A text of any kind, its opening mark being the next character. -/
def text (mark : Char) : Reader String := do
  match ← optional (chars .malformed [mark, mark, mark]) with
  | some () => linesText mark
  | none => do
    advance
    if mark = '"' then basicText else literalText

/-! ### Keys -/

/-- Whether `c` may stand in a bare word. -/
def isBare (c : Char) : Bool :=
  ('a' ≤ c && c ≤ 'z') || ('A' ≤ c && c ≤ 'Z') || ('0' ≤ c && c ≤ '9') || c = '-' || c = '_'

/-- One part of a key. -/
def keyPart : Reader String := do
  blanks
  let part ←
    match ← peek with
    | some '"' => do advance; basicText
    | some '\'' => do advance; literalText
    | _ => do
      match ← takeWhile isBare with
      | [] => malformed
      | cs => Pure.pure (String.ofList cs)
  blanks
  Pure.pure part

/-- Whether `c` follows, which is then taken. -/
def follows (c : Char) : Reader Bool := do
  match ← peek with
  | some d => if d = c then do advance; Pure.pure true else Pure.pure false
  | none => Pure.pure false

/-- A key: its parts with points between them. -/
def key : Reader (List String) := do
  let parts ← items keyPart (follows '.')
  if parts.length ≤ depthLimit then Pure.pure parts else malformed

end Reader
end RadioLink.Toml
