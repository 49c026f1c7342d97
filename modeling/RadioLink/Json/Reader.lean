import RadioLink.Json.Fault
import RadioLink.Text.Reader

/-!
# Tokens

What readers of JSON have in common: blanks between tokens, words, the colon of a member, and the
end of a document.
-/

namespace RadioLink.Json

/-- A reader of JSON. -/
abbrev Reader := Text.Reader Fault

namespace Reader

open Text.Reader

/-- Whether `c` may stand between two tokens: a space, a tab or a line end. -/
def isBlank (c : Char) : Bool := c = ' ' || c = '\n' || c = '\t' || c = '\r'

/-- Drops the blanks in front of the next token. -/
def blanks : Reader Unit where
  run cs := .ok ((), cs.dropWhile isBlank)
  shrinks {cs _ rest} h := by
    injection h with h; injection h with _ h; subst h
    exact length_dropWhile_le isBlank cs

/-- The first character of the next token, left in place. -/
def token : Reader (Option Char) := do
  blanks
  peek

/-- Takes the first character of the next token; `fault` says what a text that ends here breaks. -/
def take (fault : Fault) : Reader Char where
  run cs :=
    match cs.dropWhile isBlank with
    | [] => .error fault
    | c :: rest => .ok (c, rest)
  shrinks {cs _ _} h := by
    have hle := length_dropWhile_le isBlank cs
    split at h
    · cases h
    · next heq =>
      injection h with h; injection h with _ h; subst h
      rw [heq] at hle
      exact Nat.le_of_succ_le hle

theorem consumes_take (fault : Fault) : (take fault).Consumes := by
  intro cs _ _ h
  have hle := length_dropWhile_le isBlank cs
  simp only [take] at h
  split at h
  · cases h
  · next heq =>
    injection h with h; injection h with _ h; subst h
    rw [heq] at hle
    exact hle

/-- Takes the rest of a word, whose first letter has been taken. -/
def word : List Char → Reader Unit
  | [] => Pure.pure ()
  | c :: cs => do
    match ← peek with
    | none => fail (.ended .value)
    | some d => if d = c then do advance; word cs else fail .expectedWord

/-- Takes the colon between the name of a member and its value. -/
def colon : Reader Unit := do
  match ← token with
  | none => fail (.ended .object)
  | some ':' => advance
  | some _ => fail .expectedColon

/-- Refuses anything but blanks after a whole document. -/
def atEnd : Reader Unit := do
  match ← token with
  | none => Pure.pure ()
  | some _ => fail .trailingCharacters

/-- Reads the whole of `text` with `r`. -/
def parse (r : Reader α) (text : String) : Except Fault α :=
  match (do let a ← r; atEnd; Pure.pure a : Reader α).run text.toList with
  | .ok (a, _) => .ok a
  | .error fault => .error fault

end Reader
end RadioLink.Json
