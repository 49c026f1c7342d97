
/-!
# Readers

A `Reader` takes a value off the front of a text. That it never gives back more text than it was
given is part of its type (`shrinks`), so a loop that reads at least one character per round ends,
whatever readers it runs in between.

    run_bind : (r >>= f).run cs = match r.run cs with | .ok (a, rest) => (f a).run rest | ...
-/

namespace RadioLink.Text

/-- Takes a value off the front of a text and returns what is left of the text. -/
structure Reader (ε α : Type) where
  run : List Char → Except ε (α × List Char)
  shrinks : ∀ {cs a rest}, run cs = .ok (a, rest) → rest.length ≤ cs.length

namespace Reader

/-- The reader that takes nothing. -/
def pure (a : α) : Reader ε α where
  run cs := .ok (a, cs)
  shrinks h := by injection h with h; injection h with _ h; exact h ▸ Nat.le_refl _

/-- Reads with `r`, and then with `f` of its value. -/
def bind (r : Reader ε α) (f : α → Reader ε β) : Reader ε β where
  run cs :=
    match r.run cs with
    | .error fault => .error fault
    | .ok (a, rest) => (f a).run rest
  shrinks {cs b rest} h := by
    split at h
    · cases h
    · next a mid hr => exact Nat.le_trans ((f a).shrinks h) (r.shrinks hr)

instance : Monad (Reader ε) where
  pure := Reader.pure
  bind := Reader.bind

@[simp] theorem run_pure (a : α) (cs : List Char) :
    (Pure.pure a : Reader ε α).run cs = .ok (a, cs) := rfl

theorem run_bind (r : Reader ε α) (f : α → Reader ε β) (cs : List Char) :
    (r >>= f).run cs =
      match r.run cs with
      | .error fault => .error fault
      | .ok (a, rest) => (f a).run rest := rfl

/-- The reader that refuses every text with `fault`. -/
def fail (fault : ε) : Reader ε α where
  run _ := .error fault
  shrinks h := by cases h

@[simp] theorem run_fail (fault : ε) (cs : List Char) :
    (fail fault : Reader ε α).run cs = .error fault := rfl

/-- The next character, left in place. -/
def peek : Reader ε (Option Char) where
  run cs := .ok (cs.head?, cs)
  shrinks h := by injection h with h; injection h with _ h; exact h ▸ Nat.le_refl _

/-- Drops the next character. -/
def advance : Reader ε Unit where
  run cs := .ok ((), cs.tail)
  shrinks {cs _ rest} h := by
    injection h with h; injection h with _ h; subst h
    simp

theorem length_dropWhile_le (p : α → Bool) : ∀ l : List α, (l.dropWhile p).length ≤ l.length
  | [] => Nat.le_refl _
  | a :: l => by
    rw [List.dropWhile_cons]
    split
    · exact Nat.le_succ_of_le (length_dropWhile_le p l)
    · exact Nat.le_refl _

/-- The characters up to the first one without the property `p`. -/
def takeWhile (p : Char → Bool) : Reader ε (List Char) where
  run cs := .ok (cs.takeWhile p, cs.dropWhile p)
  shrinks {cs _ rest} h := by
    injection h with h; injection h with _ h; subst h
    exact length_dropWhile_le p cs

/-- Whether `r` takes at least one character whenever it succeeds. -/
def Consumes (r : Reader ε α) : Prop :=
  ∀ ⦃cs a rest⦄, r.run cs = .ok (a, rest) → rest.length < cs.length

theorem Consumes.bind {r : Reader ε α} (hr : r.Consumes) (f : α → Reader ε β) :
    (r >>= f).Consumes := by
  intro cs b rest h
  rw [run_bind] at h
  split at h
  · cases h
  · next a mid hm => exact Nat.lt_of_le_of_lt ((f a).shrinks h) (hr hm)

end Reader
end RadioLink.Text
