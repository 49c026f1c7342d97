import RadioLink.Text.Reader

/-!
# Choice and repetition

Readers that try one thing and then another, and readers of several things in a row.
-/

namespace RadioLink.Text.Reader

/-- What `r` reads, or what `s` does where `r` refuses. -/
def or (r s : Reader ε α) : Reader ε α where
  run cs :=
    match r.run cs with
    | .ok x => .ok x
    | .error _ => s.run cs
  shrinks h := by
    split at h
    · next hr =>
      injection h with h; subst h
      exact r.shrinks hr
    · exact s.shrinks h

/-- What `r` takes, or nothing where it refuses. -/
def optional (r : Reader ε α) : Reader ε (Option α) := (some <$> r).or (Pure.pure none)

/-- The items from the next one on, up to the one after which `more` says that none follows. A round
that takes nothing is the last one. -/
def itemsFrom (item : Reader ε α) (more : Reader ε Bool) (acc : List α) (cs : List Char) :
    Except ε (List α × List Char) :=
  match item.run cs with
  | .error e => .error e
  | .ok (a, mid) =>
    match more.run mid with
    | .error e => .error e
    | .ok (another, rest) =>
      if _h : another ∧ rest.length < cs.length then itemsFrom item more (a :: acc) rest
      else .ok ((a :: acc).reverse, rest)
  termination_by cs.length
  decreasing_by exact (‹another ∧ _›).2

theorem itemsFrom_shrinks {item : Reader ε α} {more : Reader ε Bool} {acc as : List α}
    {cs rest : List Char} (h : itemsFrom item more acc cs = .ok (as, rest)) :
    rest.length ≤ cs.length := by
  fun_induction itemsFrom item more acc cs with
  | case1 => cases h
  | case2 => cases h
  | case3 _ _ _ _ _ _ _ _ hlt ih => exact Nat.le_trans (ih h) (Nat.le_of_lt hlt.2)
  | case4 _ _ _ _ hi _ _ hm =>
    injection h with h; injection h with _ h; subst h
    exact Nat.le_trans (more.shrinks hm) (item.shrinks hi)

/-- One item or several, up to the one after which `more` says that none follows. -/
def items (item : Reader ε α) (more : Reader ε Bool) : Reader ε (List α) where
  run := itemsFrom item more []
  shrinks := itemsFrom_shrinks

/-- Takes `c`. -/
def char (fault : ε) (c : Char) : Reader ε Unit := do
  match ← peek with
  | some d => if d = c then advance else fail fault
  | none => fail fault

/-- Takes the given characters in a row. -/
def chars (fault : ε) : List Char → Reader ε Unit
  | [] => Pure.pure ()
  | c :: cs => do
    char fault c
    chars fault cs

end RadioLink.Text.Reader
