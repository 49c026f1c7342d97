import RadioLink.Json.Reader

/-!
# Running readers

How a reader made of several runs: it gets on with what its first part leaves, and if it succeeds
then so has each of its parts. So what holds of the values that its parts give is known of its own.

    run_bind_eq_ok_iff : (r >>= f).run cs = .ok (b, rest) ↔
      ∃ a mid, r.run cs = .ok (a, mid) ∧ (f a).run mid = .ok (b, rest)
-/

namespace RadioLink.Text.Reader

variable {ε α β : Type}

@[simp] theorem run_peek (cs : List Char) :
    (peek : Reader ε (Option Char)).run cs = .ok (cs.head?, cs) := rfl

@[simp] theorem run_advance_cons (c : Char) (cs : List Char) :
    (advance : Reader ε Unit).run (c :: cs) = .ok ((), cs) := rfl

@[simp] theorem run_takeWhile (p : Char → Bool) (cs : List Char) :
    (takeWhile p : Reader ε (List Char)).run cs = .ok (cs.takeWhile p, cs.dropWhile p) := rfl

theorem run_bind_of_ok {r : Reader ε α} {cs mid : List Char} {a : α} (h : r.run cs = .ok (a, mid))
    (f : α → Reader ε β) : (r >>= f).run cs = (f a).run mid := by
  rw [run_bind, h]

theorem run_bind_of_error {r : Reader ε α} {cs : List Char} {e : ε} (h : r.run cs = .error e)
    (f : α → Reader ε β) : (r >>= f).run cs = .error e := by
  rw [run_bind, h]

theorem run_bind_eq_ok_iff {r : Reader ε α} {f : α → Reader ε β} {cs rest : List Char} {b : β} :
    (r >>= f).run cs = .ok (b, rest) ↔
      ∃ a mid, r.run cs = .ok (a, mid) ∧ (f a).run mid = .ok (b, rest) := by
  rw [run_bind]
  constructor
  · intro h
    split at h
    · cases h
    · next a mid hr => exact ⟨a, mid, hr, h⟩
  · rintro ⟨a, mid, hr, hf⟩
    rw [hr]
    exact hf

/-! ### What readers give -/

/-- Every value `a` that `r.run` gives satisfies `p`. -/
def Yields (r : Reader ε α) (p : α → Prop) : Prop := ∀ ⦃cs a rest⦄, r.run cs = .ok (a, rest) → p a

theorem yields_pure {p : α → Prop} {a : α} (h : p a) : Yields (Pure.pure a : Reader ε α) p := by
  intro cs b rest hrun
  cases hrun
  exact h

theorem yields_fail {p : α → Prop} (fault : ε) : Yields (fail fault : Reader ε α) p := by
  intro cs a rest hrun
  cases hrun

theorem Yields.bind {r : Reader ε α} {f : α → Reader ε β} {p : α → Prop} {q : β → Prop}
    (hr : Yields r p) (hf : ∀ a, p a → Yields (f a) q) : Yields (r >>= f) q := by
  intro cs b rest hrun
  obtain ⟨a, mid, ha, hb⟩ := run_bind_eq_ok_iff.1 hrun
  exact hf a (hr ha) hb

/-- When `f a` yields `q` for every `a`, so does `r >>= f`, whatever `r` reads. -/
theorem yields_bind_right (r : Reader ε α) {f : α → Reader ε β} {q : β → Prop}
    (hf : ∀ a, Yields (f a) q) : Yields (r >>= f) q :=
  Yields.bind (p := fun _ => True) (fun _ _ _ _ => trivial) fun a _ => hf a

end RadioLink.Text.Reader

namespace RadioLink.Json.Reader

/-! ### Tokens without blanks in front of them -/

theorem run_take_cons {fault : Fault} {c : Char} {cs : List Char} (h : isBlank c = false) :
    (take fault).run (c :: cs) = .ok (c, cs) := by
  simp [take, h]

theorem run_token_cons {c : Char} {cs : List Char} (h : isBlank c = false) :
    token.run (c :: cs) = .ok (some c, c :: cs) := by
  simp [token, blanks, Text.Reader.run_bind, h]

theorem run_colon_cons (cs : List Char) : colon.run (':' :: cs) = .ok ((), cs) := by
  rw [colon, Text.Reader.run_bind_of_ok (run_token_cons rfl)]
  rfl

end RadioLink.Json.Reader
