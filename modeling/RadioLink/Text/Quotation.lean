import RadioLink.Text.Reader

/-!
# Quotations

Text up to a closing quotation mark, in which a backslash starts an escape.
-/

namespace RadioLink.Text.Reader

/-- Takes text up to a closing quotation mark: `keep` is given each plain character and `escape`
reads what follows a backslash. Text that ends before the mark breaks `ended`, and a character that
is not plain breaks `bad`. -/
def quotationFrom (plain : Char → Bool) (ended bad : ε) (keep : σ → Char → σ)
    (escape : σ → Reader ε σ) (acc : σ) : List Char → Except ε (σ × List Char)
  | [] => .error ended
  | c :: rest =>
    if c = '"' then .ok (acc, rest)
    else if c = '\\' then
      match _h : (escape acc).run rest with
      | .error fault => .error fault
      | .ok (acc, rest') => quotationFrom plain ended bad keep escape acc rest'
    else if plain c then quotationFrom plain ended bad keep escape (keep acc c) rest
    else .error bad
  termination_by cs => cs.length
  decreasing_by
    · exact Nat.lt_succ_of_le ((escape _).shrinks ‹_›)
    · exact Nat.lt_succ_self _

theorem quotationFrom_shrinks {plain : Char → Bool} {ended bad : ε} {keep : σ → Char → σ}
    {escape : σ → Reader ε σ} {acc : σ} {cs : List Char} {a : σ} {rest : List Char}
    (h : quotationFrom plain ended bad keep escape acc cs = .ok (a, rest)) :
    rest.length ≤ cs.length := by
  fun_induction quotationFrom plain ended bad keep escape acc cs with
  | case1 => cases h
  | case2 =>
    injection h with h; injection h with _ h; subst h
    exact Nat.le_succ _
  | case3 => cases h
  | case4 acc rest acc' rest' hr _ ih =>
    exact Nat.le_succ_of_le (Nat.le_trans (ih h) ((escape _).shrinks hr))
  | case5 _ _ _ _ _ _ ih => exact Nat.le_succ_of_le (ih h)
  | case6 => cases h

/-- Text up to a closing quotation mark. -/
def quotation (plain : Char → Bool) (ended bad : ε) (keep : σ → Char → σ)
    (escape : σ → Reader ε σ) (acc : σ) : Reader ε σ where
  run := quotationFrom plain ended bad keep escape acc
  shrinks := quotationFrom_shrinks

end RadioLink.Text.Reader
