import RadioLink.Bytes

/-!
# Characters in UTF-8

A text goes over the air as the UTF-8 forms of its characters, one after another. Bytes that start
the form of some character never stand inside another one, so the bytes of a text can be cut in
front of each such byte, and the two parts are texts again:

    exists_split_of_ofChars_eq : ofChars cs = a ++ b :: rest → b.IsUTF8FirstByte →
      ∃ ds es, cs = ds ++ es ∧ ofChars ds = a ∧ ofChars es = b :: rest
-/

namespace RadioLink.Bytes

/-- The UTF-8 form of `cs`, one character after another. -/
def ofChars (cs : List Char) : Bytes := cs.flatMap String.utf8EncodeChar

@[simp] theorem ofChars_nil : ofChars [] = [] := rfl

@[simp] theorem ofChars_cons (c : Char) (cs : List Char) :
    ofChars (c :: cs) = String.utf8EncodeChar c ++ ofChars cs := rfl

@[simp] theorem ofChars_append (cs ds : List Char) :
    ofChars (cs ++ ds) = ofChars cs ++ ofChars ds :=
  List.flatMap_append

theorem ofText_eq_ofChars (s : String) : ofText s = ofChars s.toList := by
  rw [ofText, String.toUTF8_eq_toByteArray, ← String.utf8Encode_toList, List.utf8Encode,
    List.toList_data_toByteArray, ofChars]

/-- Bytes that `text?` reads as `s` are `ofChars s.toList`. -/
theorem eq_ofChars_of_text? {bs : Bytes} {s : String} (h : text? bs = some s) :
    bs = ofChars s.toList := by
  rw [← ofText_eq_ofChars, ofText_of_text? h]

theorem text?_ofChars (cs : List Char) : text? (ofChars cs) = some (String.ofList cs) := by
  have h := text?_ofText (String.ofList cs)
  rwa [ofText_eq_ofChars, String.toList_ofList] at h

theorem ofChars_ne_nil {cs : List Char} (h : cs ≠ []) : ofChars cs ≠ [] := by
  cases cs with
  | nil => exact absurd rfl h
  | cons c cs => simp

/-! ### Cutting the bytes of a text -/

/-- When `ofChars ds` starts `ofChars cs`, then `ds` starts `cs`. -/
theorem isPrefix_of_ofChars_append {ds cs : List Char} {x : Bytes}
    (h : ofChars ds ++ x = ofChars cs) : ds <+: cs := by
  apply List.isPrefix_of_utf8Encode_append_eq_utf8Encode x.toByteArray
  rw [List.utf8Encode, List.utf8Encode, ← List.toByteArray_append]
  exact congrArg _ h

/-- What follows `ofChars ds` in `ofChars cs` is `ofChars es`, with `cs = ds ++ es`. -/
theorem exists_of_ofChars_append {ds cs : List Char} {x : Bytes}
    (h : ofChars ds ++ x = ofChars cs) : ∃ es, cs = ds ++ es ∧ ofChars es = x := by
  obtain ⟨es, rfl⟩ := isPrefix_of_ofChars_append h
  rw [ofChars_append] at h
  exact ⟨es, rfl, (List.append_cancel_left h).symm⟩

/-- `ofChars cs` can be cut in front of each byte `b` with `b.IsUTF8FirstByte`, into two texts. -/
theorem exists_split_of_ofChars_eq {cs : List Char} {a rest : Bytes} {b : UInt8}
    (h : ofChars cs = a ++ b :: rest) (hb : b.IsUTF8FirstByte) :
    ∃ ds es, cs = ds ++ es ∧ ofChars ds = a ∧ ofChars es = b :: rest := by
  induction cs generalizing a with
  | nil => cases a <;> cases h
  | cons c cs ih =>
    rw [ofChars_cons] at h
    rcases List.append_eq_append_iff.1 h with ⟨a', rfl, h'⟩ | ⟨l, hc, h'⟩
    · obtain ⟨ds, es, rfl, rfl, hes⟩ := ih h'
      exact ⟨c :: ds, es, rfl, rfl, hes⟩
    · cases a with
      | nil => exact ⟨[], c :: cs, rfl, rfl, h⟩
      | cons a₀ a =>
        cases l with
        | nil =>
          refine ⟨[c], cs, rfl, ?_, h'.symm⟩
          rw [ofChars_cons, ofChars_nil, List.append_nil, hc, List.append_nil]
        | cons b' l =>
          -- the cut would fall inside the form of `c`, where no first byte stands
          obtain ⟨rfl, rfl⟩ := List.cons.inj h'
          have hi : (a₀ :: a).length < (String.utf8EncodeChar c).length := by simp [hc]
          have hget : (String.utf8EncodeChar c)[(a₀ :: a).length] = b := by simp [hc]
          have h0 := UInt8.isUTF8FirstByte_getElem_utf8EncodeChar.1 (hget ▸ hb : _)
          cases h0

end RadioLink.Bytes
