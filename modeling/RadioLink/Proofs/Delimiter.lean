import RadioLink.Frame.Delimiter
import RadioLink.Proofs.Utf8

/-!
# Where the delimiter stands

Looking for the delimiter finds its first occurrence, and nothing exactly where there is none. No
end of the delimiter but the whole of it starts the delimiter again: its first byte stands nowhere
else in it. So bytes without a delimiter, followed by one, hold none that starts earlier, and a text
in which the delimiters are spelled otherwise holds none at all:

    find?_eq_none_iff  : find? bs = none ↔ ¬ bytes <:+: bs
    find?_append_bytes : ¬ bytes <:+: x → find? (x ++ (bytes ++ y)) = some x.length
    not_isInfix_escape : ¬ bytes <:+: escape bs
-/

namespace RadioLink.Delimiter

/-! ### The bytes of the delimiter -/

/-- `Delimiter.bytes` after its first byte. -/
def tail : Bytes := Bytes.ofText "luetooth Nonce"

theorem bytes_eq : bytes = 0x42 :: tail := by decide +kernel

/-- The first byte of the delimiter, `0x42`, does not occur in `tail`. -/
theorem head_notMem_tail : (0x42 : UInt8) ∉ tail := by decide +kernel

theorem atStart_iff {bs : Bytes} : atStart bs ↔ bytes <+: bs := by
  rw [atStart, decide_eq_true_iff, List.prefix_iff_eq_take, length_bytes, eq_comm]

theorem head_of_isPrefix {b : UInt8} {rest : Bytes} (h : bytes <+: b :: rest) : b = 0x42 := by
  rw [bytes_eq, List.cons_prefix_cons] at h
  exact h.1.symm

/-! ### Looking for the delimiter -/

theorem findFrom_eq (index : Nat) (bs : Bytes) :
    findFrom index bs = (find? bs).map (· + index) := by
  unfold find?
  induction bs generalizing index with
  | nil => rfl
  | cons b rest ih =>
    rw [findFrom, findFrom]
    split
    · simp
    · rw [ih (index + 1), ih (0 + 1), Option.map_map]
      congr 1
      funext i
      simp only [Function.comp_apply]
      omega

theorem find?_cons_of_isPrefix {b : UInt8} {rest : Bytes} (h : bytes <+: b :: rest) :
    find? (b :: rest) = some 0 := by
  have hb := head_of_isPrefix h
  subst hb
  rw [find?, findFrom, if_pos]
  simpa using atStart_iff.2 h

theorem find?_cons {b : UInt8} {rest : Bytes} (h : ¬ bytes <+: b :: rest) :
    find? (b :: rest) = (find? rest).map (· + 1) := by
  rw [find?, findFrom, if_neg, findFrom_eq]
  intro hs
  exact h (atStart_iff.1 (Bool.and_eq_true .. ▸ hs).2)

/-- `find?` finds nothing exactly where `bytes` is no infix. -/
theorem find?_eq_none_iff {bs : Bytes} : find? bs = none ↔ ¬ bytes <:+: bs := by
  induction bs with
  | nil => simp [bytes_eq, find?, findFrom]
  | cons b rest ih =>
    rw [List.infix_cons_iff, not_or, ← ih]
    by_cases h : bytes <+: b :: rest
    · simp [find?_cons_of_isPrefix h, h]
    · simp [find?_cons h, h]

/-- What `find?` finds is an occurrence of `bytes` with none that starts before it. -/
theorem exists_split_of_find? {bs : Bytes} {i : Nat} (h : find? bs = some i) :
    ∃ x y, bs = x ++ (bytes ++ y) ∧ ¬ bytes <:+: x ∧ x.length = i := by
  induction bs generalizing i with
  | nil => cases h
  | cons b rest ih =>
    by_cases hp : bytes <+: b :: rest
    · rw [find?_cons_of_isPrefix hp] at h
      cases h
      obtain ⟨y, hy⟩ := hp
      exact ⟨[], y, hy.symm, by simp [bytes_eq], rfl⟩
    · rw [find?_cons hp] at h
      obtain ⟨j, hj, rfl⟩ := Option.map_eq_some_iff.1 h
      obtain ⟨x, y, rfl, hx, rfl⟩ := ih hj
      refine ⟨b :: x, y, rfl, ?_, rfl⟩
      rw [List.infix_cons_iff, not_or]
      exact ⟨fun h => hp (h.trans (List.prefix_append _ _)), hx⟩

/-- Induction on bytes taken apart at their delimiters from left to right: either there is none, or
a `split` at the first one. -/
@[elab_as_elim]
theorem split_induction {motive : Bytes → Prop} (bs : Bytes)
    (free : ∀ x, ¬ bytes <:+: x → motive x)
    (split : ∀ x y, ¬ bytes <:+: x → motive y → motive (x ++ (bytes ++ y))) : motive bs := by
  by_cases h : bytes <:+: bs
  · obtain ⟨i, hi⟩ := Option.ne_none_iff_exists'.1 (mt find?_eq_none_iff.1 (not_not_intro h))
    obtain ⟨x, y, heq, hx, -⟩ := exists_split_of_find? hi
    have hlt : y.length < bs.length := by
      have hpos : bytes.length = 15 := length_bytes
      rw [heq, List.length_append, List.length_append]
      omega
    exact heq ▸ split x y hx (split_induction y free split)
  · exact free bs h
termination_by bs.length

/-! ### No delimiter starts inside another -/

/-- When `bytes` starts in front of the first byte `0x42` of another occurrence, it lies wholly in
front of it, since `tail` has no such byte. -/
theorem isPrefix_of_isPrefix_append {x y : Bytes} (hx : x ≠ [])
    (h : bytes <+: x ++ 0x42 :: y) : bytes <+: x := by
  rcases Nat.lt_or_ge x.length bytes.length with hlt | hge
  · cases x with
    | nil => exact absurd rfl hx
    | cons b x =>
      -- the first byte of the other one would be a later byte of the delimiter
      rw [bytes_eq, List.cons_append, List.cons_prefix_cons] at h
      obtain ⟨t, ht⟩ := h.2
      have hlt' : x.length < tail.length := by
        rw [bytes_eq] at hlt; simpa using hlt
      have hget : (tail ++ t)[x.length]? = some 0x42 := by rw [ht]; simp
      rw [List.getElem?_append_left hlt'] at hget
      exact absurd (List.mem_of_getElem? hget) head_notMem_tail
  · exact List.prefix_of_prefix_length_le h (List.prefix_append _ _) hge

theorem not_isInfix_append {x y : Bytes} (hx : ¬ bytes <:+: x) (hy : ¬ bytes <:+: 0x42 :: y) :
    ¬ bytes <:+: x ++ 0x42 :: y := by
  induction x with
  | nil => exact hy
  | cons b x ih =>
    rw [List.infix_cons_iff, not_or] at hx
    rw [List.cons_append, List.infix_cons_iff, not_or, ← List.cons_append]
    exact ⟨fun h => hx.1 (isPrefix_of_isPrefix_append (List.cons_ne_nil b x) h), ih hx.2⟩

/-- Behind `x`, free of delimiters, `find?` finds `bytes` where it was put. -/
theorem find?_append_bytes {x : Bytes} (hx : ¬ bytes <:+: x) (y : Bytes) :
    find? (x ++ (bytes ++ y)) = some x.length := by
  induction x with
  | nil =>
    rw [List.nil_append, bytes_eq, List.cons_append, find?_cons_of_isPrefix]
    · rfl
    · rw [← List.cons_append, ← bytes_eq]
      exact List.prefix_append _ _
  | cons b x ih =>
    rw [List.infix_cons_iff, not_or] at hx
    rw [List.cons_append, find?_cons, ih hx.2]
    · rfl
    · rw [← List.cons_append, bytes_eq, List.cons_append]
      exact fun h => hx.1 (isPrefix_of_isPrefix_append (List.cons_ne_nil b x) h)

/-- A proper prefix `bytes.take j` of the delimiter behind `x` makes no delimiter. -/
theorem not_isInfix_append_take {x : Bytes} (hx : ¬ bytes <:+: x) {j : Nat} (hj : j < size) :
    ¬ bytes <:+: x ++ bytes.take j := by
  cases j with
  | zero => simpa using hx
  | succ j =>
    rw [bytes_eq, List.take_succ_cons, ← bytes_eq]
    refine not_isInfix_append hx fun h => ?_
    have hle := h.length_le
    rw [length_bytes, List.length_cons, List.length_take] at hle
    omega

/-! ### Spelling the delimiter otherwise -/

theorem not_isInfix_append_of_notMem {x y : Bytes} (hx : 0x42 ∉ x) (hy : ¬ bytes <:+: y) :
    ¬ bytes <:+: x ++ y := by
  induction x with
  | nil => exact hy
  | cons b x ih =>
    rw [List.mem_cons, not_or] at hx
    rw [List.cons_append, List.infix_cons_iff, not_or]
    exact ⟨fun h => hx.1 (head_of_isPrefix h).symm, ih hx.2⟩

/-- `spelled` differs from `bytes` at the blank. -/
theorem not_isPrefix_spelled_append (y : Bytes) : ¬ bytes <+: spelled ++ y := by
  intro h
  have hb : bytes[9]? = some 0x20 := by decide +kernel
  have hs : spelled[9]? = some 0x5C := by decide +kernel
  obtain ⟨t, ht⟩ := h
  have hget : (bytes ++ t)[9]? = (spelled ++ y)[9]? := by rw [ht]
  rw [List.getElem?_append_left (by decide +kernel),
    List.getElem?_append_left (by decide +kernel), hb, hs] at hget
  cases hget

theorem escape_of_not_isInfix {bs : Bytes} (h : ¬ bytes <:+: bs) : escape bs = bs := by
  rw [escape]
  split
  · rfl
  · next i hi => rw [find?_eq_none_iff.2 h] at hi; cases hi

theorem escape_append_bytes {x : Bytes} (hx : ¬ bytes <:+: x) (y : Bytes) :
    escape (x ++ (bytes ++ y)) = x ++ (spelled ++ escape y) := by
  have hfind := find?_append_bytes hx y
  rw [escape]
  split
  · next hi => rw [hfind] at hi; cases hi
  · next i hi =>
    rw [hfind] at hi
    cases hi
    have hlen : x.length + size = (x ++ bytes).length := by simp [length_bytes]
    rw [List.take_left, hlen, ← List.append_assoc x bytes, List.drop_left]

/-- `escape` leaves no delimiter, wherever there were some and whatever stood around them. -/
theorem not_isInfix_escape (bs : Bytes) : ¬ bytes <:+: escape bs := by
  induction bs using split_induction with
  | free x hx => rwa [escape_of_not_isInfix hx]
  | split x y hx ih =>
    have hs : spelled = 0x42 :: Bytes.ofText "luetooth\\u0020Nonce" := by decide +kernel
    have hn : (0x42 : UInt8) ∉ Bytes.ofText "luetooth\\u0020Nonce" := by decide +kernel
    have hp := not_isPrefix_spelled_append (escape y)
    rw [escape_append_bytes hx]
    rw [hs, List.cons_append] at hp ⊢
    refine not_isInfix_append hx ?_
    rw [List.infix_cons_iff, not_or]
    exact ⟨hp, not_isInfix_append_of_notMem hn ih⟩

end RadioLink.Delimiter
