import RadioLink.Proofs.Frame.Wire
import RadioLink.Proofs.Json.Closed
import RadioLink.Proofs.Message.Read

/-!
# Damaged frames

Two things can go wrong with a frame on its way: a streamed payload, which nobody looked at, holds
the delimiter, or the connection ends too early. In the first case the message is refused, whatever
stands behind the delimiter in the payload: where the true delimiter starts, the text is outside of
all literals, and no value starts like that, or it is inside one, and then the message's own first
quotation mark closes it and what follows cannot stand there. In the second case, too, nothing is
accepted but what the payload alone already says:

    bytes <:+: s → ∃ e, decode (s ++ bytes ++ m.wire) = .error e
-/

namespace RadioLink

open Json

/-! ### The delimiter in a text -/

namespace Delimiter

theorem scan_inside {cs : List Char} (hquote : '"' ∉ cs) (hslash : '\\' ∉ cs) (d : Nat) :
    scan (some (.inside d)) cs = some (.inside d) := by
  induction cs with
  | nil => rfl
  | cons c cs ih =>
    rw [List.mem_cons, not_or] at hquote hslash
    rw [scan_cons, step_inside (Ne.symm hquote.1) (Ne.symm hslash.1), ih hquote.2 hslash.2]

/-- Wherever it stands, text that starts like the delimiter cannot be read by `scan`, or it stands
inside a literal and does not close it. -/
theorem scan_start (o : Option Place) {cs : List Char} (hquote : '"' ∉ cs) (hslash : '\\' ∉ cs) :
    scan o ('B' :: cs) = none ∨ ∃ d, scan o ('B' :: cs) = some (.inside d) := by
  cases o with
  | none => exact .inl (scan_none _)
  | some p =>
    cases p with
    | outside d => exact .inl (scan_none cs)
    | inside d => exact .inr ⟨d, scan_inside hquote hslash d⟩
    | escape d => exact .inr ⟨d, scan_inside hquote hslash d⟩

theorem chars_eq : chars = 'B' :: "luetooth Nonce".toList := by decide +kernel

/-- Part of a delimiter at the end of a text leaves a literal open, if it can be read at all. -/
theorem scan_ne_of_take {j : Nat} (hpos : 0 < j) {q : Bytes} {cs : List Char}
    (h : Bytes.ofChars cs = q ++ bytes.take j) (d : Nat) :
    scan (some (.outside 0)) cs ≠ some (.outside d) := by
  have htake : bytes.take j = 0x42 :: tail.take (j - 1) := by
    rw [bytes_eq, List.take_cons hpos]
  rw [htake] at h
  obtain ⟨ds, es, rfl, -, hes⟩ := Bytes.exists_split_of_ofChars_eq h (by decide)
  have hchars : Bytes.ofChars es ++ bytes.drop j = Bytes.ofChars chars := by
    rw [hes, ← htake, List.take_append_drop, ofChars_chars]
  obtain ⟨es', hes', -⟩ := Bytes.exists_of_ofChars_append hchars
  -- what the text ends in is a beginning of the delimiter as a text
  cases es with
  | nil => cases hes
  | cons c es =>
    rw [chars_eq, List.cons_append] at hes'
    obtain ⟨rfl, htail⟩ := List.cons.inj hes'
    have hsub (c : Char) (hc : c ∉ "luetooth Nonce".toList) : c ∉ es := fun hmem =>
      hc (htail ▸ List.mem_append_left es' hmem)
    have hstart := scan_start (scan (some (.outside 0)) ds)
      (hsub '"' (by decide +kernel)) (hsub '\\' (by decide +kernel))
    rw [scan_append]
    rcases hstart with h | ⟨d', h⟩
    · rw [h]
      rintro ⟨⟩
    · rw [h]
      rintro ⟨⟩

/-- `scan` fails on a delimiter with the first characters of a message behind it, wherever it
stands. -/
theorem scan_chars_append_message (o : Option Place) (ws : List Char) :
    scan o (chars ++ '\x7b' :: '"' :: 'i' :: ws) = none := by
  have hquote : '"' ∉ "luetooth Nonce\x7b".toList := by decide +kernel
  have hslash : '\\' ∉ "luetooth Nonce\x7b".toList := by decide +kernel
  have htext : chars ++ '\x7b' :: '"' :: 'i' :: ws
      = ('B' :: "luetooth Nonce\x7b".toList) ++ '"' :: 'i' :: ws := by
    rw [show 'B' :: "luetooth Nonce\x7b".toList = chars ++ ['\x7b'] by decide +kernel]
    simp
  rw [htext, scan_append]
  rcases scan_start o hquote hslash with h | ⟨d, h⟩
  · rw [h, scan_none]
  · -- the quotation mark closes the literal, and outside of it no `i` may stand
    rw [h]
    exact scan_none ws

end Delimiter

/-! ### A part of a message -/

namespace Message

theorem closed_of_respaced_memberText {name : String} {value u : List Char}
    (h : ∀ v, Respaced value v → Closed v) (hu : Respaced (memberText name value) u) :
    Closed u := by
  obtain ⟨ds, v, rfl, hname, hv⟩ := respaced_memberText hu
  exact closed_member hname (h v hv)

/-- Every member of a written message is `Closed`, however it is respaced and also where the message
is not read back. -/
theorem closed_jsonMember {m : Message} {t : List Char} (ht : t ∈ m.jsonMembers) {u : List Char}
    (hu : Respaced t u) : Closed u := by
  rcases List.mem_append.1 ht with ht | ht
  · rcases List.mem_append.1 ht with ht | ht
    · simp only [List.mem_cons, List.not_mem_nil, or_false] at ht
      rcases ht with rfl | rfl | rfl
      · refine closed_of_respaced_memberText (fun v hv => ?_) hu
        rw [hv.eq_of_notMem (blank_notMem_integerText _)]
        exact closed_of_reads balanced_int64 (reads_int64 m.id)
      · exact closed_of_respaced_memberText (fun v hv => (isLiteral_of_respaced hv).closed) hu
      · refine closed_of_respaced_memberText (fun v hv => ?_) hu
        exact closed_of_reads balanced_bodyReader (reads_bodyReader hv)
    · obtain ⟨n, -, rfl⟩ := Option.map_eq_some_iff.1 (Option.mem_toList.1 ht)
      refine closed_of_respaced_memberText (fun v hv => ?_) hu
      exact closed_of_reads balanced_payloadSizeReader (reads_payloadSizeReader hv)
  · obtain ⟨t, -, rfl⟩ := Option.map_eq_some_iff.1 (Option.mem_toList.1 ht)
    refine closed_of_respaced_memberText (fun v hv => ?_) hu
    exact closed_of_reads balanced_transferReader (reads_transferReader hv)

/-- **No proper beginning of a message on the wire is a message.** -/
theorem ofBytes_take_wire_ne {m : Message} {k : Nat} (hpos : 0 < k) (hk : k < m.wire.length)
    (m' : Message) : ofBytes (m.wire.take k) ≠ .ok m' := by
  intro h
  obtain ⟨cs, hcs, hscan⟩ := scan_of_ofBytes h
  obtain ⟨ds, hds, hrespaced⟩ := m.exists_wire
  obtain ⟨us, rfl, hus⟩ := respaced_object hrespaced
  have hsplit : Bytes.ofChars cs ++ m.wire.drop k = Bytes.ofChars (object us) := by
    rw [← hcs, List.take_append_drop, hds]
  obtain ⟨es, hobject, hes⟩ := Bytes.exists_of_ofChars_append hsplit
  have hcs_ne : cs ≠ [] := by
    rintro rfl
    have hlen := congrArg List.length hcs
    rw [List.length_take, Bytes.ofChars_nil, List.length_nil] at hlen
    omega
  have hes_ne : es ≠ [] := by
    rintro rfl
    have hlen := congrArg List.length hes
    rw [List.length_drop, Bytes.ofChars_nil, List.length_nil] at hlen
    omega
  have hclosed := forall_closed_of_forall₂ (fun t ht u hu => closed_jsonMember ht hu) hus
  exact scan_ne_of_append_eq hclosed hobject hcs_ne hes_ne hscan

/-- A message on the wire starts with a brace, a quotation mark and a letter. -/
theorem exists_wire_eq_cons (m : Message) :
    ∃ ws, m.wire = Bytes.ofChars ('\x7b' :: '"' :: 'i' :: ws) := by
  obtain ⟨ds, hds, h⟩ := m.exists_wire
  have hstart : ∃ cs, object m.jsonMembers = '\x7b' :: '"' :: 'i' :: cs := by
    rw [object, jsonMembers, List.append_assoc, List.cons_append, commaSeparated_cons]
    exact ⟨_, rfl⟩
  obtain ⟨cs, hcs⟩ := hstart
  -- none of the three is a blank, so they are written as they are
  rw [hcs] at h
  obtain ⟨ds, rfl, h₁⟩ := h.of_cons (by decide)
  obtain ⟨ds, rfl, h₂⟩ := h₁.of_cons (by decide)
  obtain ⟨ds, rfl, -⟩ := h₂.of_cons (by decide)
  exact ⟨ds, hds⟩

/-- Bytes that end in a delimiter with a message behind it are not read as a message. -/
theorem ofBytes_append_bytes_append_wire_ne (y : Bytes) (m m' : Message) :
    ofBytes (y ++ (Delimiter.bytes ++ m.wire)) ≠ .ok m' := by
  intro h
  obtain ⟨cs, hcs, hscan⟩ := scan_of_ofBytes h
  obtain ⟨ws, hws⟩ := m.exists_wire_eq_cons
  have hcut : Bytes.ofChars cs = y ++ 0x42 :: (Delimiter.tail ++ m.wire) := by
    rw [← hcs, Delimiter.bytes_eq, List.cons_append]
  obtain ⟨ds, es, rfl, -, hes⟩ := Bytes.exists_split_of_ofChars_eq hcut (by decide)
  have hmessage : Bytes.ofChars (Delimiter.chars ++ '\x7b' :: '"' :: 'i' :: ws) ++ []
      = Bytes.ofChars es := by
    rw [List.append_nil, hes, Bytes.ofChars_append, Delimiter.ofChars_chars, ← hws,
      Delimiter.bytes_eq, List.cons_append]
  obtain ⟨es', rfl, -⟩ := Bytes.exists_of_ofChars_append hmessage
  rw [scan_append, scan_append, Delimiter.scan_chars_append_message, scan_none] at hscan
  cases hscan

/-- A payload with part of a delimiter behind it is not read as a message. -/
theorem ofBytes_append_take_ne (q : Bytes) {j : Nat} (hpos : 0 < j) (m' : Message) :
    ofBytes (q ++ Delimiter.bytes.take j) ≠ .ok m' := by
  intro h
  obtain ⟨cs, hcs, hscan⟩ := scan_of_ofBytes h
  exact Delimiter.scan_ne_of_take hpos hcs.symm 0 hscan

end Message

/-! ### Damaged frames -/

namespace Frame

theorem exists_error_of_ne {ε α : Type} {x : Except ε α} (h : ∀ a, x ≠ .ok a) :
    ∃ e, x = .error e := by
  cases x with
  | error e => exact ⟨e, rfl⟩
  | ok a => exact absurd rfl (h a)

theorem map_ne_ok {ε α β : Type} {x : Except ε α} (h : ∀ a, x ≠ .ok a) (f : α → β) (b : β) :
    x.map f ≠ .ok b := by
  intro hmap
  obtain ⟨a, ha, -⟩ := map_eq_ok_iff.1 hmap
  exact h a ha

theorem take_ne_nil {x : Bytes} (hx : x ≠ []) {k : Nat} (hk : 0 < k) : x.take k ≠ [] := by
  intro hnil
  rcases List.take_eq_nil_iff.1 hnil with h | h
  · omega
  · exact hx h

theorem not_isInfix_take {x : Bytes} (hx : ¬ Delimiter.bytes <:+: x) (k : Nat) :
    ¬ Delimiter.bytes <:+: x.take k := fun h => hx (h.trans (List.take_prefix k x).isInfix)

/-- **A payload that holds the delimiter makes the frame unreadable**, whatever stands behind the
delimiter in it, and whatever the message `m`. -/
theorem decode_uninspected {s : Bytes} (hs : Delimiter.bytes <:+: s) (m : Message) :
    ∃ e, decode (s ++ Delimiter.bytes ++ m.wire) = .error e := by
  obtain ⟨i, hi⟩ := Option.ne_none_iff_exists'.1
    (mt Delimiter.find?_eq_none_iff.1 (not_not_intro hs))
  obtain ⟨x, y, rfl, hx, -⟩ := Delimiter.exists_split_of_find? hi
  have hrest : y ++ (Delimiter.bytes ++ m.wire) ≠ [] := by simp [m.wire_ne_nil]
  have hbytes : x ++ (Delimiter.bytes ++ y) ++ Delimiter.bytes ++ m.wire
      = x ++ (Delimiter.bytes ++ (y ++ (Delimiter.bytes ++ m.wire))) := by
    simp only [List.append_assoc]
  rw [hbytes, decode_append_bytes hx, if_neg hrest]
  exact exists_error_of_ne (map_ne_ok (Message.ofBytes_append_bytes_append_wire_ne y m) _)

/-- A streamed payload that is itself a whole frame does not become a frame. -/
theorem decode_uninspected_frame :
    ∃ e, decode (Delimiter.bytes ++ (Message.ofKind 1 .identity).wire ++ Delimiter.bytes
      ++ (Message.ofKind 2 .encrypted).wire) = .error e :=
  decode_uninspected (List.prefix_append _ _).isInfix _

/-- `decode` refuses what arrives of a frame that is cut inside or behind its delimiter. -/
theorem decode_take_of_length_lt {q : Bytes} (hq : ¬ Delimiter.bytes <:+: q) {m : Message} {k : Nat}
    (hlow : q.length < k) (hk : k < (q ++ (Delimiter.bytes ++ m.wire)).length) (f : Frame) :
    decode ((q ++ (Delimiter.bytes ++ m.wire)).take k) ≠ .ok f := by
  have hsize : Delimiter.bytes.length = Delimiter.size := Delimiter.length_bytes
  obtain ⟨j, rfl⟩ := Nat.exists_eq_add_of_lt hlow
  rw [Nat.add_assoc, List.take_length_add_append]
  rcases Nat.lt_or_ge (j + 1) Delimiter.size with hj | hj
  · -- cut inside the delimiter: what there is of it stands behind the payload
    rw [List.take_append_of_le_length (by omega)]
    have hne : q ++ Delimiter.bytes.take (j + 1) ≠ [] := by
      rw [Delimiter.bytes_eq, List.take_succ_cons]
      simp
    rw [decode_of_not_isInfix (Delimiter.not_isInfix_append_take hq hj) hne]
    exact map_ne_ok (Message.ofBytes_append_take_ne q (Nat.succ_pos j)) _ f
  · -- cut behind the delimiter: there is a beginning of the message, or nothing
    obtain ⟨i, hi⟩ := Nat.exists_eq_add_of_le hj
    rw [List.length_append, List.length_append] at hk
    rw [hi, ← hsize, List.take_length_add_append, decode_append_bytes hq]
    split
    · rintro ⟨⟩
    · next hne =>
      have hpos : 0 < i := Nat.pos_of_ne_zero (by rintro rfl; exact hne rfl)
      exact map_ne_ok (Message.ofBytes_take_wire_ne hpos (by omega)) _ f

/-- `decode` reads what arrives of a frame that is cut inside its payload as a message alone. -/
theorem decode_take_of_le_length {q : Bytes} (hq : ¬ Delimiter.bytes <:+: q) (m : Message) {k : Nat}
    (hpos : 0 < k) (hk : k ≤ q.length) :
    decode ((q ++ (Delimiter.bytes ++ m.wire)).take k)
      = (Message.ofBytes (q.take k)).map (Frame.mk none) := by
  rw [List.take_append_of_le_length hk]
  have hne : q ≠ [] := List.ne_nil_of_length_pos (Nat.lt_of_lt_of_le hpos hk)
  exact decode_of_not_isInfix (not_isInfix_take hq k) (take_ne_nil hne hpos)

/-- `decode` refuses what arrives of a message alone. -/
theorem decode_take_wire_ne {m : Message} {k : Nat} (hk : k < m.wire.length) (f : Frame) :
    decode (m.wire.take k) ≠ .ok f := by
  rcases Nat.eq_zero_or_pos k with rfl | hpos
  · rintro ⟨⟩
  · rw [decode_of_not_isInfix (not_isInfix_take m.not_isInfix_wire k)
      (take_ne_nil m.wire_ne_nil hpos)]
    exact map_ne_ok (Message.ofBytes_take_wire_ne hpos hk) _ f

/-- **Truncation.** Of a frame `bs` that did not arrive whole, `decode` accepts nothing but what the
payload's own first bytes say: the frame is refused unless it was cut inside its payload and
`q.take k` is by itself a message, which is then what is read. -/
theorem decode_take_eq_ok_iff {m : Message} {p : Option Bytes} {bs : Bytes}
    (hbs : encode m p = .ok bs) {k : Nat} (hk : k < bs.length) :
    (∀ f, decode (bs.take k) = .ok f ↔ ∃ q m', p = some q ∧ 0 < k ∧ k ≤ q.length ∧
      Message.ofBytes (q.take k) = .ok m' ∧ f = ⟨none, m'⟩) ∧
    (p = none ∨ (∃ q, p = some q ∧ q.length < k) → ∃ e, decode (bs.take k) = .error e) := by
  obtain ⟨hp, rfl⟩ := encode_eq_ok_iff.1 hbs
  cases p with
  | none =>
    have hrefused := decode_take_wire_ne (m := m) hk
    refine ⟨fun f => ⟨fun h => absurd h (hrefused f), ?_⟩, fun _ => exists_error_of_ne hrefused⟩
    rintro ⟨q, m', hq, -⟩
    cases hq
  | some q =>
    have hfree := hp q rfl
    rw [lead, List.append_assoc] at hk ⊢
    refine ⟨fun f => ?_, ?_⟩
    · constructor
      · intro h
        rcases Nat.lt_or_ge q.length k with hlt | hle
        · exact absurd h (decode_take_of_length_lt hfree hlt hk f)
        · rcases Nat.eq_zero_or_pos k with rfl | hpos
          · cases h
          · rw [decode_take_of_le_length hfree m hpos hle] at h
            obtain ⟨m', hm, rfl⟩ := map_eq_ok_iff.1 h
            exact ⟨q, m', rfl, hpos, hle, hm, rfl⟩
      · rintro ⟨q', m', hq', hpos, hle, hm, rfl⟩
        cases hq'
        rw [decode_take_of_le_length hfree m hpos hle, hm]
        rfl
    · rintro (hnone | ⟨q', hq', hlt⟩)
      · cases hnone
      · cases hq'
        exact exists_error_of_ne (decode_take_of_length_lt hfree hlt hk)

/-- A payload that is itself a message is taken for the frame when no more than it arrives. -/
theorem decode_take_payload_message :
    ∃ bs, encode (.ofKind 2 .encrypted) (some (Message.ofKind 1 .identity).wire) = .ok bs ∧
      decode (bs.take (Message.ofKind 1 .identity).wire.length)
        = .ok ⟨none, .ofKind 1 .identity⟩ := by
  have hencode := encode_some (.ofKind 2 .encrypted) (Message.ofKind 1 .identity).not_isInfix_wire
  refine ⟨_, hencode, ?_⟩
  have hshorter : (Message.ofKind 1 .identity).wire.length < ((Message.ofKind 1 .identity).wire
      ++ (Delimiter.bytes ++ (Message.ofKind 2 .encrypted).wire)).length := by
    simp [Delimiter.bytes_eq]
  have hpos := List.length_pos_of_ne_nil (Message.ofKind 1 .identity).wire_ne_nil
  refine ((decode_take_eq_ok_iff hencode hshorter).1 _).2 ⟨_, _, rfl, hpos, Nat.le_refl _, ?_, rfl⟩
  rw [List.take_length]
  exact Message.ofBytes_wire (by decide) (by decide)

end Frame
end RadioLink
