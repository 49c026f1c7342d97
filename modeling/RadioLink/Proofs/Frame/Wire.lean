import RadioLink.Frame.Basic
import RadioLink.Proofs.Delimiter
import RadioLink.Proofs.Message.Written

/-!
# Messages on the wire

The delimiters in the written form of a message are replaced as bytes, without a look at the JSON
around them. As characters this writes some blanks by number, so what is on the wire holds no
delimiter and is read back as the message:

    exists_wire : ∃ ds, m.wire = Bytes.ofChars ds ∧ Respaced (Json.object m.jsonMembers) ds

Where a frame is cut is then a matter of where its first delimiter stands.
-/

namespace RadioLink

open Json

/-! ### Replacing delimiters in a text -/

namespace Delimiter

/-- The delimiter as characters. -/
def chars : List Char := "Bluetooth Nonce".toList

/-- The delimiter with its blank written by number. -/
def spelledChars : List Char := "Bluetooth".toList ++ (blankEscape ++ "Nonce".toList)

theorem ofChars_chars : Bytes.ofChars chars = bytes := (Bytes.ofText_eq_ofChars _).symm

theorem ofChars_spelledChars : Bytes.ofChars spelledChars = spelled := by decide +kernel

theorem respaced_chars : Respaced chars spelledChars := by
  have h : chars = "Bluetooth".toList ++ ' ' :: "Nonce".toList := by decide +kernel
  rw [h]
  exact (Respaced.refl _).append (.blank (.refl _))

/-- `escape` on the bytes of `cs` gives those of `ds`, which are `cs` with some blanks written by
number. -/
theorem exists_escape_ofChars (cs : List Char) :
    ∃ ds, escape (Bytes.ofChars cs) = Bytes.ofChars ds ∧ Respaced cs ds := by
  generalize hbs : Bytes.ofChars cs = bs
  induction bs using split_induction generalizing cs with
  | free x hx => exact ⟨cs, by rw [escape_of_not_isInfix hx, hbs], .refl cs⟩
  | split x y hx ih =>
    -- a delimiter starts with a byte that starts a character, so the text can be cut there
    have hcut : Bytes.ofChars cs = x ++ 0x42 :: (tail ++ y) := by
      rw [hbs, bytes_eq, List.cons_append]
    obtain ⟨ds, es, rfl, rfl, hes⟩ := Bytes.exists_split_of_ofChars_eq hcut (by decide)
    rw [← List.cons_append, ← bytes_eq, ← ofChars_chars] at hes
    obtain ⟨fs, rfl, hfs⟩ := Bytes.exists_of_ofChars_append hes.symm
    obtain ⟨gs, hgs, hrespaced⟩ := ih fs hfs
    refine ⟨ds ++ (spelledChars ++ gs), ?_, ?_⟩
    · rw [escape_append_bytes hx, hgs, ← ofChars_spelledChars, Bytes.ofChars_append,
        Bytes.ofChars_append]
    · exact (Respaced.refl ds).append (respaced_chars.append hrespaced)

end Delimiter

/-! ### The written message -/

namespace Message

theorem exists_wire (m : Message) :
    ∃ ds, m.wire = Bytes.ofChars ds ∧ Respaced (object m.jsonMembers) ds := by
  obtain ⟨ds, hds, h⟩ := Delimiter.exists_escape_ofChars (object m.jsonMembers)
  refine ⟨ds, ?_, h⟩
  rw [wire, Bytes.ofText_eq_ofChars, toJson, String.toList_ofList, hds]

theorem not_isInfix_wire (m : Message) : ¬ Delimiter.bytes <:+: m.wire :=
  Delimiter.not_isInfix_escape _

theorem wire_ne_nil (m : Message) : m.wire ≠ [] := by
  obtain ⟨ds, hds, h⟩ := m.exists_wire
  obtain ⟨us, rfl, -⟩ := respaced_object h
  rw [hds]
  exact Bytes.ofChars_ne_nil (List.cons_ne_nil _ _)

theorem ofBytes_ofChars {cs : List Char} {m : Message} (h : ofJson (String.ofList cs) = .ok m) :
    ofBytes (Bytes.ofChars cs) = .ok m := by
  rw [ofBytes, Bytes.text?_ofChars]
  simp only [h]

theorem ofBytes_ofChars_error {cs : List Char} {fault : Fault}
    (h : ofJson (String.ofList cs) = .error fault) :
    ofBytes (Bytes.ofChars cs) = .error (.serialization fault) := by
  rw [ofBytes, Bytes.text?_ofChars]
  simp only [h]

/-- **A message on the wire is read back, without its payload**, if its type is `Canonical` and not
blank. -/
theorem ofBytes_wire {m : Message} (hkind : m.kind.Canonical)
    (hk : Text.allBlank m.kind.name = false) : ofBytes m.wire = .ok m.withoutPayload := by
  obtain ⟨ds, hds, h⟩ := m.exists_wire
  rw [hds]
  exact ofBytes_ofChars (ofJson_of_respaced hkind hk h)

/-- `ofBytes` reads `toJson` back like `wire`. -/
theorem ofBytes_toJson {m : Message} (hkind : m.kind.Canonical)
    (hk : Text.allBlank m.kind.name = false) :
    ofBytes (Bytes.ofText m.toJson) = .ok m.withoutPayload := by
  rw [Bytes.ofText_eq_ofChars]
  refine ofBytes_ofChars ?_
  rw [toJson, String.toList_ofList]
  exact ofJson_of_respaced hkind hk (.refl _)

/-- **What a message of a canonical type is read as depends on the members that count, and on
nothing else.** The written form `toJson` is a variant of the message, and so is whatever becomes of
it when its members are put in another order, blanks are put between the tokens, characters are
escaped, and members with names outside `memberNames` are added. All of them are read as
`m.withoutPayload`. -/
theorem ofBytes_variants {m : Message} (hkind : m.kind.Canonical)
    (hk : Text.allBlank m.kind.name = false) :
    m.IsVariant m.toJson.toList ∧
      ∀ cs, m.IsVariant cs → ofBytes (Bytes.ofChars cs) = .ok m.withoutPayload := by
  constructor
  · rw [toJson, String.toList_ofList]
    exact isVariant_of_respaced (.refl _)
  · intro cs hcs
    exact ofBytes_ofChars (ofJson_of_isVariant hkind hk hcs)

/-- The members the other way round, the type by numbers, blanks, and members that nobody knows in
both objects, one of them with a list that holds an object. -/
theorem ofBytes_variants_mixed :
    let m : Message := ⟨7, .ofName "😀b", ∅, none, some ⟨3⟩, some [1, 2]⟩
    ofBytes (Bytes.ofText ("\x7b\"x\":[null,\x7b\"\\u0079\":-1.5e+3\x7d] ,"
        ++ "\"payloadTransferInfo\":\x7b\"z\":[],\"channel\":3\x7d,\"body\":\x7b\x7d,"
        ++ "\"type\":\"\\uD83D\\uDE00\\u0062\",\"id\":7\x7d\n"))
      = .ok m.withoutPayload := by
  intro m
  have hplain (s : String) : IsLiteral s (literal s) := isLiteral_of_respaced (.refl _)
  have hmember {e : Entry} {v : List Char} (hv : e.2 v) : IsMember e (literal e.1 ++ ':' :: v) :=
    isMember_of_tight (hplain _) hv
  -- the value that nobody knows
  have hdigit {c : Char} (hc : Reader.isDigit c = true) : IsDigits [c] :=
    ⟨List.cons_ne_nil c [], by simpa using hc⟩
  have hnumber : IsNumber ['-', '1', '.', '5', 'e', '+', '3'] :=
    .mk (.inr rfl) (.digits (by decide) (hdigit rfl) : IsWhole ['1'])
      (.point (hdigit rfl) : IsFraction ['.', '5'])
      (.power (.inl rfl) (.inr (.inl rfl)) (hdigit rfl) : IsExponent ['e', '+', '3'])
  have hdigits : ∀ c ∈ ['0', '0', '7', '9'], ∃ n, Hex.IsDigit n c := by
    intro c hc
    have hsome : ['0', '0', '7', '9'].all (fun c => (Hex.value? c.toNat).isSome) = true := by decide
    obtain ⟨n, hn⟩ := Option.isSome_iff_exists.1 (List.all_eq_true.1 hsome c hc)
    exact ⟨n, Hex.isDigit_of_value? hn⟩
  have hname : IsCharacters ('\\' :: 'u' :: (['0', '0', '7', '9'] ++ [])) :=
    .number rfl hdigits .nil
  have hitem : Grammar (.item .object) _ :=
    .member isBlanks_nil hname isBlanks_nil (.element isBlanks_nil (.number hnumber) isBlanks_nil)
  have hobject : Grammar .element _ := .element isBlanks_nil (.filled (.last hitem)) isBlanks_nil
  have hnull : Grammar .element _ := .element isBlanks_nil .null isBlanks_nil
  have hlist : IsValue _ := .filled (k := .list) (.more (.ofList hnull) (.last (.ofList hobject)))
  -- the type, and the members that count
  have hface : Spelling '😀' _ := .pair (w := ['D', '8', '3', 'D']) (n := 0xD83D)
    (v := ['D', 'E', '0', '0']) (m := 0xDE00) rfl rfl rfl rfl
  have hletter : Spelling 'b' _ := .number (w := ['0', '0', '6', '2']) (n := 0x62) rfl rfl rfl
  have hspelled : Spelled ['😀', 'b'] _ := .cons hface (.cons hletter .nil)
  have hchars : "😀b".toList = ['😀', 'b'] := by decide +kernel
  have hliteral {es : List Char} (hes : Spelled ['😀', 'b'] es) :
      IsLiteral "😀b" ('"' :: (es ++ ['"'])) := ⟨es, hchars ▸ hes, rfl⟩
  have hkind : IsMember ("type", IsLiteral "😀b") _ := hmember (hliteral hspelled)
  have hbody : IsMember ("body", m.body.IsJson) _ :=
    hmember ⟨[], [], isBlanks_nil, .nil, rfl⟩
  have hid : IsMember ("id", (· = integerText 7)) _ := hmember rfl
  have htransfer : IsExtended ["channel"] IsValue [("channel", (· = integerText 3))] _ :=
    ⟨[("z", IsValue)], List.reverse [("channel", (· = integerText 3)), ("z", IsValue)],
      by simp [Strange], List.reverse_perm _, [], _, isBlanks_nil,
      .cons (hmember (.empty .list isBlanks_nil)) (.cons (hmember rfl) .nil), rfl⟩
  -- the whole text
  have hblanks : IsBlanks [' '] ∧ IsBlanks ['\n'] := by simp [IsBlanks, Reader.isBlank]
  have hstrange : IsMember ("x", IsValue) _ :=
    ⟨[], _, _, [' '], isBlanks_nil, hplain _, ⟨[], [], _, isBlanks_nil, isBlanks_nil, hlist, rfl⟩,
      hblanks.1, rfl⟩
  have hobject : IsExtended Message.memberNames IsValue m.entries _ :=
    ⟨[("x", IsValue)], (m.entries ++ [("x", IsValue)]).reverse,
      by simp [Strange, Message.memberNames], List.reverse_perm _, [], _, isBlanks_nil,
      .cons hstrange (.cons (hmember htransfer) (.cons hbody (.cons hkind (.cons hid .nil)))), rfl⟩
  have hread := (ofBytes_variants (by decide +kernel) (by decide +kernel)).2 _
    ⟨[], _, ['\n'], isBlanks_nil, hobject, hblanks.2, rfl⟩
  rw [Bytes.ofText_eq_ofChars]
  refine (congrArg (fun cs => ofBytes (Bytes.ofChars cs)) ?_).trans hread
  decide +kernel

/-- The application's own type with the name `identityName` is not read back: its written form is
that of an announcement. -/
theorem ofBytes_variants_identity :
    let m : Message := .ofKind 1 (.application identityName)
    Text.allBlank m.kind.name = false ∧ m.IsVariant m.toJson.toList ∧
      ofBytes (Bytes.ofChars m.toJson.toList) = .ok (.ofKind 1 .identity) ∧
      Message.ofKind 1 .identity ≠ m.withoutPayload := by
  intro m
  have hread := ofBytes_toJson (m := .ofKind 1 .identity) MessageKind.canonical_identity (by decide)
  rw [Bytes.ofText_eq_ofChars] at hread
  refine ⟨by decide, ?_, hread, by decide⟩
  rw [toJson, String.toList_ofList]
  exact isVariant_of_respaced (.refl _)

theorem ofBytes_wire_blank {m : Message} (hk : Text.allBlank m.kind.name) :
    ∃ e, ofBytes m.wire = .error e := by
  obtain ⟨ds, hds, h⟩ := m.exists_wire
  obtain ⟨fault, hfault⟩ := ofJson_of_respaced_blank hk h
  rw [hds]
  exact ⟨.serialization fault, ofBytes_ofChars_error hfault⟩

end Message

/-! ### Cutting a frame -/

namespace Frame

theorem map_eq_ok_iff {ε α β : Type} {x : Except ε α} {f : α → β} {b : β} :
    x.map f = .ok b ↔ ∃ a, x = .ok a ∧ f a = b := by
  cases x with
  | error e => simp [Except.map]
  | ok a => simp [Except.map]

variable {x : Bytes}

/-- `decode` reads bytes without a delimiter as a message alone. -/
theorem decode_of_not_isInfix (hx : ¬ Delimiter.bytes <:+: x) (hne : x ≠ []) :
    decode x = (Message.ofBytes x).map (Frame.mk none) := by
  rw [decode, if_neg hne, Delimiter.find?_eq_none_iff.2 hx]
  cases Message.ofBytes x <;> rfl

/-- `decode` cuts a frame at its first delimiter, and there has to be a message behind it. -/
theorem decode_append_bytes (hx : ¬ Delimiter.bytes <:+: x) (y : Bytes) :
    decode (x ++ (Delimiter.bytes ++ y)) =
      if y = [] then .error (.malformedFrame .noMessage)
      else (Message.ofBytes y).map (Frame.mk (some x)) := by
  have hne : x ++ (Delimiter.bytes ++ y) ≠ [] := by simp [Delimiter.bytes_eq]
  have hlen : x.length + Delimiter.size = (x ++ Delimiter.bytes).length := by
    rw [List.length_append, Delimiter.length_bytes]
  have hdrop : (x ++ (Delimiter.bytes ++ y)).drop (x.length + Delimiter.size) = y := by
    rw [hlen, ← List.append_assoc, List.drop_left]
  rw [decode, if_neg hne, Delimiter.find?_append_bytes hx]
  simp only [hdrop, List.take_left]
  split
  · rfl
  · cases Message.ofBytes y <;> rfl

theorem checkPayload_eq_ok_iff : checkPayload x = .ok () ↔ ¬ Delimiter.bytes <:+: x := by
  rw [← Delimiter.find?_eq_none_iff, checkPayload]
  cases Delimiter.find? x with
  | none => simp
  | some i => simp

theorem encode_some (m : Message) (hx : ¬ Delimiter.bytes <:+: x) :
    encode m (some x) = .ok (x ++ (Delimiter.bytes ++ m.wire)) := by
  rw [encode, checkPayload_eq_ok_iff.2 hx]
  simp only [lead, List.append_assoc]

/-- `encode` fails only for a payload with a delimiter, and otherwise gives `lead p ++ m.wire`. -/
theorem encode_eq_ok_iff {m : Message} {p : Option Bytes} {f : Bytes} :
    encode m p = .ok f ↔ (∀ q, p = some q → ¬ Delimiter.bytes <:+: q) ∧ f = lead p ++ m.wire := by
  cases p with
  | none => simp [encode, lead, eq_comm]
  | some q =>
    by_cases hq : Delimiter.bytes <:+: q
    · have hcheck : checkPayload q ≠ .ok () := fun h => checkPayload_eq_ok_iff.1 h hq
      rw [encode]
      split
      · simp [hq]
      · next h => exact absurd h hcheck
    · simp [encode_some m hq, hq, lead, eq_comm]

/-! ### Written frames and read ones -/

/-- In a written frame, what `find?` finds is the delimiter behind the payload. -/
theorem find?_lead_append_wire {p : Option Bytes} (hp : ∀ q, p = some q → ¬ Delimiter.bytes <:+: q)
    (m : Message) : Delimiter.find? (lead p ++ m.wire) = p.map List.length := by
  cases p with
  | none => exact Delimiter.find?_eq_none_iff.2 m.not_isInfix_wire
  | some q =>
    rw [lead, List.append_assoc]
    exact Delimiter.find?_append_bytes (hp q rfl) m.wire

/-- A written frame is decoded as its payload and whatever its message is read as. -/
theorem decode_lead_append_wire {p : Option Bytes}
    (hp : ∀ q, p = some q → ¬ Delimiter.bytes <:+: q) (m : Message) :
    decode (lead p ++ m.wire) = (Message.ofBytes m.wire).map (Frame.mk p) := by
  cases p with
  | none => exact decode_of_not_isInfix m.not_isInfix_wire m.wire_ne_nil
  | some q =>
    rw [lead, List.append_assoc]
    rw [decode_append_bytes (hp q rfl), if_neg m.wire_ne_nil]

/-- What was decoded is a payload without the delimiter, and bytes read as a message. -/
theorem exists_of_decode {bs : Bytes} {p : Option Bytes} {m : Message}
    (h : decode bs = .ok ⟨p, m⟩) :
    (∀ q, p = some q → ¬ Delimiter.bytes <:+: q) ∧ ∃ y, Message.ofBytes y = .ok m := by
  by_cases hne : bs = []
  · rw [decode, if_pos hne] at h
    cases h
  cases hfind : Delimiter.find? bs with
  | none =>
    have hfree := Delimiter.find?_eq_none_iff.1 hfind
    rw [decode_of_not_isInfix hfree hne] at h
    obtain ⟨m', hm, hf⟩ := map_eq_ok_iff.1 h
    cases hf
    exact ⟨by rintro q ⟨⟩, bs, hm⟩
  | some i =>
    obtain ⟨x, y, rfl, hx, -⟩ := Delimiter.exists_split_of_find? hfind
    rw [decode_append_bytes hx] at h
    split at h
    · cases h
    · obtain ⟨m', hm, hf⟩ := map_eq_ok_iff.1 h
      cases hf
      exact ⟨by rintro q ⟨⟩; exact hx, y, hm⟩

end Frame
end RadioLink
