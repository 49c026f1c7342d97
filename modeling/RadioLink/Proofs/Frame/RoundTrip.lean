import Mathlib
import RadioLink.Proofs.Frame.Wire
import RadioLink.Proofs.Message.Read

/-!
# Frames are read back

A frame can be written unless its payload holds the delimiter. The first delimiter of a written
frame is then the one behind the payload, whatever stands in the payload and in the message, and
reading the frame gives back both, for a type that is `Canonical`:

    encode m p = .ok f → find? f = p.map length ∧ decode f = .ok ⟨p, m.withoutPayload⟩

Of those types only the name decides whether the frame is read at all: it must not be blank. That is
what every frame that was read has, however it was written; so it can be passed on:

    decode bs = .ok ⟨p, m⟩ → ∃ f, encode m p = .ok f ∧ decode f = .ok ⟨p, m⟩
-/

namespace RadioLink.Frame

/-- **Round trip.** `encode` succeeds exactly for payloads without the delimiter. The first
delimiter of the frame is then the one behind the payload, and `decode` gives back the payload and
the message, if its type is `Canonical` and not blank; with a blank type the frame is refused. -/
theorem round_trip {m : Message} (hkind : m.kind.Canonical) (p : Option Bytes) :
    ((∃ f, encode m p = .ok f) ↔ ∀ q, p = some q → ¬ Delimiter.bytes <:+: q) ∧
    ∀ f, encode m p = .ok f →
      Delimiter.find? f = p.map List.length ∧
      if Text.allBlank m.kind.name then ∃ e, decode f = .error e
      else decode f = .ok ⟨p, m.withoutPayload⟩ := by
  refine ⟨?_, fun f hf => ?_⟩
  · constructor
    · rintro ⟨f, hf⟩
      exact (encode_eq_ok_iff.1 hf).1
    · intro hp
      exact ⟨_, encode_eq_ok_iff.2 ⟨hp, rfl⟩⟩
  · obtain ⟨hp, rfl⟩ := encode_eq_ok_iff.1 hf
    refine ⟨find?_lead_append_wire hp m, ?_⟩
    rw [decode_lead_append_wire hp]
    split
    · next hk =>
      obtain ⟨e, he⟩ := Message.ofBytes_wire_blank hk
      exact ⟨e, by rw [he]; rfl⟩
    · next hk =>
      rw [Message.ofBytes_wire hkind (Bool.not_eq_true _ ▸ hk)]
      rfl

/-- A message full of delimiters, behind a payload that ends in all but the last byte of one. -/
theorem round_trip_delimiters :
    ∃ f, encode (.setField (.ofKind (-1) (.ofName "Bluetooth Nonce")) "\\Bluetooth Nonce\""
        "Bluetooth Bluetooth Nonce\n") (some (Delimiter.bytes.take 14)) = .ok f ∧
      Delimiter.find? f = some 14 ∧
      decode f = .ok ⟨some (Delimiter.bytes.take 14),
        .setField (.ofKind (-1) (.ofName "Bluetooth Nonce")) "\\Bluetooth Nonce\""
          "Bluetooth Bluetooth Nonce\n"⟩ := by
  have hkind : (MessageKind.ofName "Bluetooth Nonce").Canonical := MessageKind.canonical_ofName _
  have h := round_trip (m := .setField (.ofKind (-1) (.ofName "Bluetooth Nonce"))
    "\\Bluetooth Nonce\"" "Bluetooth Bluetooth Nonce\n") hkind (some (Delimiter.bytes.take 14))
  have hfree : ∀ q, some (Delimiter.bytes.take 14) = some q → ¬ Delimiter.bytes <:+: q := by
    rintro q ⟨⟩
    decide +kernel
  obtain ⟨f, hf⟩ := h.1.2 hfree
  obtain ⟨hfind, hdecode⟩ := h.2 f hf
  exact ⟨f, hf, hfind, hdecode⟩

/-! ### Passing frames on -/

/-- **Every frame that was read can be passed on.** Its message has a type that is not blank, which
is `identity` or `encrypted` exactly for the names of those, and no payload attached; the frame that
`encode` writes of it is decoded as the same. -/
theorem relay {bs : Bytes} {p : Option Bytes} {m : Message} (h : decode bs = .ok ⟨p, m⟩) :
    (∃ c ∈ m.kind.name.toList, Text.isBlank c = false) ∧
    (m.kind = .identity ↔ m.kind.name = identityName) ∧
    (m.kind = .encrypted ↔ m.kind.name = encryptedName) ∧
    m.payload = none ∧
    ∃ f, encode m p = .ok f ∧ decode f = .ok ⟨p, m⟩ := by
  obtain ⟨hp, y, hy⟩ := exists_of_decode h
  have hinv := Message.inv_of_ofBytes hy
  have hpayload : m.withoutPayload = m := by
    rw [Message.withoutPayload, ← hinv.payload]
  refine ⟨?_, hinv.canonical.eq_identity_iff, hinv.canonical.eq_encrypted_iff, hinv.payload, ?_⟩
  · simpa [Text.allBlank] using hinv.kind
  · refine ⟨_, encode_eq_ok_iff.2 ⟨hp, rfl⟩, ?_⟩
    rw [decode_lead_append_wire hp, Message.ofBytes_wire hinv.canonical hinv.kind, hpayload]
    rfl

/-- A message written as a list, its type by number, behind a payload that starts a delimiter. -/
theorem relay_list :
    ∃ f, encode (.ofKind 7 (.ofName "a")) (some (Delimiter.bytes.take 3)) = .ok f ∧
      decode f = .ok ⟨some (Delimiter.bytes.take 3), .ofKind 7 (.ofName "a")⟩ := by
  have h : decode (Delimiter.bytes.take 3 ++ (Delimiter.bytes ++ Bytes.ofText "[7, \"\\u0061\"]"))
      = .ok ⟨some (Delimiter.bytes.take 3), .ofKind 7 (.ofName "a")⟩ := by cbv
  obtain ⟨-, -, -, -, hf⟩ := relay h
  exact hf

end RadioLink.Frame
