import RadioLink.Proofs.Crypto.Envelope
import RadioLink.Proofs.Frame.Wire

/-!
# Envelopes hold whole messages

What is put into an envelope is the written form of a message. So all of it comes out again but the
payload, if its type is `Canonical`; a message that is an envelope itself can be sealed once more:

    openWith secret (sealFor ephemeral nonce (publicKey secret) m) = .ok m.withoutPayload

An envelope is looked at for its type and its fields alone (`openWith_congr`). Neither is lost in a
frame, so it can be passed on any number of times before it is opened (`Relayed`), and payloads may
join it on the way.
-/

namespace RadioLink

/-! ### Passing a message on -/

namespace Frame

/-- `x` is what `m` has become when it was framed and read back any number of times, what was in
front of it being attached to it or left aside. -/
inductive Relayed (m : Message) : Message → Prop
  | origin : Relayed m m
  | aside {x : Message} {p : Option Bytes} {bs : Bytes} {f : Frame} : Relayed m x →
      encode x p = .ok bs → decode bs = .ok f → Relayed m f.message
  | attached {x : Message} {p : Option Bytes} {bs : Bytes} {f : Frame} : Relayed m x →
      encode x p = .ok bs → decode bs = .ok f → Relayed m f.intoMessage

variable {m x : Message} {p : Option Bytes} {bs : Bytes}

/-- What was encoded is decoded, for a type that is `Canonical` and not blank. -/
theorem decode_of_encode (hkind : x.kind.Canonical) (hk : Text.allBlank x.kind.name = false)
    (h : encode x p = .ok bs) : decode bs = .ok ⟨p, x.withoutPayload⟩ := by
  obtain ⟨hp, rfl⟩ := encode_eq_ok_iff.1 h
  rw [decode_lead_append_wire hp, Message.ofBytes_wire hkind hk]
  rfl

theorem exists_encode_iff :
    (∃ bs, encode x p = .ok bs) ↔ ∀ q, p = some q → ¬ Delimiter.bytes <:+: q := by
  constructor
  · rintro ⟨bs, h⟩
    exact (encode_eq_ok_iff.1 h).1
  · intro h
    exact ⟨_, encode_eq_ok_iff.2 ⟨h, rfl⟩⟩

/-- `intoMessage` changes nothing of the message but the payload and its declared size. -/
theorem intoMessage_eq (f : Frame) :
    f.intoMessage.kind = f.message.kind ∧ f.intoMessage.id = f.message.id ∧
    f.intoMessage.body = f.message.body ∧ f.intoMessage.transfer = f.message.transfer := by
  unfold intoMessage
  split
  · exact ⟨rfl, rfl, rfl, rfl⟩
  · exact ⟨rfl, rfl, rfl, rfl⟩

/-- Only the payload and its declared size change on the way. -/
theorem Relayed.eq (hkind : m.kind.Canonical) (hk : Text.allBlank m.kind.name = false)
    (h : Relayed m x) :
    x.kind = m.kind ∧ x.id = m.id ∧ x.body = m.body ∧ x.transfer = m.transfer := by
  induction h with
  | origin => exact ⟨rfl, rfl, rfl, rfl⟩
  | aside _ hencode hdecode ih =>
    -- the type is still the one of the start, so the frame is not refused
    have hread := decode_of_encode (ih.1 ▸ hkind) (ih.1 ▸ hk) hencode
    rw [hread] at hdecode
    cases hdecode
    exact ih
  | attached _ hencode hdecode ih =>
    have hread := decode_of_encode (ih.1 ▸ hkind) (ih.1 ▸ hk) hencode
    rw [hread] at hdecode
    cases hdecode
    obtain ⟨hkind, hid, hbody, htransfer⟩ := intoMessage_eq ⟨_, _⟩
    exact ⟨hkind.trans ih.1, hid.trans ih.2.1, hbody.trans ih.2.2.1, htransfer.trans ih.2.2.2⟩

end Frame

/-! ### Envelopes -/

namespace Envelope

variable {suite : Suite} {secret : X25519.Key} {m x : Message}

/-- `openWith` looks only at the type and the fields of an envelope. -/
theorem openWith_congr (hkind : x.kind = m.kind) (hbody : x.body = m.body) :
    openWith suite secret x = openWith suite secret m := by
  have hfield (field : EnvelopeField) : fieldBytes x field = fieldBytes m field := by
    simp only [fieldBytes, Message.field?, hbody]
  have hsized {α : Type} (field : EnvelopeField) (sized : Bytes → Option α) :
      sizedField x field sized = sizedField m field sized := by
    simp only [sizedField, hfield]
  simp only [openWith, contents, hkind, hsized, hfield]

/-- The fields of an envelope, in the order of their names. -/
theorem entries_sealFor (ephemeral : X25519.Key) (nonce : SecretBox.Nonce)
    (recipient : X25519.Key) (m : Message) :
    (sealFor suite ephemeral nonce recipient m).body.entries =
      [(EnvelopeField.data.name, Hex.encode (suite.encrypt
          (deriveKey (suite.agree ephemeral recipient) (suite.publicKey ephemeral) recipient) nonce
          (Bytes.ofText m.toJson))),
        (EnvelopeField.ephemeralKey.name, Hex.encode (suite.publicKey ephemeral).toList),
        (EnvelopeField.nonce.name, Hex.encode nonce.toList)] := by
  have hnonce : ¬ EnvelopeField.nonce.name < EnvelopeField.ephemeralKey.name := by decide
  have hnonce' : EnvelopeField.nonce.name ≠ EnvelopeField.ephemeralKey.name := by decide
  have hdata : EnvelopeField.data.name < EnvelopeField.ephemeralKey.name := by decide
  show Fields.insertEntry _ _ (Fields.insertEntry _ _ (Fields.insertEntry _ _ [])) = _
  rw [Fields.insertEntry, Fields.insertEntry, if_neg hnonce, if_neg hnonce', Fields.insertEntry,
    Fields.insertEntry, if_pos hdata]

/-- **What was sealed is opened.** Where `agree` is symmetric and `decrypt` inverts `encrypt`,
`openWith` finds the message, without its payload, if its type is `Canonical` and not blank. The
envelope shows nothing of it but its number. However often it is `Relayed` in frames, it opens to
the same message, and no frame refuses it. -/
theorem openWith_sealed (suite : Suite) (ephemeral secret : X25519.Key) (nonce : SecretBox.Nonce)
    {m : Message} (hkind : m.kind.Canonical) (hk : Text.allBlank m.kind.name = false)
    (agreement : suite.agree ephemeral (suite.publicKey secret)
      = suite.agree secret (suite.publicKey ephemeral))
    (inverse : ∀ key nonce text,
      suite.decrypt key nonce (suite.encrypt key nonce text) = some text) :
    let envelope := sealFor suite ephemeral nonce (suite.publicKey secret) m
    openWith suite secret envelope = .ok m.withoutPayload ∧
    envelope.kind = .encrypted ∧ envelope.id = m.id ∧
    envelope.body.entries.map (·.1) = ["data", "ephemeralKey", "nonce"] ∧
    envelope.payloadSize = none ∧ envelope.transfer = none ∧ envelope.payload = none ∧
    ∀ x, Frame.Relayed envelope x →
      openWith suite secret x = .ok m.withoutPayload ∧
      ∀ p, ((∃ bs, Frame.encode x p = .ok bs) ↔ ∀ q, p = some q → ¬ Delimiter.bytes <:+: q) ∧
        ∀ bs, Frame.encode x p = .ok bs → Frame.decode bs = .ok ⟨p, x.withoutPayload⟩ := by
  intro envelope
  have hopen : openWith suite secret envelope = .ok m.withoutPayload :=
    (openWith_sealFor agreement inverse).trans (Message.ofBytes_toJson hkind hk)
  have hencrypted : envelope.kind.Canonical := MessageKind.canonical_encrypted
  have hnamed : Text.allBlank envelope.kind.name = false := by
    show Text.allBlank encryptedName = false
    decide
  refine ⟨hopen, rfl, rfl, ?_, rfl, rfl, rfl, fun x hx => ?_⟩
  · show (sealFor suite ephemeral nonce (suite.publicKey secret) m).body.entries.map (·.1) = _
    rw [entries_sealFor]
    rfl
  obtain ⟨hkind', -, hbody, -⟩ := hx.eq hencrypted hnamed
  refine ⟨(openWith_congr hkind' hbody).trans hopen, fun p => ⟨Frame.exists_encode_iff, ?_⟩⟩
  intro bs hbs
  exact Frame.decode_of_encode (hkind' ▸ hencrypted) (hkind' ▸ hnamed) hbs

/-- A message that is of the type of envelopes itself, with a field of theirs that holds no digits,
on its way behind another payload. -/
theorem openWith_sealed_encrypted :
    let secret : X25519.Key := Vector.replicate 32 7
    let once : X25519.Key := Vector.replicate 32 1
    let nonce : SecretBox.Nonce := Vector.replicate 24 2
    let m : Message := (Message.ofKind (-5) .encrypted).setField "data" "Bluetooth Nonce"
    let envelope := sealFor .standard once nonce (Suite.standard.publicKey secret)
      (m.setPayload [1, 2, 3])
    ∃ bs f, Frame.encode envelope (some [4, 5]) = .ok bs ∧ Frame.decode bs = .ok f ∧
      f.payload = some [4, 5] ∧
      openWith .standard secret f.intoMessage = .ok { m with payloadSize := some 3 } := by
  intro secret once nonce m envelope
  have hm : (m.setPayload [1, 2, 3]).withoutPayload = { m with payloadSize := some 3 } := rfl
  obtain ⟨-, -, -, -, -, -, -, hrelayed⟩ := openWith_sealed .standard once secret nonce
    (m := m.setPayload [1, 2, 3]) MessageKind.canonical_encrypted (by decide) (by decide +kernel)
    SecretBox.decrypt_encrypt
  obtain ⟨-, hframes⟩ := hrelayed envelope .origin
  obtain ⟨hencode, hdecode⟩ := hframes (some [4, 5])
  have hfree : ∀ q, some [4, 5] = some q → ¬ Delimiter.bytes <:+: q := by
    rintro q ⟨⟩
    decide +kernel
  obtain ⟨bs, hbs⟩ := hencode.2 hfree
  obtain ⟨hopened, -⟩ := hrelayed _ (.attached .origin hbs (hdecode bs hbs))
  exact ⟨bs, _, hbs, hdecode bs hbs, rfl, hm ▸ hopened⟩

/-- A message of the application's own type with the name `identityName` comes out of its envelope
as an announcement. -/
theorem openWith_sealed_identity :
    let secret : X25519.Key := Vector.replicate 32 7
    let once : X25519.Key := Vector.replicate 32 1
    let nonce : SecretBox.Nonce := Vector.replicate 24 2
    let m : Message := .ofKind 1 (.application identityName)
    Text.allBlank m.kind.name = false ∧
      openWith .standard secret (sealFor .standard once nonce (Suite.standard.publicKey secret) m)
        = .ok (.ofKind 1 .identity) ∧
      Message.ofKind 1 .identity ≠ m.withoutPayload := by
  intro secret once nonce m
  have hread := Message.ofBytes_toJson (m := .ofKind 1 .identity) MessageKind.canonical_identity
    (by decide)
  refine ⟨by decide, ?_, by decide⟩
  rw [openWith_sealFor (by decide +kernel) SecretBox.decrypt_encrypt]
  exact hread

end Envelope
end RadioLink
