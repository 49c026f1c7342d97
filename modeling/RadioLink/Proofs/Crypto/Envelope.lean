import RadioLink.Crypto.Envelope
import RadioLink.Proofs.Utf8

/-!
# Sealed messages are opened again

An envelope keeps a one-time public key, a nonce and the sealed text as hexadecimal text. `contents`
finds all three again, so the one who can make the same key has the message back:

    agree e (publicKey r) = agree r (publicKey e) → decrypt k n (encrypt k n text) = some text →
      openWith r (sealFor e n (publicKey r) m) = Message.ofBytes (Bytes.ofText m.toJson)

The second premise is `SecretBox.decrypt_encrypt`: it holds of XChaCha20-Poly1305 whatever the key,
the nonce and the text are.
-/

namespace RadioLink

/-! ### Hexadecimal text -/

namespace Hex

theorem utf8EncodeChar_digit {n : Nat} (h : n < 16) :
    ∃ d : UInt8, String.utf8EncodeChar (digit n) = [d] ∧ value? d.toNat = some n := by
  refine ⟨UInt8.ofNat (digit n).toNat, ?_⟩
  revert n
  decide

/-- `decodePairs` reads the two digits that `encodeByte` writes for each of the bytes. -/
theorem decodePairs_flatMap (bs : Bytes) (index : Nat) (acc : Bytes) :
    decodePairs index acc (Bytes.ofChars (bs.flatMap encodeByte)) = .ok (acc.reverse ++ bs) := by
  induction bs generalizing index acc with
  | nil => simp [decodePairs]
  | cons b bs ih =>
    have hb := b.toNat_lt
    obtain ⟨hi, hhi, hvalue⟩ := utf8EncodeChar_digit (n := b.toNat / 16) (by omega)
    obtain ⟨lo, hlo, hvalue'⟩ := utf8EncodeChar_digit (n := b.toNat % 16) (by omega)
    have hjoin : UInt8.ofNat (16 * (b.toNat / 16) + b.toNat % 16) = b := by
      rw [Nat.div_add_mod, UInt8.ofNat_toNat]
    have hbytes : Bytes.ofChars ((b :: bs).flatMap encodeByte)
        = hi :: lo :: Bytes.ofChars (bs.flatMap encodeByte) := by
      simp [encodeByte, hhi, hlo]
    rw [hbytes, decodePairs]
    simp only [hvalue, hvalue', hjoin, ih, List.reverse_cons, List.append_assoc,
      List.singleton_append]

theorem length_ofChars_flatMap (bs : Bytes) :
    (Bytes.ofChars (bs.flatMap encodeByte)).length = 2 * bs.length := by
  induction bs with
  | nil => rfl
  | cons b bs ih =>
    have hb := b.toNat_lt
    obtain ⟨hi, hhi, -⟩ := utf8EncodeChar_digit (n := b.toNat / 16) (by omega)
    obtain ⟨lo, hlo, -⟩ := utf8EncodeChar_digit (n := b.toNat % 16) (by omega)
    simp only [List.flatMap_cons, encodeByte, List.cons_append, List.nil_append,
      Bytes.ofChars_cons, hhi, hlo, List.length_cons, ih]
    omega

theorem decode_encode (bs : Bytes) : decode (encode bs) = .ok bs := by
  have htext : Bytes.ofText (encode bs) = Bytes.ofChars (bs.flatMap encodeByte) := by
    rw [Bytes.ofText_eq_ofChars, encode, String.toList_ofList]
  rw [decode, htext, length_ofChars_flatMap, if_neg (by omega), decodePairs_flatMap]
  rfl

end Hex

/-! ### Authenticated encryption -/

namespace ChaCha20

theorem length_flatMap_of_forall {α : Type} {f : α → Bytes} {k : Nat}
    (h : ∀ a, (f a).length = k) (l : List α) : (l.flatMap f).length = k * l.length := by
  induction l with
  | nil => rfl
  | cons a l ih => rw [List.flatMap_cons, List.length_append, h, ih, List.length_cons, Nat.mul_succ,
      Nat.add_comm]

theorem length_stream (key nonce : Bytes) (number count : Nat) :
    (stream key nonce number count).length = 64 * count := by
  have hblock (i : Nat) : (streamBlock key nonce (number + i)).length = 64 := by
    have hword (w : UInt32) : (Bytes.ofNatLE 4 w.toNat).length = 4 := Bytes.length_ofNatLE ..
    rw [streamBlock, wordBytes, length_flatMap_of_forall hword, Vector.length_toList]
  rw [stream, length_flatMap_of_forall hblock, List.length_range]

/-- `apply` keeps the length. -/
theorem length_apply (key nonce : Bytes) (number : Nat) (bytes : Bytes) :
    (apply key nonce number bytes).length = bytes.length := by
  rw [apply, List.length_zipWith, length_stream]
  omega

theorem apply_apply (key nonce : Bytes) (number : Nat) (bytes : Bytes) :
    apply key nonce number (apply key nonce number bytes) = bytes := by
  have hxor (xs ys : Bytes) (h : xs.length ≤ ys.length) :
      List.zipWith (· ^^^ ·) (List.zipWith (· ^^^ ·) xs ys) ys = xs := by
    induction xs generalizing ys with
    | nil => rfl
    | cons x xs ih =>
      cases ys with
      | nil => cases h
      | cons y ys =>
        have hcancel : x ^^^ y ^^^ y = x := by rw [UInt8.xor_assoc, UInt8.xor_self, UInt8.xor_zero]
        simp only [List.zipWith_cons_cons, hcancel, ih ys (Nat.le_of_succ_le_succ h)]
  rw [apply, length_apply]
  refine hxor bytes _ ?_
  rw [length_stream]
  omega

end ChaCha20

/-- **`decrypt` finds what was encrypted**, whatever the key and the nonce. -/
theorem SecretBox.decrypt_encrypt (key : Bytes) (nonce : Nonce) (plain : Bytes) :
    decrypt key nonce (encrypt key nonce plain) = some plain := by
  unfold encrypt
  generalize hkeys : derive key nonce = keys
  obtain ⟨key', nonce'⟩ := keys
  dsimp only
  generalize htext : ChaCha20.apply key' nonce' 1 plain = text
  have hlength : (tag key' nonce' text).length = tagSize := Poly1305.length_tag _ _
  have hsize : (text ++ tag key' nonce' text).length - tagSize = text.length := by
    rw [List.length_append, hlength, Nat.add_sub_cancel]
  unfold decrypt
  rw [if_neg (by rw [List.length_append, hlength]; omega), hkeys]
  dsimp only
  rw [hsize, List.take_left, List.drop_left, if_pos rfl, ← htext, ChaCha20.apply_apply]

/-! ### Fields -/

namespace Fields

theorem find?_insertEntry {name name' value : String} (l : List (String × String)) :
    (insertEntry name value l).find? (fun e => e.1 = name')
      = if name = name' then some (name, value) else l.find? fun e => e.1 = name' := by
  induction l with
  | nil => by_cases h : name = name' <;> simp [insertEntry, h]
  | cons e l ih =>
    unfold insertEntry
    split
    · rw [List.find?_cons]
      split <;> simp_all
    · split
      · next heq =>
        subst heq
        rw [List.find?_cons, List.find?_cons]
        by_cases h : e.1 = name' <;> simp [h]
      · next hne =>
        rw [List.find?_cons, List.find?_cons, ih]
        by_cases h : e.1 = name'
        · have hname : ¬ name = name' := fun heq => hne (heq.trans h.symm)
          simp [h, hname]
        · simp [h]

theorem get?_insert (fs : Fields) (name name' value : String) :
    (fs.insert name value).get? name' = if name = name' then some value else fs.get? name' := by
  rw [get?, insert, find?_insertEntry]
  split <;> rfl

end Fields

theorem Message.field?_setField (m : Message) (name name' value : String) :
    (m.setField name value).field? name' = if name = name' then some value else m.field? name' :=
  Fields.get?_insert ..

/-! ### Envelopes -/

theorem X25519.key?_toList (key : Key) : key? key.toList = some key := by
  unfold key?
  rw [dif_pos key.length_toList]
  exact congrArg some (Vector.toArray_inj.1 (Array.toArray_toList ..))

theorem SecretBox.nonce?_toList (nonce : Nonce) : nonce? nonce.toList = some nonce := by
  unfold nonce?
  rw [dif_pos nonce.length_toList]
  exact congrArg some (Vector.toArray_inj.1 (Array.toArray_toList ..))

namespace Envelope

theorem sizedField_of_encode {α : Type} {m : Message} {field : EnvelopeField} {bytes : Bytes}
    {sized : Bytes → Option α} {a : α} (hfield : m.field? field.name = some (Hex.encode bytes))
    (ha : sized bytes = some a) : sizedField m field sized = .ok a := by
  simp only [sizedField, fieldBytes, hfield, Hex.decode_encode, ha]

variable {suite : Suite} {ephemeral secret recipient : X25519.Key} {nonce : SecretBox.Nonce}
  {m : Message}

/-- `contents` finds in an envelope what `sealFor` has put there. -/
theorem contents_sealFor : contents (sealFor suite ephemeral nonce recipient m)
    = .ok (suite.publicKey ephemeral, nonce,
        suite.encrypt (deriveKey (suite.agree ephemeral recipient) (suite.publicKey ephemeral)
          recipient) nonce (Bytes.ofText m.toJson)) := by
  generalize hx : sealFor suite ephemeral nonce recipient m = x
  have hkind : x.kind = .encrypted := by
    rw [← hx]
    rfl
  have hkey : sizedField x .ephemeralKey X25519.key? = .ok (suite.publicKey ephemeral) := by
    refine sizedField_of_encode ?_ (X25519.key?_toList _)
    simp [← hx, sealFor, Message.field?_setField, EnvelopeField.name]
  have hnonce : sizedField x .nonce SecretBox.nonce? = .ok nonce := by
    refine sizedField_of_encode ?_ (SecretBox.nonce?_toList _)
    simp [← hx, sealFor, Message.field?_setField, EnvelopeField.name]
  have hdata : fieldBytes x .data = .ok (suite.encrypt (deriveKey (suite.agree ephemeral recipient)
      (suite.publicKey ephemeral) recipient) nonce (Bytes.ofText m.toJson)) := by
    have hfield : x.field? EnvelopeField.data.name = some (Hex.encode (suite.encrypt (deriveKey
        (suite.agree ephemeral recipient) (suite.publicKey ephemeral) recipient) nonce
        (Bytes.ofText m.toJson))) := by
      simp [← hx, sealFor, Message.field?_setField]
    simp only [fieldBytes, hfield, Hex.decode_encode]
  simp only [contents, hkind, hkey, hnonce, hdata]
  rfl

/-- Where `agree` is symmetric and `decrypt` inverts `encrypt`, `openWith` reads the message as it
was written. -/
theorem openWith_sealFor
    (agreement : suite.agree ephemeral (suite.publicKey secret)
      = suite.agree secret (suite.publicKey ephemeral))
    (inverse : ∀ key nonce text,
      suite.decrypt key nonce (suite.encrypt key nonce text) = some text) :
    openWith suite secret (sealFor suite ephemeral nonce (suite.publicKey secret) m)
      = Message.ofBytes (Bytes.ofText m.toJson) := by
  simp only [openWith, contents_sealFor, agreement, inverse]

end Envelope
end RadioLink
