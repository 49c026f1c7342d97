import RadioLink.Bytes
import RadioLink.Text.Blank

/-!
# Messages

What two devices say to each other: a number, a type, text fields in the order of their names, and
possibly a payload. The payload is not part of the written message; it travels beside it in the same
frame, or separately over a channel that the message names (`Transfer`).
-/

namespace RadioLink

/-! ### Types of messages -/

/-- The name of announcements. -/
def identityName : String := "identity"

/-- The name of encrypted messages. -/
def encryptedName : String := "encrypted"

/-- The type of a message: one of the two that the link itself knows, or one of the application's.
Nothing keeps the application from a name of the link's own; `MessageKind.ofName` never makes such a
type. -/
inductive MessageKind where
  /-- Announces who the sender is. -/
  | identity
  /-- Holds another message, encrypted. -/
  | encrypted
  | application (name : String)
  deriving DecidableEq, Repr

namespace MessageKind

/-- The type with a name: `.identity` and `.encrypted` for `identityName` and `encryptedName`, and
otherwise one of the application's. -/
def ofName (name : String) : MessageKind :=
  if name = identityName then .identity
  else if name = encryptedName then .encrypted
  else .application name

/-- The name of a type. -/
def name : MessageKind → String
  | .identity => identityName
  | .encrypted => encryptedName
  | .application name => name

/-- `ofName text`, unless the name is blank. -/
def ofText (text : String) : Except String MessageKind :=
  if Text.allBlank text then .error "Message type must not be empty" else .ok (ofName text)

@[simp] theorem name_ofName (s : String) : (ofName s).name = s := by
  unfold ofName
  split
  · next h => exact h.symm
  · split
    · next h => exact h.symm
    · rfl

/-! ### Canonical types -/

/-- A type is canonical if `ofName` makes it from its name. Only `.application identityName` and
`.application encryptedName` are not. -/
def Canonical (k : MessageKind) : Prop := ofName k.name = k

instance (k : MessageKind) : Decidable k.Canonical :=
  inferInstanceAs (Decidable (ofName k.name = k))

/-- What `ofName` makes is `Canonical`, -/
theorem canonical_ofName (s : String) : (ofName s).Canonical := by
  rw [Canonical, name_ofName]

/-- and so is what `ofText` makes. -/
theorem canonical_of_ofText {s : String} {k : MessageKind} (h : ofText s = .ok k) :
    k.Canonical := by
  unfold ofText at h
  split at h
  · cases h
  · cases h
    exact canonical_ofName s

theorem canonical_identity : Canonical .identity := if_pos rfl

theorem canonical_encrypted : Canonical .encrypted := (if_neg (by decide)).trans (if_pos rfl)

/-- A type whose name is none of the link's own is `Canonical`. -/
theorem canonical_of_name_ne {k : MessageKind} (hidentity : k.name ≠ identityName)
    (hencrypted : k.name ≠ encryptedName) : k.Canonical := by
  cases k with
  | identity => exact absurd rfl hidentity
  | encrypted => exact absurd rfl hencrypted
  | application name => exact (if_neg hidentity).trans (if_neg hencrypted)

/-- A `Canonical` type is determined by its name. -/
theorem Canonical.eq_of_name_eq {k k' : MessageKind} (hk : k.Canonical) (hk' : k'.Canonical)
    (h : k.name = k'.name) : k = k' := by
  rw [← hk, h, hk']

theorem Canonical.eq_identity_iff {k : MessageKind} (hk : k.Canonical) :
    k = .identity ↔ k.name = identityName :=
  ⟨fun h => h ▸ rfl, hk.eq_of_name_eq canonical_identity⟩

theorem Canonical.eq_encrypted_iff {k : MessageKind} (hk : k.Canonical) :
    k = .encrypted ↔ k.name = encryptedName :=
  ⟨fun h => h ▸ rfl, hk.eq_of_name_eq canonical_encrypted⟩

/-- `ofText` makes a `Canonical` type from its name, unless that is blank. -/
theorem Canonical.ofText_name {k : MessageKind} (hk : k.Canonical)
    (h : Text.allBlank k.name = false) : ofText k.name = .ok k := by
  rw [ofText, if_neg (by simp [h]), hk]

end MessageKind

/-- Where an inbound message goes. -/
inductive Route where
  /-- It makes a session for its sender. -/
  | identity
  /-- It belongs to the session of its sender. -/
  | session
  deriving DecidableEq, Repr

/-- Where messages of the type go. -/
def MessageKind.route : MessageKind → Route
  | .identity => .identity
  | .encrypted => .session
  | .application _ => .session

/-! ### Fields -/

/-- Text fields in the order of their names, each name once. -/
structure Fields where
  entries : List (String × String)
  sorted : entries.Pairwise fun a b => a.1 < b.1
  deriving DecidableEq, Repr

namespace Fields

/-- No fields. -/
def empty : Fields := ⟨[], .nil⟩

instance : EmptyCollection Fields := ⟨empty⟩

/-- The value of the field `name`. -/
def get? (fs : Fields) (name : String) : Option String :=
  (fs.entries.find? fun e => e.1 = name).map (·.2)

/-- Puts a value at its place in entries sorted by name. -/
def insertEntry (name value : String) : List (String × String) → List (String × String)
  | [] => [(name, value)]
  | e :: rest =>
    if name < e.1 then (name, value) :: e :: rest
    else if name = e.1 then (name, value) :: rest
    else e :: insertEntry name value rest

theorem mem_insertEntry {name value : String} {l : List (String × String)} {e : String × String}
    (h : e ∈ insertEntry name value l) : e = (name, value) ∨ e ∈ l := by
  induction l with
  | nil => simpa [insertEntry] using h
  | cons x rest ih =>
    simp only [insertEntry] at h
    split at h
    · simpa using h
    · split at h
      · rcases List.mem_cons.1 h with h | h
        · exact .inl h
        · exact .inr (List.mem_cons_of_mem _ h)
      · rcases List.mem_cons.1 h with h | h
        · exact .inr (h ▸ List.mem_cons_self)
        · rcases ih h with h | h
          · exact .inl h
          · exact .inr (List.mem_cons_of_mem _ h)

theorem pairwise_insertEntry {name value : String} {l : List (String × String)}
    (h : l.Pairwise fun a b => a.1 < b.1) :
    (insertEntry name value l).Pairwise fun a b => a.1 < b.1 := by
  induction l with
  | nil => simp [insertEntry]
  | cons x rest ih =>
    have ⟨hx, hrest⟩ := List.pairwise_cons.1 h
    simp only [insertEntry]
    split
    · next hlt =>
      refine List.pairwise_cons.2 ⟨fun e he => ?_, h⟩
      rcases List.mem_cons.1 he with rfl | he
      · exact hlt
      · exact String.lt_trans hlt (hx e he)
    · split
      · next heq => exact List.pairwise_cons.2 ⟨fun e he => heq ▸ hx e he, hrest⟩
      · next hlt hne =>
        refine List.pairwise_cons.2 ⟨fun e he => ?_, ih hrest⟩
        rcases mem_insertEntry he with rfl | he
        · have := String.not_lt.1 hlt
          grind
        · exact hx e he

/-- Gives the field `name` a value, replacing the one it had. -/
def insert (fs : Fields) (name value : String) : Fields :=
  ⟨insertEntry name value fs.entries, pairwise_insertEntry fs.sorted⟩

/-- The fields of `l`; of two with one name the later counts. -/
def ofList (l : List (String × String)) : Fields := l.foldl (fun fs e => fs.insert e.1 e.2) ∅

end Fields

/-! ### Messages -/

/-- The names of the fields in which a device says who it is. -/
def deviceIdField : String := "deviceId"
def deviceNameField : String := "deviceName"
def deviceTypeField : String := "deviceType"
def protocolVersionField : String := "protocolVersion"

/-- The version of the protocol. -/
def protocolVersion : Nat := 5

/-- The channel over which a payload is served separately. -/
structure Transfer where
  channel : UInt8
  deriving DecidableEq, Repr

/-- What one device says to another. -/
structure Message where
  id : Int64
  kind : MessageKind
  body : Fields
  /-- The declared size of the payload. -/
  payloadSize : Option UInt64
  transfer : Option Transfer
  /-- The payload itself, which is not part of the written message. -/
  payload : Option Bytes
  deriving DecidableEq

namespace Message

/-- A message without fields and payload. -/
def ofKind (id : Int64) (kind : MessageKind) : Message := ⟨id, kind, ∅, none, none, none⟩

/-- Gives the field `name` a value. -/
def setField (m : Message) (name value : String) : Message :=
  { m with body := m.body.insert name value }

/-- The value of the field `name`. -/
def field? (m : Message) (name : String) : Option String := m.body.get? name

/-- The identifier of the sending device, if the message says it. -/
def deviceId? (m : Message) : Option String := m.field? deviceIdField

/-- The announcement of a device. -/
def identity (id : Int64) (deviceId deviceName deviceType : String) : Message :=
  ofKind id .identity
    |>.setField deviceIdField deviceId
    |>.setField deviceNameField deviceName
    |>.setField deviceTypeField deviceType
    |>.setField protocolVersionField (toString protocolVersion)

/-- Attaches `payload` and declares its size. -/
def setPayload (m : Message) (payload : Bytes) : Message :=
  { m with payloadSize := some (UInt64.ofNat payload.length), payload := some payload }

/-- The message with no payload attached; a declared `payloadSize` stays. -/
def withoutPayload (m : Message) : Message := { m with payload := none }

/-- Declares a payload of `size` bytes that is served over the channel of `transfer`. -/
def setTransfer (m : Message) (size : UInt64) (transfer : Transfer) : Message :=
  { m with payloadSize := some size, transfer := some transfer }

/-- Whether the payload has to be fetched from its channel. -/
def needsTransfer (m : Message) : Bool := m.payload.isNone && m.transfer.isSome

/-- Whether this is an announcement. -/
def isIdentity (m : Message) : Bool := m.kind = .identity

/-- Where the message goes. -/
def route (m : Message) : Route := m.kind.route

end Message
end RadioLink
