import RadioLink.Error
import RadioLink.Frame.Delimiter
import RadioLink.Message.Printer
import RadioLink.Message.Reader

/-!
# Frames

A frame is one message, possibly with a payload in front of it:

    message
    payload delimiter message

There is no length anywhere: a frame ends where its connection ends. `decode` looks for the first
delimiter, so `encode` refuses a payload that holds one.
-/

namespace RadioLink

/-- The message whose written form is `bs`. -/
def Message.ofBytes (bs : Bytes) : Except LinkError Message :=
  match Bytes.text? bs with
  | none => .error (.malformedFrame .notUtf8)
  | some text =>
    match Message.ofJson text with
    | .ok m => .ok m
    | .error fault => .error (.serialization fault)

/-- The bytes of `m` in a frame: its written form, without a delimiter. -/
def Message.wire (m : Message) : Bytes := Delimiter.escape (Bytes.ofText m.toJson)

/-- A message and the payload in front of it. -/
structure Frame where
  payload : Option Bytes
  message : Message
  deriving DecidableEq

namespace Frame

/-- The message with the payload attached. -/
def intoMessage (f : Frame) : Message :=
  match f.payload with
  | some p => f.message.setPayload p
  | none => f.message

/-- Refuses a payload that holds the delimiter. -/
def checkPayload (payload : Bytes) : Except LinkError Unit :=
  match Delimiter.find? payload with
  | some i => .error (.malformedFrame (.delimiterInPayload i))
  | none => .ok ()

/-- What stands in front of the message. -/
def lead : Option Bytes → Bytes
  | none => []
  | some p => p ++ Delimiter.bytes

/-- The bytes of the frame of `message` and `payload`. -/
def encode (message : Message) (payload : Option Bytes) : Except LinkError Bytes :=
  match payload with
  | none => .ok message.wire
  | some p =>
    match checkPayload p with
    | .error e => .error e
    | .ok () => .ok (lead (some p) ++ message.wire)

/-- The frame whose bytes are `bs`. -/
def decode (bs : Bytes) : Except LinkError Frame :=
  if bs = [] then .error .emptyFrame
  else
    match Delimiter.find? bs with
    | none =>
      match Message.ofBytes bs with
      | .ok m => .ok ⟨none, m⟩
      | .error e => .error e
    | some i =>
      let rest := bs.drop (i + Delimiter.size)
      if rest = [] then .error (.malformedFrame .noMessage)
      else
        match Message.ofBytes rest with
        | .ok m => .ok ⟨some (bs.take i), m⟩
        | .error e => .error e

/-- `size` as the size of a payload, unless it is more than `limit`. -/
def checkPayloadSize (size : UInt64) (limit : Nat) : Except LinkError Nat :=
  if size.toNat ≤ limit then .ok size.toNat
  else .error (.malformedFrame (.payloadTooLarge size.toNat limit))

/-- The size that a frame may have unless something else is said. -/
def defaultLimit : Nat := 16 * 1024 * 1024

end Frame
end RadioLink
