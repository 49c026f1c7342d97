import RadioLink.Frame.Basic

/-!
# Frames through a buffer

Bytes gather in a buffer until their connection ends; only then do they make a frame (`decodeEnd`).
A buffer may hold no more than a frame may have, which is `Codec.limit`.
-/

namespace RadioLink

/-- Turns a buffer into frames and frames into a buffer. -/
structure Codec where
  /-- The size that a frame may have. -/
  limit : Nat := Frame.defaultLimit

namespace Codec

/-- Refuses a `size` above the limit. -/
def checkSize (c : Codec) (size : Nat) : Except LinkError Unit :=
  if size > c.limit then .error (.oversizedFrame size) else .ok ()

/-- Looks at a buffer to which more may come: there is no frame yet. -/
def decode (c : Codec) (buffer : Bytes) : Except LinkError (Option Frame) :=
  match c.checkSize buffer.length with
  | .ok () => .ok none
  | .error e => .error e

/-- The frame in a buffer to which nothing more comes, and the buffer afterwards. A buffer within
the limit is used up, whether it was a frame or not. -/
def decodeEnd (c : Codec) (buffer : Bytes) : Except LinkError (Option Frame) × Bytes :=
  if buffer = [] then (.ok none, [])
  else
    match c.checkSize buffer.length with
    | .error e => (.error e, buffer)
    | .ok () =>
      match Frame.decode buffer with
      | .ok f => (.ok (some f), [])
      | .error e => (.error e, [])

/-- The number of bytes in front of the message. -/
def leadSize : Option Bytes → Nat
  | none => 0
  | some p => p.length + Delimiter.size

/-- Appends `frame` to the buffer, which is given back as it is afterwards. Nothing is appended
before everything has been checked. -/
def append (c : Codec) (frame : Frame) (buffer : Bytes) : Except LinkError Unit × Bytes :=
  match frame.payload.elim (.ok ()) Frame.checkPayload with
  | .error e => (.error e, buffer)
  | .ok () =>
    let message := frame.message.wire
    match c.checkSize (leadSize frame.payload + message.length) with
    | .error e => (.error e, buffer)
    | .ok () =>
      let buffer :=
        match frame.payload with
        | none => buffer
        | some p => buffer ++ p ++ Delimiter.bytes
      (.ok (), buffer ++ message)

/-- The buffer with `frame` appended. -/
def encode (c : Codec) (frame : Frame) (buffer : Bytes) : Except LinkError Bytes :=
  match c.append frame buffer with
  | (.ok (), buffer) => .ok buffer
  | (.error e, _) => .error e

end Codec
end RadioLink
