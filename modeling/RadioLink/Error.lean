import RadioLink.Address
import RadioLink.Json.Fault
import RadioLink.Stream.Fault

/-!
# Errors

Everything that can go wrong on a link, as a cause. `LinkError.message` gives the wording. Two
categories matter to callers: `LinkError.isFraming`, a frame that is not well formed, and
`LinkError.isConnection`, a connection that is not there.
-/

namespace RadioLink

/-- Why a frame is not well formed. -/
inductive MalformedFrame where
  /-- What should be a message is no text. -/
  | notUtf8
  /-- The payload to be sent holds the delimiter, first at `offset`. -/
  | delimiterInPayload (offset : Nat)
  /-- Nothing follows the delimiter. -/
  | noMessage
  /-- The payload is declared to be larger than a frame may be. -/
  | payloadTooLarge (size limit : Nat)
  /-- An announcement does not say which device it comes from. -/
  | noDeviceId
  | other (text : String)
  deriving DecidableEq, Repr

/-- Why no connection comes about. -/
inductive ConnectFault where
  /-- The radio was told to fail this attempt. -/
  | injected
  /-- The peer's radio is off or not there. -/
  | outOfRange
  /-- Nobody listens there. -/
  | noListener
  /-- The listener went away, or too many wait for it already. -/
  | listenerClosed
  | other (text : String)
  deriving DecidableEq, Repr

/-- A field of an encrypted message. -/
inductive EnvelopeField where
  | ephemeralKey | nonce | data
  deriving DecidableEq, Repr

/-- Why an encrypted message cannot be opened. -/
inductive DecryptionFault where
  | notEncrypted (kind : String)
  | missingField
  | notHex (field : EnvelopeField) (fault : Hex.Fault)
  | wrongLength (field : EnvelopeField)
  /-- The text does not belong to the key. -/
  | refused
  | other (text : String)
  deriving DecidableEq, Repr

/-- Why a message has nowhere to go. -/
inductive RoutingFault where
  | noSession (kind : String) (sender : Address)
  | other (text : String)
  deriving DecidableEq, Repr

/-- Why the registry refuses a session. -/
inductive RegistryFault where
  | duplicateSession
  | other (text : String)
  deriving DecidableEq, Repr

/-- Everything that can go wrong on a link. -/
inductive LinkError where
  | stream (fault : StreamFault)
  | serialization (fault : Json.Fault)
  | emptyFrame
  | malformedFrame (fault : MalformedFrame)
  | oversizedFrame (size : Nat)
  | invalidAddress (text : String)
  | connectFailed (fault : ConnectFault)
  | attemptsExhausted (attempts : Nat)
  | radioDisabled
  | timeout
  | encryption (text : String)
  | decryption (fault : DecryptionFault)
  | routing (fault : RoutingFault)
  | registry (fault : RegistryFault)
  | config (text : String)
  deriving DecidableEq, Repr

/-- The wording of the fault. -/
def MalformedFrame.message : MalformedFrame → String
  | .notUtf8 => "Serialized message is not valid UTF-8"
  | .delimiterInPayload offset =>
    "Payload contains the frame delimiter at offset " ++ toString offset
  | .noMessage => "Frame ends at the delimiter with no message"
  | .payloadTooLarge size limit =>
    "Payload too large: declared payload of " ++ toString size ++ " bytes exceeds "
      ++ toString limit
  | .noDeviceId => "Identity announcement without deviceId"
  | .other text => text

/-- The wording of the fault. -/
def ConnectFault.message : ConnectFault → String
  | .injected => "Injected connect failure"
  | .outOfRange => "Peer is not in range"
  | .noListener => "No listener registered for the requested service or channel"
  | .listenerClosed => "Listening endpoint closed"
  | .other text => text

/-- The name of the field in the message. -/
def EnvelopeField.name : EnvelopeField → String
  | .ephemeralKey => "ephemeralKey"
  | .nonce => "nonce"
  | .data => "data"

/-- The wording of the fault; the byte that is no digit is shown as the character with its code. -/
def hexFaultMessage : Hex.Fault → String
  | .oddLength => "Odd number of digits"
  | .notDigit byte index =>
    "Invalid character " ++ Text.quoteSingle (Char.ofNat byte.toNat) ++ " at position "
      ++ toString index

/-- The wording of the fault. -/
def DecryptionFault.message : DecryptionFault → String
  | .notEncrypted kind => "Message of type '" ++ kind ++ "' is not encrypted"
  | .missingField => "Encrypted message is missing an envelope field"
  | .notHex field fault =>
    "Envelope field '" ++ field.name ++ "' is not hex: " ++ hexFaultMessage fault
  | .wrongLength field => "Envelope field '" ++ field.name ++ "' has the wrong length"
  | .refused => "Decryption failed"
  | .other text => text

/-- The wording of the fault. -/
def RoutingFault.message : RoutingFault → String
  | .noSession kind sender =>
    "No session for message of type '" ++ kind ++ "' from " ++ toString sender
  | .other text => text

/-- The wording of the fault. -/
def RegistryFault.message : RegistryFault → String
  | .duplicateSession => "Session is already registered for this address"
  | .other text => text

namespace LinkError

/-- The wording of the error. -/
def message : LinkError → String
  | .stream fault => "I/O error: " ++ fault.message
  | .serialization fault => "Serialization error: " ++ fault.message
  | .emptyFrame => "Empty frame: 0 bytes of data received"
  | .malformedFrame fault => "Malformed frame: " ++ fault.message
  | .oversizedFrame size => "Frame too large: " ++ toString size ++ " bytes"
  | .invalidAddress text => "Invalid Bluetooth address: " ++ text
  | .connectFailed fault => "Connection failed: " ++ fault.message
  | .attemptsExhausted attempts =>
    "Gave up connecting after " ++ toString attempts ++ " attempts"
  | .radioDisabled => "Radio is disabled"
  | .timeout => "Timeout occurred"
  | .encryption text => "Encryption failed: " ++ text
  | .decryption fault => "Decryption failed: " ++ fault.message
  | .routing fault => "Routing error: " ++ fault.message
  | .registry fault => "Registry invariant violated: " ++ fault.message
  | .config text => "Configuration error: " ++ text

/-- Whether the error says that a frame is not well formed. -/
def isFraming : LinkError → Bool
  | .emptyFrame | .malformedFrame _ | .oversizedFrame _ | .serialization _ => true
  | _ => false

/-- Whether the error says that a connection is not there. -/
def isConnection : LinkError → Bool
  | .stream _ | .connectFailed _ | .attemptsExhausted _ | .radioDisabled | .timeout => true
  | _ => false

end LinkError

/-- The address that `s` stands for, or `invalidAddress s`. -/
def Address.ofString (s : String) : Except LinkError Address :=
  match ofString? s with
  | some a => .ok a
  | none => .error (.invalidAddress s)

end RadioLink
