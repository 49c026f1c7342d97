import RadioLink.World.Sending

/-!
# Asking for a send

A session is asked to send a message as it is, behind a payload, or encrypted by the application of
its node: an `Order`. A task is begun that sends it, or whoever asked is told at once that nothing
is sent, by a `Refusal`. What an application makes of a message is up to its `Encryption`.
-/

namespace RadioLink

/-- What a session is asked for. -/
inductive Order where
  /-- The message, behind the payload attached to it. -/
  | plain (m : Message)
  | behind (m : Message) (payload : Option Payload)
  /-- The message for the owner of `key`. The payload attached to it is not encrypted. -/
  | encrypted (m : Message) (key : X25519.Key)

/-- Why nothing is sent. -/
inductive Refusal where
  /-- The application of the session's node is gone. -/
  | gone
  /-- The application failed to encrypt the message. -/
  | unencrypted
  deriving DecidableEq

/-- How applications encrypt a message for the owner of a key, with the number of what is drawn for
it; `none` where they fail to. -/
abbrev Encryption := X25519.Key → Nat → Message → Option Message

/-- The encryption that every application has unless it brings its own: `Envelope.sealFor`. -/
def Encryption.standard (suite : Suite) (entropy : Entropy) : Encryption := fun key draws m =>
  some (Envelope.sealFor suite (entropy.key draws) (entropy.nonce draws) key m)

namespace World

/-- The send that the session `s` is asked for, or why there is none. -/
def order (encrypt : Encryption) (w : World) (s : Nat) :
    Order → Except Refusal Sending × World
  | .plain m => (.ok (.ofMessage s m), w)
  | .behind m payload => (.ok ⟨s, m, payload, .ready⟩, w)
  | .encrypted m key =>
    match w.sessions[s]? with
    | none => (.error .gone, w)
    | some x =>
      if x.detached then (.error .gone, w)
      else
        let v := { w with draws := w.draws + 1 }
        match encrypt key w.draws m.withoutPayload with
        | none => (.error .unencrypted, v.count x.node .sendFailure)
        | some sealed => (.ok ⟨s, sealed, m.payload.map .bytes, .ready⟩, v)

end World
end RadioLink
