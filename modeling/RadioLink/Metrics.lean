/-!
# Counters

What a link counts: `Metrics.count` says which counters each `Counted` event adds to. Counters have
64 bits and start again from zero beyond them.
-/

namespace RadioLink

/-- What a link has counted so far. -/
structure Metrics where
  connectAttempts : UInt64 := 0
  connectFailures : UInt64 := 0
  connectionsAccepted : UInt64 := 0
  framesSent : UInt64 := 0
  framesReceived : UInt64 := 0
  bytesSent : UInt64 := 0
  bytesReceived : UInt64 := 0
  sendFailures : UInt64 := 0
  framingErrors : UInt64 := 0
  decryptionFailures : UInt64 := 0
  routingFailures : UInt64 := 0
  announcementsSent : UInt64 := 0
  sessionsAccepted : UInt64 := 0
  sessionsLost : UInt64 := 0
  deriving DecidableEq, Repr

/-- Something that is counted. -/
inductive Counted where
  | connectAttempt
  | connectFailure
  | connectionAccepted
  | frameSent (bytes : UInt64)
  | frameReceived (bytes : UInt64)
  | sendFailure
  | framingError
  | decryptionFailure
  | routingFailure
  | announcementSent
  | sessionAccepted
  | sessionLost
  deriving DecidableEq, Repr

/-- The counters after one more event. -/
def Metrics.count (m : Metrics) : Counted → Metrics
  | .connectAttempt => { m with connectAttempts := m.connectAttempts + 1 }
  | .connectFailure => { m with connectFailures := m.connectFailures + 1 }
  | .connectionAccepted => { m with connectionsAccepted := m.connectionsAccepted + 1 }
  | .frameSent bytes =>
    { m with framesSent := m.framesSent + 1, bytesSent := m.bytesSent + bytes }
  | .frameReceived bytes =>
    { m with framesReceived := m.framesReceived + 1, bytesReceived := m.bytesReceived + bytes }
  | .sendFailure => { m with sendFailures := m.sendFailures + 1 }
  | .framingError => { m with framingErrors := m.framingErrors + 1 }
  | .decryptionFailure => { m with decryptionFailures := m.decryptionFailures + 1 }
  | .routingFailure => { m with routingFailures := m.routingFailures + 1 }
  | .announcementSent => { m with announcementsSent := m.announcementsSent + 1 }
  | .sessionAccepted => { m with sessionsAccepted := m.sessionsAccepted + 1 }
  | .sessionLost => { m with sessionsLost := m.sessionsLost + 1 }

/-- The counters with their names. -/
def Metrics.entries (m : Metrics) : List (String × UInt64) :=
  [("connect_attempts", m.connectAttempts), ("connect_failures", m.connectFailures),
   ("connections_accepted", m.connectionsAccepted), ("frames_sent", m.framesSent),
   ("frames_received", m.framesReceived), ("bytes_sent", m.bytesSent),
   ("bytes_received", m.bytesReceived), ("send_failures", m.sendFailures),
   ("framing_errors", m.framingErrors), ("decryption_failures", m.decryptionFailures),
   ("routing_failures", m.routingFailures), ("announcements_sent", m.announcementsSent),
   ("sessions_accepted", m.sessionsAccepted), ("sessions_lost", m.sessionsLost)]

/-- The event that a name stands for; `bytes` is the size of a frame. -/
def Counted.ofName? (bytes : UInt64) : String → Option Counted
  | "connect_attempt" => some .connectAttempt
  | "connect_failure" => some .connectFailure
  | "connection_accepted" => some .connectionAccepted
  | "frame_sent" => some (.frameSent bytes)
  | "frame_received" => some (.frameReceived bytes)
  | "send_failure" => some .sendFailure
  | "framing_error" => some .framingError
  | "decryption_failure" => some .decryptionFailure
  | "routing_failure" => some .routingFailure
  | "announcement_sent" => some .announcementSent
  | "session_accepted" => some .sessionAccepted
  | "session_lost" => some .sessionLost
  | _ => none

end RadioLink
