import RadioLink.World.Basic

/-!
# Peers without a node

Two kinds of peer that follow no protocol: one serves some bytes to whoever connects first, one
reads every connection to its end and keeps what it brings.
-/

namespace RadioLink.World

/-- One step of serving some bytes, unless it has to wait. -/
def stepServing (w : World) (t : Nat) (s : Serving) : Option World :=
  match s.stream with
  | none =>
    match w.air.accept s.listener with
    | (.pending, _) => none
    | (.connected stream, air) =>
      some ({ w with air }.become t (.serving { s with stream := some stream }))
    | (.error _, air) =>
      some ({ w with air := air.closeListener s.listener }.finish t .done)
  | some stream =>
    let leave (air : Air) : World :=
      { w with air := (air.drop stream).closeListener s.listener }.finish t .done
    if s.content = [] then if s.hold then none else some (leave (w.air.shutdown stream))
    else
      match w.air.write stream s.content with
      | (.taken count, air) =>
        some ({ w with air }.become t (.serving { s with content := s.content.drop count }))
      | (.full, _) => none
      | (.broken, air) => some (leave air)

/-- The most bytes that are read at once. -/
def captureSize : Nat := 65536

/-- One step of capturing, unless it has to wait. -/
def stepCapturing (w : World) (t : Nat) (c : Capturing) : Option World :=
  match c.reading with
  | none =>
    match w.air.accept c.listener with
    | (.pending, _) => none
    | (.connected stream, air) =>
      some ({ w with air }.become t (.capturing { c with reading := some (stream, []) }))
    | (.error _, air) =>
      some ({ w with air := air.closeListener c.listener }.finish t .done)
  | some (stream, pieces) =>
    match w.air.read stream captureSize with
    | (.pending, _) => none
    | (.data bytes, air) =>
      some ({ w with air }.become t
        (.capturing { c with reading := some (stream, bytes :: pieces) }))
    | (_, air) =>
      match air.remote? stream with
      | none => none
      | some sender =>
        let received := (sender, pieces.reverse.flatten)
        some ({ w with
            air := air.drop stream
            sinks := w.sinks.modify c.sink (· ++ [received]) }.become t
          (.capturing { c with reading := none }))

end RadioLink.World
