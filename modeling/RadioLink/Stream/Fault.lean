/-!
# Faults of streams

Why reading from a stream or writing to it fails.
-/

namespace RadioLink

/-- Why reading from a stream or writing to it fails. -/
inductive StreamFault where
  /-- The other end is gone. -/
  | brokenPipe
  /-- The stream ended before all that was asked for had come. -/
  | endedEarly
  /-- Anything else, in the words of the stream. -/
  | other (text : String)
  deriving DecidableEq, Repr

/-- The wording of the fault. -/
def StreamFault.message : StreamFault → String
  | .brokenPipe => "broken pipe"
  | .endedEarly => "early eof"
  | .other text => text

end RadioLink
