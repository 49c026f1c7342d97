import RadioLink.Error

/-!
# Deadlines

Work that takes some time, or never ends, under a limit. Work that ends just at the limit is in
time, and work beyond it is a `LinkError.timeout` known at the limit.
-/

namespace RadioLink

/-- Work that ends with `result` after some time, or never. -/
structure TimedWork (α : Type) where
  /-- When the work ends. -/
  duration : Option Nat
  result : Except LinkError α

/-- The outcome of `w` under `limit`, and when it is known. -/
def TimedWork.within (limit : Nat) (w : TimedWork α) : Except LinkError α × Nat :=
  match w.duration with
  | some d => if d ≤ limit then (w.result, d) else (.error .timeout, limit)
  | none => (.error .timeout, limit)

end RadioLink
