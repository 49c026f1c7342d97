import RadioLink.Json.StringLiteral
import RadioLink.Json.Number

/-!
# Values that are passed over

A member that nobody asked for may hold any value, nested to any depth. `skippedValue` only checks
its form, with the containers around the current place kept on a stack, `Nesting.inside`.
-/

namespace RadioLink.Json

/-- A list or an object that has been opened and not closed. -/
inductive Container where
  | list | object
  deriving DecidableEq, Repr

namespace Container

/-- The closing bracket. -/
def closer : Container → Char
  | .list => ']'
  | .object => '\x7d'

/-- The fault of a text that ends inside. -/
def ended : Container → Fault
  | .list => .ended .list
  | .object => .ended .object

/-- The fault of anything but a comma or the closing bracket after a value. -/
def expectedEnd : Container → Fault
  | .list => .expectedListEnd
  | .object => .expectedObjectEnd

end Container

/-- Where a value that is passed over stands: inside containers, the innermost first, after a value
(`comma`) or just after the opening bracket of the innermost. -/
structure Nesting where
  comma : Bool
  inside : List Container

namespace Reader

open Text.Reader

/-- The start of a value that is not wanted, whose first character `c` has been taken: all of it, or
the opening bracket of a container. -/
def skippedFrom (inside : List Container) (c : Char) : Reader Nesting := do
  let whole : Nesting := ⟨true, inside⟩
  if c = 'n' then do word ['u', 'l', 'l']; Pure.pure whole
  else if c = 't' then do word ['r', 'u', 'e']; Pure.pure whole
  else if c = 'f' then do word ['a', 'l', 's', 'e']; Pure.pure whole
  else if c = '"' then do skippedString; Pure.pure whole
  else if c = '[' then Pure.pure ⟨false, .list :: inside⟩
  else if c = '\x7b' then Pure.pure ⟨false, .object :: inside⟩
  else if startsNumber c then do skippedNumber c; Pure.pure whole
  else fail .expectedValue

/-- The start of a value that is not wanted. -/
def skippedStart (inside : List Container) : Reader Nesting := do
  skippedFrom inside (← take (.ended .value))

/-- The rest of a member that is not wanted: its name, whose first character `c` has been taken, and
the start of its value. -/
def skippedMember (inside : List Container) (c : Char) : Reader Nesting := do
  if c = '"' then do
    skippedString
    colon
    skippedStart inside
  else fail .keyNotString

/-- One round inside a container: its closing bracket, or the start of the next value in it. -/
def skippedStep (comma : Bool) (innermost : Container) (outer : List Container) :
    Reader Nesting := do
  let c ← take innermost.ended
  let inside := innermost :: outer
  if c = innermost.closer then Pure.pure ⟨true, outer⟩
  else if comma then
    if c = ',' then
      match innermost with
      | .list => skippedStart inside
      | .object => do skippedMember inside (← take (.ended .object))
    else fail innermost.expectedEnd
  else
    match innermost with
    | .list => skippedFrom inside c
    | .object => skippedMember inside c

/-- Closes all containers of `n`. -/
def skippedLoop (n : Nesting) (cs : List Char) : Except Fault (Unit × List Char) :=
  match n.inside with
  | [] => .ok ((), cs)
  | innermost :: outer =>
    match _h : (skippedStep n.comma innermost outer).run cs with
    | .error fault => .error fault
    | .ok (n, rest) => skippedLoop n rest
  termination_by cs.length
  decreasing_by exact (consumes_take _).bind _ ‹_›

theorem skippedLoop_shrinks {n : Nesting} {cs : List Char} {a : Unit} {rest : List Char}
    (h : skippedLoop n cs = .ok (a, rest)) : rest.length ≤ cs.length := by
  fun_induction skippedLoop n cs with
  | case1 =>
    injection h with h; injection h with _ h; subst h
    exact Nat.le_refl _
  | case2 => cases h
  | case3 _ cs _ _ _ _ _ hs ih => exact Nat.le_trans (ih h) ((skippedStep _ _ _).shrinks hs)

/-- Passes over a value. -/
def skippedValue : Reader Unit := do
  let n ← skippedStart []
  ⟨skippedLoop n, skippedLoop_shrinks⟩

end Reader
end RadioLink.Json
