import RadioLink.Air.Basic

/-!
# Switching and bonding radios
-/

namespace RadioLink.Air

/-- Switches the radio at `a` on. -/
def switchOn (air : Air) (a : Address) : Air :=
  air.updateRadio a fun r => { r with enabled := true }

/-- Switches the radio at `a` off, which closes its endpoints. What waits for a listener goes on
waiting. -/
def switchOff (air : Air) (a : Address) : Air :=
  air.updateRadio a fun r => { r with enabled := false, endpoints := [] }

/-- Bonds `a` and `b` with each other. -/
def bond (air : Air) (a b : Address) : Air :=
  (air.updateRadio a fun r => { r with bonded := Address.insertSorted b r.bonded }).updateRadio b
    fun r => { r with bonded := Address.insertSorted a r.bonded }

/-- Ends the bond between `a` and `b`. -/
def unbond (air : Air) (a b : Address) : Air :=
  (air.updateRadio a fun r => { r with bonded := r.bonded.filter (· ≠ b) }).updateRadio b
    fun r => { r with bonded := r.bonded.filter (· ≠ a) }

/-- Whether the radio at `a` is bonded with `b`. -/
def isBonded (air : Air) (a b : Address) : Bool := (air.radio a).bonded.contains b

/-- Makes the radio at `a` fail its next `count` attempts to connect. -/
def failNext (air : Air) (a : Address) (count : Nat) : Air :=
  air.updateRadio a fun r => { r with faults := count }

/-- Stops looking for devices at `a`. -/
def cancelDiscovery (air : Air) (a : Address) : Air :=
  air.updateRadio a fun r => { r with cancels := r.cancels + 1 }

end RadioLink.Air
