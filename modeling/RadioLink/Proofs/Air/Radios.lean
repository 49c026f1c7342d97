import RadioLink.Proofs.Address
import RadioLink.Proofs.Air.Acts

/-!
# What becomes of the radios

An act touches few radios, and each of them in one way. `Act.alter` says in which; everything else
that is said of switches, bonds and endpoints is read off `radio_perform`:

    (air.perform x).radio a = x.alter air a (air.radio a)
-/

namespace RadioLink.Air

/-- What an act on `air` makes of `r`, the radio at `a`. -/
def Act.alter (air : Air) (a : Address) (r : Radio) : Act → Radio
  | .listen owner e =>
    if owner = a ∧ r.enabled then
      { r with endpoints := (e, air.opened + 1) :: r.endpoints.filter (·.1 ≠ e) }
    else r
  | .close id =>
    match air.place? id with
    | none => r
    | some (owner, e) =>
      if owner = a then { r with endpoints := r.endpoints.filter (· ≠ (e, id)) } else r
  | .connect caller callee e =>
    if caller = a then
      { r with
        attempts := r.attempts ++ [(callee, e)]
        faults := if r.enabled then r.faults - 1 else r.faults }
    else r
  | .switchOn b => if b = a then { r with enabled := true } else r
  | .switchOff b => if b = a then { r with enabled := false, endpoints := [] } else r
  | .bond b c =>
    -- who is bonded with itself is altered twice
    let r := if b = a then { r with bonded := Address.insertSorted c r.bonded } else r
    if c = a then { r with bonded := Address.insertSorted b r.bonded } else r
  | .unbond b c =>
    let r := if b = a then { r with bonded := r.bonded.filter (· ≠ c) } else r
    if c = a then { r with bonded := r.bonded.filter (· ≠ b) } else r
  | .failNext b count => if b = a then { r with faults := count } else r
  | .cancelDiscovery b => if b = a then { r with cancels := r.cancels + 1 } else r
  | .ask _ | .abandon _ | .accept _ | .write _ _ | .read _ _ | .shutdown _ | .drop _
  | .disrupt _ _ => r

variable {air air' : Air} {a b : Address} {e : Endpoint} {id : Nat} {x : Act}

/-- `updateRadio b f`, told of the radio at any address. -/
theorem radio_of_radios {f : Radio → Radio} (h : air'.radios = (air.updateRadio b f).radios) :
    air'.radio a = if b = a then f (air.radio a) else air.radio a := by
  have hradio : air'.radio a = (air.updateRadio b f).radio a := by rw [radio, h, ← radio]
  rw [hradio, radio_updateRadio]
  split
  · next heq => rw [heq]
  · rfl

/-- **An act alters each radio by itself.** -/
theorem radio_perform (air : Air) (a : Address) (x : Act) :
    (air.perform x).radio a = x.alter air a (air.radio a) := by
  cases x with
  | listen owner e =>
    by_cases hon : (air.radio owner).enabled = true
    · have hradios : (air.listen owner e).2.radios = (air.updateRadio owner fun r => { r with
          endpoints := (e, air.opened + 1) :: r.endpoints.filter (·.1 ≠ e) }).radios :=
        congrArg (fun r : Except LinkError Nat × Air => r.2.radios) (if_pos hon)
      refine (radio_of_radios hradios).trans ?_
      by_cases howner : owner = a
      · rw [if_pos howner, Act.alter, if_pos ⟨howner, howner ▸ hon⟩]
      · rw [if_neg howner, Act.alter, if_neg fun h => howner h.1]
    · -- who is off cannot listen
      have hradios : (air.listen owner e).2.radios = air.radios :=
        congrArg (fun r : Except LinkError Nat × Air => r.2.radios) (if_neg hon)
      have hnot : ¬ (owner = a ∧ (air.radio a).enabled = true) := by
        rintro ⟨rfl, hon'⟩
        exact hon hon'
      rw [Act.alter, if_neg hnot, perform, radio, hradios, ← radio]
  | close id =>
    unfold perform closeListener Act.alter place?
    dsimp only
    cases air.listeners.get? id with
    | none => rfl
    | some l => exact radio_of_radios rfl
  | connect caller callee e =>
    have hradios : (air.connect caller callee e).2.radios =
        (air.updateRadio caller fun r => { r with
        attempts := r.attempts ++ [(callee, e)]
        faults := if r.enabled then r.faults - 1 else r.faults }).radios := by
      unfold connect
      dsimp only
      split <;> rfl
    exact radio_of_radios hradios
  | accept id =>
    unfold perform accept
    dsimp only
    split
    · rfl
    · split
      · split <;> rfl
      · rfl
  | write stream bytes | read stream size =>
    unfold perform
    dsimp only [write, read]
    split <;> rfl
  | switchOn b | switchOff b | failNext b count | cancelDiscovery b => exact radio_of_radios rfl
  | bond b c | unbond b c =>
    -- both ends of a bond are altered, one after the other
    refine (radio_of_radios (b := c) rfl).trans ?_
    rw [radio_of_radios (b := b) rfl]
    rfl
  | ask _ | abandon _ | shutdown _ | drop _ | disrupt _ _ => rfl

/-! ### Bonds -/

theorem isBonded_iff : air.isBonded a b = true ↔ b ∈ (air.radio a).bonded := by
  rw [isBonded, List.contains_iff_mem]

/-- Two radios are bonded by `bond`, in either order, until `unbond`, in either order. -/
theorem isBonded_perform : (air.perform x).isBonded a b = true ↔
    (x = .bond a b ∨ x = .bond b a) ∨
      air.isBonded a b = true ∧ x ≠ .unbond a b ∧ x ≠ .unbond b a := by
  rw [isBonded_iff, isBonded_iff, radio_perform]
  cases x with
  | bond c d =>
    have hends : (Act.bond c d = .bond a b ∨ Act.bond c d = .bond b a)
        ↔ c = a ∧ d = b ∨ d = a ∧ c = b := by simp [and_comm]
    rw [hends, Act.alter]
    by_cases hc : c = a <;> by_cases hd : d = a <;>
      simp [hc, hd, Address.mem_insertSorted, eq_comm (a := b)]
  | unbond c d =>
    rw [Act.alter]
    by_cases hc : c = a <;> by_cases hd : d = a <;> simp [hc, hd, eq_comm (a := b)]
  | listen owner e | connect caller callee e | switchOn b | switchOff b | failNext b count
  | cancelDiscovery b =>
    rw [Act.alter]
    split <;> simp
  | close id =>
    rw [Act.alter]
    split
    · simp
    · split <;> simp
  | ask _ | abandon _ | accept _ | write _ _ | read _ _ | shutdown _ | drop _ | disrupt _ _ =>
    simp [Act.alter]

/-! ### Switches and endpoints -/

/-- The act opens a listener at the endpoint `e` of `a`, under the number `air.opened + 1`. -/
def Act.Opens (air : Air) (a : Address) (e : Endpoint) (x : Act) : Prop :=
  x = .listen a e ∧ (air.radio a).enabled = true

/-- `(e, id)` is in the endpoints of `a` from when the listener is opened, until another one is
opened there, it is closed, or the radio is switched off. -/
theorem mem_endpoints_perform : (e, id) ∈ ((air.perform x).radio a).endpoints ↔
    x.Opens air a e ∧ id = air.opened + 1 ∨
      (e, id) ∈ (air.radio a).endpoints ∧ ¬ x.Opens air a e ∧ x ≠ .switchOff a ∧
        ¬ (x = .close id ∧ air.place? id = some (a, e)) := by
  rw [radio_perform]
  unfold Act.Opens
  cases x with
  | listen owner e' =>
    rw [Act.alter]
    by_cases howner : owner = a
    · subst howner
      by_cases hon : (air.radio owner).enabled = true
      · rw [if_pos ⟨rfl, hon⟩]
        simp only [List.mem_cons, List.mem_filter, Prod.mk.injEq, decide_eq_true_eq,
          Act.listen.injEq]
        grind
      · simp [hon]
    · simp [howner]
  | close id' =>
    rw [Act.alter]
    split
    · next hnone =>
      have hnot : ¬ (id' = id ∧ air.place? id = some (a, e)) := by
        rintro ⟨rfl, h⟩
        cases hnone.symm.trans h
      simp [hnot]
    · next owner e' hid =>
      by_cases howner : owner = a
      · subst howner
        rw [if_pos rfl]
        simp only [List.mem_filter, Act.close.injEq, decide_eq_true_eq]
        grind
      · have hnot : ¬ (id' = id ∧ air.place? id = some (a, e)) := by
          rintro ⟨rfl, h⟩
          cases hid.symm.trans h
          exact howner rfl
        simp [howner, hnot]
  | switchOff b =>
    rw [Act.alter]
    split
    · next h => simp [h]
    · next h => simp [h]
  | connect caller callee e' | switchOn b | failNext b count | cancelDiscovery b =>
    rw [Act.alter]
    split <;> simp
  | bond c d | unbond c d =>
    rw [Act.alter]
    by_cases hc : c = a <;> by_cases hd : d = a <;> simp [hc, hd]
  | ask _ | abandon _ | accept _ | write _ _ | read _ _ | shutdown _ | drop _ | disrupt _ _ =>
    simp [Act.alter]

/-- A radio is on from `switchOn` until `switchOff`. -/
theorem enabled_perform_iff : ((air.perform x).radio a).enabled = true ↔
    x = .switchOn a ∨ (air.radio a).enabled = true ∧ x ≠ .switchOff a := by
  rw [radio_perform]
  cases x with
  | switchOn b | switchOff b =>
    rw [Act.alter]
    split
    · next h => simp [h]
    · next h => simp [h]
  | listen owner e | connect caller callee e | failNext b count | cancelDiscovery b =>
    rw [Act.alter]
    split <;> simp
  | close id =>
    rw [Act.alter]
    split
    · simp
    · split <;> simp
  | bond c d | unbond c d =>
    rw [Act.alter]
    by_cases hc : c = a <;> by_cases hd : d = a <;> simp [hc, hd]
  | ask _ | abandon _ | accept _ | write _ _ | read _ _ | shutdown _ | drop _ | disrupt _ _ =>
    simp [Act.alter]

end RadioLink.Air
