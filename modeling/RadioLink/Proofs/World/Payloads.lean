import RadioLink.Proofs.Message.Read
import RadioLink.Proofs.World.Fetching

/-!
# Messages and their payloads

A message that is handled is delivered once, and its payload with it if that can be had. A payload
with a `payloadSize` is had as a whole or not at all (`Errand.Fetched.length_eq`). One without is
taken up to `maxFrameSize` bytes, and what goes beyond is left behind without a word
(`unsized_payload`).
-/

namespace RadioLink

open World (KeepsFetches History)

/-! ### Sizes -/

/-- If there is a payload, its length is the declared size. -/
def Message.Tallies (m : Message) : Prop :=
  ∀ payload, m.payload = some payload → m.payloadSize = some (UInt64.ofNat payload.length)

/-- A message without a payload that is given one has that and no other. -/
theorem Message.payload_elim (m : Message) (h : m.payload = none) (payload : Option Bytes) :
    (payload.elim m m.setPayload).payload = payload := by
  cases payload with
  | none => exact h
  | some bytes => rfl

/-- What `Application.given` says was delivered tells the payload that the message was given. -/
theorem Message.payload_of_given {m : Message} {app : Application} {inbound : Option Accepting}
    {payload : Option Bytes} {bytes : Bytes} {o : Outcome} {ds : List Message}
    (h : m.payload = none)
    (hgiven : app.given inbound (payload.elim m m.setPayload) = (o, ds))
    (hds : ds = [m.setPayload bytes]) : payload = some bytes := by
  subst hds
  unfold Application.given at hgiven
  split at hgiven
  · cases hgiven
  · have hm := List.head_eq_of_cons_eq (congrArg Prod.snd hgiven)
    rw [← m.payload_elim h payload, hm]
    rfl

/-- What `decrypt` returns has no payload of its own. -/
def Decryption.Bare (decrypt : Decryption) : Prop :=
  ∀ m inner, decrypt m = .ok inner → inner.payload = none

/-- A payload that was `Fetched` has the declared size, which is at most `maxFrameSize`. -/
theorem Errand.Fetched.length_eq {r : Errand} {t : Nat} {events : List Event} {payload : Bytes}
    {size : UInt64} (h : r.Fetched t events (some payload))
    (declared : r.message.payloadSize = some size) :
    payload.length = size.toNat ∧ size.toNat ≤ r.node.config.service.maxFrameSize := by
  have hwants {link since taken : Nat} {sized : Bool}
      (begun : r.Begun t events link since taken sized) :
      size.toNat ≤ r.node.config.service.maxFrameSize ∧ taken = size.toNat ∧ sized = true := by
    obtain ⟨hwants, -⟩ := begun
    rwa [Handling.Wants, declared] at hwants
  cases h with
  | full begun found =>
    obtain ⟨hle, rfl, -⟩ := hwants begun
    obtain ⟨past, y, later, -, -, henough, rfl, -⟩ := found
    exact ⟨List.length_take_of_le henough, hle⟩
  | ended begun _ =>
    obtain ⟨-, -, hsized⟩ := hwants begun
    cases hsized

/-! ### Delivering -/

namespace World

variable {t : Nat} {d : Handling} {inbound : Option Accepting} {x : Session} {node : Node}
  {w w' : World} {events : List Event}

/-- A task with a `Handling` at its beginning has a `Parcel.Progress` after every event. -/
theorem History.handled (hready : d.stage = .ready) (hsession : w.sessions[d.session]? = some x)
    (hattached : x.detached = false) (hnode : w.nodes[x.node]? = some node)
    (hsite : ∀ a ∈ inbound, a.node = x.node)
    (htask : w.tasks[t]? = some { activity := d.within inbound }) (halone : w.Alone t)
    (h : History (KeepsFetches t) w events w') :
    (w'.outcome? t = none → w'.step t = none →
      ∃ timer, w'.timer? t = some timer ∧ w'.now < timer.due) ∧
    events.countP (·.cause = .task t) ≤ node.config.service.maxFrameSize + 3 ∧
    ∀ o, w'.outcome? t = some o →
      (⟨d.session, d.message, inbound, x.lasting, node.settings⟩ : Parcel).Fate t events o
        (share x.node t events) := by
  obtain ⟨session, message, stage⟩ := d
  obtain rfl : stage = .ready := hready
  have hosted : Parcel.Hosted ⟨session, message, inbound, x.lasting, node.settings⟩ w := by
    refine ⟨?_, ?_, hattached, hsite⟩
    · show w.settings? x.node = some node.settings
      rw [settings?, hnode, Option.map_some]
    · show w.lasting? session = some x.lasting
      rw [lasting?, hsession, Option.map_some]
  obtain ⟨⟨hosted', -⟩, task, left, htask', hprogress, hcount⟩ := h.parcel hosted halone htask
  have houtcome : w'.outcome? t = task.outcome := by rw [outcome?, htask', Option.bind_some]
  rw [houtcome]
  refine ⟨fun hnone hstep => hprogress.waits hosted' htask' hnone hstep,
    Nat.le_trans (Nat.le_add_right _ left) hcount, fun o ho => ?_⟩
  have hnode : x.lasting.node = x.node := rfl
  rw [hnode] at hprogress
  generalize share x.node t events = gain at hprogress ⊢
  cases hprogress with
  | ready | underway => cases ho
  | settled fate outcome =>
    cases ho.symm.trans outcome
    exact fate

/-- **A payload of no declared size is cut off at the size of a frame.** Whatever the peer writes,
and in whatever pieces, the message is delivered with the first `maxFrameSize` bytes of it, or
without any payload where nothing is `Fetched`. Only what is shorter than `maxFrameSize` is known to
be all there is. -/
theorem unsized_payload {m : Message} {transfer : Transfer} {o : Outcome}
    (hready : d.stage = .ready)
    (hsession : w.sessions[d.session]? = some x) (hattached : x.detached = false)
    (hnode : w.nodes[x.node]? = some node) (hsite : ∀ a ∈ inbound, a.node = x.node)
    (htask : w.tasks[t]? = some { activity := d.within inbound }) (halone : w.Alone t)
    (hopened : Handling.opened node.app.decrypt d.message = .ok m) (hbare : m.payload = none)
    (hannounced : m.transfer = some transfer) (hsize : m.payloadSize = none)
    (h : History (KeepsFetches t) w events w') (ho : w'.outcome? t = some o) :
    let errand : Errand := ⟨m, node.settings, x.peer.address, transfer.channel⟩
    let limit := node.config.service.maxFrameSize
    ∃ payload ds, node.app.given inbound (payload.elim m m.setPayload) = (o, ds) ∧
      share x.node t events = ⟨{}, ds, []⟩ ∧
      match payload with
      | none => errand.Fetched t events none
      | some bytes => ∃ link since, errand.Begun t events link since limit false ∧
        bytes = (carried events ⟨link, .callee⟩).take limit ∧
        (bytes.length < limit → bytes = carried events ⟨link, .callee⟩ ∧
          w'.air.isClosed ⟨link, .callee⟩ = true) := by
  intro errand limit
  obtain ⟨-, -, hfate⟩ := h.handled hready hsession hattached hnode hsite htask halone
  have hfate := hfate o ho
  generalize share x.node t events = gain at hfate ⊢
  have hwants {link since size : Nat} {sized : Bool}
      (begun : errand.Begun t events link since size sized) : size = limit ∧ sized = false := by
    obtain ⟨hwants, -⟩ := begun
    rwa [Handling.Wants, hsize] at hwants
  cases hfate with
  | undecipherable opened => cases hopened.symm.trans opened
  | plain opened complete =>
    cases hopened.symm.trans opened
    simp [Message.needsTransfer, hbare, hannounced] at complete
  | @fetched _ _ payload _ _ opened _ announced _ fetched given =>
    cases hopened.symm.trans opened
    cases hannounced.symm.trans announced
    refine ⟨payload, _, given, rfl, ?_⟩
    cases payload with
    | none => exact fetched
    | some bytes =>
      cases fetched with
      | @full link since size sized _ begun found =>
        obtain ⟨rfl, rfl⟩ := hwants begun
        obtain ⟨past, y, later, rfl, -, henough, rfl, -⟩ := found
        refine ⟨link, since, begun, ?_, fun hlt => ?_⟩
        · rw [carried_append, List.take_append_of_le_length henough]
        · rw [List.length_take_of_le henough] at hlt
          exact absurd hlt (Nat.lt_irrefl _)
      | @ended link since size _ begun found =>
        obtain ⟨rfl, -⟩ := hwants begun
        obtain ⟨past, y, later, hevents, -, hlt, rfl, hclosed, -⟩ := found
        obtain ⟨hclosed', hall⟩ := h.carried_of_isClosed hevents hclosed
        refine ⟨link, since, begun, ?_, fun _ => ⟨hall.symm, hclosed'⟩⟩
        rw [hall, List.take_of_length_le (Nat.le_of_lt hlt)]

/-- The peer writes three bytes and ends, which is all there is. -/
theorem unsized_payload_short :
    let a : Address := ⟨#v[2, 0, 0, 0, 0, 1]⟩
    let b : Address := ⟨#v[2, 0, 0, 0, 0, 2]⟩
    let m : Message := { Message.ofKind 5 (.ofName "x") with transfer := some ⟨7⟩ }
    let node : Node :=
      { address := a, config := {},
        app := { deviceId := "p", secret := Vector.replicate 32 1,
                 announcement := .ofKind 1 .identity } }
    let w : World :=
      { nodes := #[node], sessions := #[.ofPeer 0 ⟨b, none⟩]
        air := [.switchOn a, .switchOn b, .listen b (.channel 7)].foldl Air.perform {}
        tasks := #[{ activity := .handling { session := 0, message := m } },
          { activity := .serving { listener := 1, content := [1, 2, 3], hold := false } }] }
    ∃ events w' link, w.replay? [.task 0, .task 1, .task 1, .task 0, .task 0, .task 1, .task 0]
        = some (events, w') ∧ w'.outcome? 0 = some .done ∧
      (share 0 0 events).delivered = [m.setPayload [1, 2, 3]] ∧
      carried events ⟨link, .callee⟩ = [1, 2, 3] ∧ w'.air.isClosed ⟨link, .callee⟩ = true := by
  intro a b m node w
  have hrun : (w.replay? [.task 0, .task 1, .task 1, .task 0, .task 0, .task 1, .task 0]).map
      (fun r => decide (r.2.outcome? 0 = some .done ∧
        (share 0 0 r.1).delivered = [m.setPayload [1, 2, 3]])) = some true := by decide +kernel
  obtain ⟨⟨events, w'⟩, hreplay, hend⟩ := Option.map_eq_some_iff.1 hrun
  obtain ⟨hdone, hdelivered⟩ := of_decide_eq_true hend
  have halone : w.Alone 0 := alone_of_draws fun r task htask => by
    rcases r with _ | _ | r <;> cases htask <;> rfl
  have hsession : w.sessions[0]? = some (.ofPeer 0 ⟨b, none⟩) := rfl
  have hnode : w.nodes[0]? = some node := rfl
  have hsite : ∀ a ∈ (none : Option Accepting), a.node = 0 := by simp
  have htask : w.tasks[0]? = some { activity := (⟨0, m, .ready⟩ : Handling).within none } := rfl
  have hhistory : History (KeepsFetches 0) w events w' := History.start.append_replay hreplay
  have hopened : Handling.opened node.app.decrypt m = .ok m := by decide +kernel
  obtain ⟨payload, ds, hgiven, hgain, hpayload⟩ :=
    unsized_payload rfl hsession rfl hnode hsite htask halone hopened rfl rfl rfl hhistory hdone
  obtain rfl : payload = some [1, 2, 3] :=
    Message.payload_of_given rfl hgiven ((congrArg Gain.delivered hgain).symm.trans hdelivered)
  obtain ⟨link, since, -, -, hshort⟩ := hpayload
  obtain ⟨hall, hclosed⟩ := hshort (by decide)
  exact ⟨events, w', link, hreplay, hdone, hdelivered, hall.symm, hclosed⟩

/-- What is one byte longer than `maxFrameSize` is delivered as if that byte were not there. -/
theorem unsized_payload_cut_off :
    let a : Address := ⟨#v[2, 0, 0, 0, 0, 1]⟩
    let b : Address := ⟨#v[2, 0, 0, 0, 0, 2]⟩
    let m : Message := { Message.ofKind 5 (.ofName "x") with transfer := some ⟨7⟩ }
    let stream : Bytes := List.replicate 1025 120
    let w : World :=
      { nodes := #[{ address := a, config := { service := { maxFrameSize := 1024 } },
                     app := { deviceId := "p", secret := Vector.replicate 32 1,
                              announcement := .ofKind 1 .identity } }]
        sessions := #[.ofPeer 0 ⟨b, none⟩]
        air := [.switchOn a, .switchOn b, .listen b (.channel 7)].foldl Air.perform {}
        tasks := #[{ activity := .handling { session := 0, message := m } },
          { activity := .serving { listener := 1, content := stream, hold := false } }] }
    (w.replay? [.task 0, .task 1, .task 1, .task 1, .task 0, .task 0, .task 0]).map (fun r =>
        decide ((share 0 0 r.1).delivered = [m.setPayload (stream.take 1024)] ∧
          carried r.1 ⟨0, .callee⟩ = stream ∧ r.2.air.isClosed ⟨0, .callee⟩ = true ∧
          stream.take 1024 ≠ stream)) = some true := by
  decide +kernel

end World
end RadioLink
