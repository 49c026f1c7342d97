import RadioLink.Proofs.Address
import RadioLink.Proofs.Table
import RadioLink.Proofs.World.Basic
import RadioLink.World.Lifecycle

/-!
# The registry and the application agree

A session may be registered for several addresses, and come back after it was replaced. What holds
throughout is a balance (`Node.Balanced`): for every session `s`,

    countP (·.accepts s) events = countP (·.loses s) events + registry.values.count s

In the middle of a replacement one loss is still owed. The balance is kept by the three things that
happen to a node, `Node.enroll`, `Node.withdraw` and `Node.part`, and so by every call.
-/

namespace RadioLink

/-! ### What is heard of a session -/

/-- Whether the event is the acceptance of session `s`. -/
def SessionEvent.accepts (s : Nat) : SessionEvent → Bool
  | .accepted _ _ session => session = s
  | .lost _ _ => false

/-- Whether the event is the loss of session `s`. -/
def SessionEvent.loses (s : Nat) : SessionEvent → Bool
  | .accepted _ _ _ => false
  | .lost _ session => session = s

namespace Node

/-! ### What happens to a node -/

/-- The node with session `s` registered for `a`, counted, and told to its application. -/
def enroll (node : Node) (a peer : Address) (identity : Message) (s : Nat) : Node :=
  { node with
    registry := node.registry.insert a s
    metrics := node.metrics.count .sessionAccepted
    app := node.app.accept identity peer s }

/-- The node without what was registered for `a`. -/
def withdraw (node : Node) (a : Address) : Node :=
  { node with registry := node.registry.erase a }

/-- The node with the loss of session `s` counted, and told to its application. -/
def part (node : Node) (peer : Address) (s : Nat) : Node :=
  { node with metrics := node.metrics.count .sessionLost, app := node.app.lose peer s }

/-- The node whose application knows `device` to be at `a`, if it knows the device. -/
def note (node : Node) (device : Option String) (a : Address) : Node :=
  device.elim node fun id => { node with app := node.app.bind id a }

theorem registry_note (node : Node) (device : Option String) (a : Address) :
    (node.note device a).registry = node.registry := by
  cases device <;> rfl

/-- The balance of a node that has yet to tell its application of the loss of the session `owed`. -/
structure Balanced (owed : Option Nat) (node : Node) : Prop where
  sorted : node.registry.Sorted
  sessions : ∀ s, node.app.events.countP (·.accepts s)
    = node.app.events.countP (·.loses s) + (node.registry.values.count s + owed.toList.count s)
  heard : ∀ s, ∀ trace, trace <+: node.app.events →
    trace.countP (·.loses s) ≤ trace.countP (·.accepts s)
  counters : node.metrics.sessionsAccepted
    = node.metrics.sessionsLost + UInt64.ofNat (node.registry.size + owed.toList.length)

theorem balanced_of_empty {node : Node} (hr : node.registry = ∅) (he : node.app.events = [])
    (hm : node.metrics.sessionsAccepted = node.metrics.sessionsLost) : node.Balanced none where
  sorted := hr ▸ Table.sorted_empty
  sessions s := by simp [hr, he, Table.values, EmptyCollection.emptyCollection]
  heard s trace h := by
    obtain rfl := List.prefix_nil.1 (he ▸ h)
    exact Nat.le_refl _
  counters := by simp [hr, hm, Table.size, EmptyCollection.emptyCollection]

/-- If no prefix of a trace has more losses of `s` than acceptances, one more event needs to be
looked at only at the end. -/
theorem heard_concat {events : List SessionEvent} {e : SessionEvent} {s : Nat}
    (h : ∀ trace, trace <+: events → trace.countP (·.loses s) ≤ trace.countP (·.accepts s))
    (he : (events ++ [e]).countP (·.loses s) ≤ (events ++ [e]).countP (·.accepts s)) :
    ∀ trace, trace <+: events ++ [e] →
      trace.countP (·.loses s) ≤ trace.countP (·.accepts s) := by
  intro trace ht
  rcases List.prefix_concat_iff.1 ht with rfl | ht
  · exact he
  · exact h trace ht

theorem Balanced.enroll {node : Node} (h : node.Balanced none) (a peer : Address)
    (identity : Message) (s : Nat) :
    (node.enroll a peer identity s).Balanced (node.registry.get? a) := by
  -- The session that stood there is registered no more, and owed from now on: together the two
  -- count as before.
  have hinsert := h.sorted.values_insert_perm a s
  have herase := h.sorted.values_erase_perm a
  have hsessions (r : Nat) :
      (node.enroll a peer identity s).app.events.countP (·.accepts r)
        = (node.enroll a peer identity s).app.events.countP (·.loses r)
          + ((node.enroll a peer identity s).registry.values.count r
            + (node.registry.get? a).toList.count r) := by
    have hb := h.sessions r
    have hi := hinsert.count_eq r
    have he := herase.count_eq r
    simp only [List.count_cons, List.count_append] at hi he
    simp [Node.enroll, Application.accept, SessionEvent.accepts, SessionEvent.loses,
      List.countP_append] at hb hi ⊢
    omega
  refine ⟨h.sorted.insert a s, hsessions, fun r => ?_, ?_⟩
  · refine heard_concat (h.heard r) ?_
    have := hsessions r
    simp only [Node.enroll, Application.accept] at this
    omega
  · have hi := hinsert.length_eq
    have he := herase.length_eq
    have hc := h.counters
    simp only [List.length_cons, List.length_append, Table.values, List.length_map] at hi he
    have hsize : (node.registry.insert a s).size + (node.registry.get? a).toList.length
        = node.registry.size + 1 := by
      simp only [Table.size]
      omega
    simp only [Node.enroll, Metrics.count, hsize, hc, Option.toList_none, List.length_nil,
      UInt64.ofNat_add, Nat.add_zero, UInt64.add_assoc]
    rfl

theorem Balanced.withdraw {node : Node} (h : node.Balanced none) (a : Address) :
    (node.withdraw a).Balanced (node.registry.get? a) where
  sorted := h.sorted.erase a
  sessions r := by
    have hb := h.sessions r
    have he := (h.sorted.values_erase_perm a).count_eq r
    simp only [List.count_append, Option.toList_none, List.count_nil] at he hb
    simp only [Node.withdraw]
    omega
  heard := h.heard
  counters := by
    have he := (h.sorted.values_erase_perm a).length_eq
    have hc := h.counters
    simp only [List.length_append, Table.values, List.length_map] at he
    have hsize : (node.registry.erase a).size + (node.registry.get? a).toList.length
        = node.registry.size := by
      simp only [Table.size]
      omega
    simpa [Node.withdraw, hsize] using hc

theorem Balanced.part {node : Node} {s : Nat} (h : node.Balanced (some s)) (peer : Address) :
    (node.part peer s).Balanced none := by
  have hsessions (r : Nat) :
      (node.part peer s).app.events.countP (·.accepts r)
        = (node.part peer s).app.events.countP (·.loses r)
          + ((node.part peer s).registry.values.count r + (none : Option Nat).toList.count r) := by
    have hb := h.sessions r
    simp [Node.part, Application.lose, SessionEvent.accepts, SessionEvent.loses,
      List.countP_append, List.count_singleton] at hb ⊢
    omega
  refine ⟨h.sorted, hsessions, fun r => ?_, ?_⟩
  · refine heard_concat (h.heard r) ?_
    have := hsessions r
    simp only [Node.part, Application.lose] at this
    omega
  · have hc := h.counters
    simp only [Option.toList_some, List.length_singleton, UInt64.ofNat_add] at hc
    simp only [Node.part, Metrics.count, hc, Option.toList_none, List.length_nil, Nat.add_zero]
    rw [UInt64.add_comm (UInt64.ofNat _), ← UInt64.add_assoc]
    rfl

end Node

namespace World

variable {w : World} {n s old : Nat} {a peer former : Address} {identity : Message} {node : Node}

theorem peerAddress?_isSome_iff : (w.peerAddress? s).isSome ↔ s < w.sessions.size := by
  simp [peerAddress?]

/-! ### What the calls do to a node -/

theorem register_of_unknown (h : w.peerAddress? s = none) :
    w.register n a identity s = (.ok (), w) := by
  simp only [register, h]

theorem register_of_registered (hs : w.peerAddress? s = some peer)
    (h : w.registered? n a = some s) :
    w.register n a identity s = (.error (.registry .duplicateSession), w) := by
  simp only [register, hs, h, if_true]

theorem register_ok (h : w.registered? n a ≠ some s) :
    (w.register n a identity s).1 = .ok () := by
  unfold register
  split
  · rfl
  · simp only [if_neg h]
    split <;> rfl

theorem nodes_evict (h : w.peerAddress? s = some peer) :
    (w.evict n s).nodes[n]? = w.nodes[n]?.map (·.part peer s) := by
  simp only [evict, h, nodes_updateApp, nodes_count, if_true, nodes_release, Option.map_map]
  rfl

@[simp] theorem size_sessions_evict : (w.evict n s).sessions.size = w.sessions.size := by
  unfold evict
  split <;> simp

theorem nodes_register_fresh (hn : w.nodes[n]? = some node) (hs : w.peerAddress? s = some peer)
    (h : node.registry.get? a = none) :
    (w.register n a identity s).2.nodes[n]? = some (node.enroll a peer identity s) := by
  have hr : w.registered? n a = none := by simp [registered?, hn, h]
  simp only [register, hs, hr, reduceCtorEq, if_false, nodes_updateApp, nodes_count,
    nodes_updateNode, if_true, hn]
  rfl

theorem nodes_register_replacing (hn : w.nodes[n]? = some node)
    (hs : w.peerAddress? s = some peer) (h : node.registry.get? a = some old) (hne : old ≠ s)
    (hold : w.peerAddress? old = some former) :
    (w.register n a identity s).2.nodes[n]?
      = some ((node.enroll a peer identity s).part former old) := by
  have hr : w.registered? n a = some old := by simp [registered?, hn, h]
  have hne' : ¬ some old = some s := by simpa using hne
  simp only [register, hs, hr, if_neg hne']
  rw [nodes_evict (by simpa using hold)]
  simp only [nodes_updateApp, nodes_count, nodes_updateNode, if_true, hn]
  rfl

@[simp] theorem size_sessions_register :
    (w.register n a identity s).2.sessions.size = w.sessions.size := by
  unfold register
  split
  · rfl
  · dsimp only
    split
    · rfl
    · split <;> simp

theorem nodes_unregister (hn : w.nodes[n]? = some node) (h : node.registry.get? a = some old)
    (hold : w.peerAddress? old = some former) :
    (w.unregister n a).2.nodes[n]? = some ((node.withdraw a).part former old) := by
  have hr : w.registered? n a = some old := by simp [registered?, hn, h]
  simp only [unregister, hr]
  rw [nodes_evict (by simpa using hold), nodes_updateNode, if_pos rfl, hn]
  rfl

theorem unregister_of_none (h : w.registered? n a = none) : w.unregister n a = (none, w) := by
  simp only [unregister, h]

@[simp] theorem size_sessions_unregister :
    (w.unregister n a).2.sessions.size = w.sessions.size := by
  unfold unregister
  split <;> simp

/-- After `register` the session under `a` is `s`, whatever was there, and all other addresses are
as they were. -/
theorem registered?_register {node : Node} {peer : Address} {identity : Message}
    (hn : w.nodes[n]? = some node) (hs : w.peerAddress? s = some peer)
    (hne : w.registered? n a ≠ some s)
    (hmade : ∀ r, w.registered? n a = some r → r < w.sessions.size) (b : Address) :
    (w.register n a identity s).2.registered? n b
      = if a = b then some s else w.registered? n b := by
  have hr (c : Address) : w.registered? n c = node.registry.get? c := by simp [registered?, hn]
  rw [hr] at hne hmade
  cases hold : node.registry.get? a with
  | none =>
    rw [registered?, nodes_register_fresh hn hs hold, hr]
    exact Table.get?_insert ..
  | some old =>
    obtain ⟨former, hformer⟩ := Option.isSome_iff_exists.1
      (peerAddress?_isSome_iff.2 (hmade old hold))
    have hne' : old ≠ s := fun h => hne (h ▸ hold)
    rw [registered?, nodes_register_replacing hn hs hold hne' hformer, hr]
    exact Table.get?_insert ..

theorem registered?_unregister
    (hmade : ∀ r, w.registered? n a = some r → r < w.sessions.size) (b : Address) :
    (w.unregister n a).2.registered? n b = if a = b then none else w.registered? n b := by
  cases hold : w.registered? n a with
  | none =>
    rw [unregister_of_none hold]
    split
    · next hab => rw [← hab, hold]
    · rfl
  | some old =>
    obtain ⟨node, hn, hreg⟩ := Option.bind_eq_some_iff.1 hold
    obtain ⟨former, hformer⟩ := Option.isSome_iff_exists.1
      (peerAddress?_isSome_iff.2 (hmade old hold))
    rw [registered?, nodes_unregister hn hreg hformer, registered?, hn]
    exact Table.get?_erase ..

/-- What `welcome` does is `note`, and then `register` of a session that is added. -/
theorem exists_welcome (hn : w.nodes[n]? = some node) (identity : Message) (a : Address)
    (device : Option String) :
    ∃ v : World, v.nodes[n]? = some (node.note device a) ∧ v.sessions = w.sessions ∧
      w.welcome n identity a device
        = ((v.addSession (.ofPeer n ⟨a, identity.deviceId?⟩)).register n a identity
            v.sessions.size).2 := by
  cases device with
  | none => exact ⟨w, hn, rfl, rfl⟩
  | some id =>
    have hnote : (w.updateApp n (·.bind id a)).nodes[n]? = some (node.note (some id) a) := by
      rw [nodes_updateApp, if_pos rfl, hn]
      rfl
    exact ⟨w.updateApp n (·.bind id a), hnote, rfl, rfl⟩

theorem nodes_welcome (hn : w.nodes[n]? = some node) (identity : Message)
    (hmade : ∀ r, node.registry.get? a = some r → r < w.sessions.size)
    (device : Option String) :
    ∃ former : Option (Address × Nat), (w.welcome n identity a device).nodes[n]? =
      some (former.elim ((node.note device a).enroll a a identity w.sessions.size) fun old =>
        ((node.note device a).enroll a a identity w.sessions.size).part old.1 old.2) := by
  obtain ⟨v, hv, hsessions, hwelcome⟩ := exists_welcome hn identity a device
  rw [hwelcome, ← hsessions]
  have hthere : (v.addSession (.ofPeer n ⟨a, identity.deviceId?⟩)).nodes[n]?
      = some (node.note device a) := hv
  have hpeer : (v.addSession (.ofPeer n ⟨a, identity.deviceId?⟩)).peerAddress? v.sessions.size
      = some a := by
    simp [peerAddress?, addSession, Session.ofPeer]
  cases hold : (node.note device a).registry.get? a with
  | none => exact ⟨none, nodes_register_fresh hthere hpeer hold⟩
  | some old =>
    have hlt : old < v.sessions.size := by
      rw [hsessions]
      exact hmade old (node.registry_note device a ▸ hold)
    obtain ⟨former, hformer⟩ := Option.isSome_iff_exists.1 (peerAddress?_isSome_iff.2
      (Nat.lt_of_lt_of_le hlt (by simp [addSession])) :
        ((v.addSession (.ofPeer n ⟨a, identity.deviceId?⟩)).peerAddress? old).isSome)
    exact ⟨some (former, old),
      nodes_register_replacing hthere hpeer hold (Nat.ne_of_lt hlt) hformer⟩

end World

/-! ### Runs of calls -/

/-- A call of `put` or `remove`. -/
inductive RegistryCall where
  | put (a : Address) (identity : Message) (session : Nat)
  | remove (a : Address)

/-- What the registry of node `n` makes of a call. -/
def World.serve (w : World) (n : Nat) : RegistryCall → World
  | .put a identity s => (w.register n a identity s).2
  | .remove a => (w.unregister n a).2

namespace World

variable {w : World} {n : Nat} {node : Node}

/-- Node `n` is `Balanced`, with nothing owed, and all of its sessions are there. -/
structure InStep (w : World) (n : Nat) (node : Node) : Prop where
  here : w.nodes[n]? = some node
  balanced : node.Balanced none
  made : ∀ a s, node.registry.get? a = some s → s < w.sessions.size

/-- Every call leaves node `n` `InStep`. -/
theorem InStep.serve (h : w.InStep n node) (call : RegistryCall) :
    ∃ node', (w.serve n call).InStep n node' := by
  cases call with
  | put a identity s =>
    cases hs : w.peerAddress? s with
    | none => exact ⟨node, by simpa only [World.serve, register_of_unknown hs] using h⟩
    | some peer =>
      -- a session with a peer is there, so what is registered stays among those made
      have hsize : s < w.sessions.size := peerAddress?_isSome_iff.1 (by simp [hs])
      have hmade : ∀ b r, (node.registry.insert a s).get? b = some r →
          r < (w.register n a identity s).2.sessions.size := by
        intro b r hr
        rw [size_sessions_register]
        rw [Table.get?_insert] at hr
        split at hr
        · exact Option.some.inj hr ▸ hsize
        · exact h.made b r hr
      cases hr : node.registry.get? a with
      | none =>
        have hb := h.balanced.enroll a peer identity s
        rw [hr] at hb
        exact ⟨_, nodes_register_fresh h.here hs hr, hb, hmade⟩
      | some old =>
        by_cases hne : old = s
        -- put again under its own address: refused, and nothing changes
        · have hreg : w.registered? n a = some s := by simp [registered?, h.here, hr, hne]
          exact ⟨node, by simpa only [World.serve, register_of_registered hs hreg] using h⟩
        · obtain ⟨former, hold⟩ := Option.isSome_iff_exists.1
            (peerAddress?_isSome_iff.2 (h.made a old hr))
          have hb := h.balanced.enroll a peer identity s
          rw [hr] at hb
          exact ⟨_, nodes_register_replacing h.here hs hr hne hold, hb.part former, hmade⟩
  | remove a =>
    cases hr : node.registry.get? a with
    | none =>
      have hreg : w.registered? n a = none := by simp [registered?, h.here, hr]
      exact ⟨node, by simpa only [World.serve, unregister_of_none hreg] using h⟩
    | some old =>
      obtain ⟨former, hold⟩ := Option.isSome_iff_exists.1
        (peerAddress?_isSome_iff.2 (h.made a old hr))
      have hb := h.balanced.withdraw a
      rw [hr] at hb
      refine ⟨_, nodes_unregister h.here hr hold, hb.part former, fun b r hr' => ?_⟩
      rw [World.serve, size_sessions_unregister]
      simp only [Node.part, Node.withdraw, Table.get?_erase] at hr'
      split at hr'
      · cases hr'
      · exact h.made b r hr'

theorem InStep.foldl_serve (h : w.InStep n node) (calls : List RegistryCall) :
    ∃ node', (calls.foldl (·.serve n ·) w).InStep n node' := by
  induction calls generalizing w node with
  | nil => exact ⟨node, h⟩
  | cons call calls ih =>
    obtain ⟨node', h'⟩ := h.serve call
    exact ih h'

/-- Since addresses are of 48 bits, a registry has less than `2 ^ 64` entries. -/
theorem size_registry_lt (h : node.registry.Sorted) : node.registry.size < 2 ^ 64 := by
  have hnodup := h.nodup.map Address.toNat_injective
  -- An address has six bytes, so there are fewer of them than a counter can tell.
  have hsub : (node.registry.entries.map (·.1) |>.map Address.toNat).toFinset
      ⊆ Finset.range (2 ^ 48) := by
    intro i hi
    simp only [List.mem_toFinset, List.mem_map] at hi
    obtain ⟨a, -, rfl⟩ := hi
    exact Finset.mem_range.2 a.toNat_lt
  have hcard := Finset.card_le_card hsub
  rw [List.toFinset_card_of_nodup hnodup, List.length_map, List.length_map,
    Finset.card_range] at hcard
  exact Nat.lt_of_le_of_lt hcard (by decide)

/-- **The registry and the application agree over every run of calls.** Let nothing be registered at
node `n` and its application have heard of nothing. After any `calls`, it has heard of every session
as often accepted as lost and registered together, and at no time of more losses than acceptances;
and `sessionsAccepted` is `sessionsLost` plus the size of the registry. A `put` is refused if and
only if the session is registered for the address already, and then changes nothing; one that
replaces another session is heard of right before the loss of the other. -/
theorem registry_in_step (hn : w.nodes[n]? = some node) (hr : node.registry = ∅)
    (he : node.app.events = [])
    (hm : node.metrics.sessionsAccepted = node.metrics.sessionsLost)
    (calls : List RegistryCall) :
    ∃ w' node', calls.foldl (·.serve n ·) w = w' ∧ w'.nodes[n]? = some node' ∧
      (∀ s, node'.app.events.countP (·.accepts s)
        = node'.app.events.countP (·.loses s) + Set.ncard {a | w'.registered? n a = some s}) ∧
      (∀ s trace, trace <+: node'.app.events →
        trace.countP (·.loses s) ≤ trace.countP (·.accepts s)) ∧
      (node'.metrics.sessionsAccepted - node'.metrics.sessionsLost).toNat = node'.registry.size ∧
      ∀ a identity s,
        ((w'.register n a identity s).1 ≠ .ok () ↔ w'.registered? n a = some s) ∧
        ((w'.register n a identity s).1 ≠ .ok () →
          w'.register n a identity s = (.error (.registry .duplicateSession), w')) ∧
        ∀ old peer, w'.registered? n a = some old → old ≠ s → w'.peerAddress? s = some peer →
          ∃ former, w'.peerAddress? old = some former ∧
            ((w'.register n a identity s).2.nodes[n]?.map (·.app.events)) = some
              (node'.app.events
                ++ [.accepted (identity.deviceId?.getD "") peer s, .lost former old]) := by
  have hstart : w.InStep n node := by
    refine ⟨hn, Node.balanced_of_empty hr he hm, fun a s hs => ?_⟩
    rw [hr, Table.get?_empty] at hs
    cases hs
  obtain ⟨node', h⟩ := hstart.foldl_serve calls
  generalize calls.foldl (·.serve n ·) w = w' at h
  have hreg (a : Address) : w'.registered? n a = node'.registry.get? a := by
    simp [registered?, h.here]
  -- a `put` is refused exactly where the session is registered for the address already
  have hput {a : Address} {identity : Message} {s : Nat} (hs : w'.registered? n a = some s) :
      w'.register n a identity s = (.error (.registry .duplicateSession), w') := by
    obtain ⟨peer, hpeer⟩ := Option.isSome_iff_exists.1
      (peerAddress?_isSome_iff.2 (h.made a s (hreg a ▸ hs)))
    exact register_of_registered hpeer hs
  have hrefused {a : Address} {identity : Message} {s : Nat}
      (h' : (w'.register n a identity s).1 ≠ .ok ()) : w'.registered? n a = some s := by
    by_contra hs
    exact h' (register_ok hs)
  refine ⟨w', node', rfl, h.here, fun s => ?_, h.balanced.heard, ?_, fun a identity s => ?_⟩
  · simpa [hreg, h.balanced.sorted.ncard_keys] using h.balanced.sessions s
  · rw [h.balanced.counters, Option.toList_none, List.length_nil, Nat.add_zero, UInt64.add_comm,
      UInt64.add_sub_cancel]
    exact UInt64.toNat_ofNat_of_lt' (size_registry_lt h.balanced.sorted)
  · refine ⟨⟨hrefused, fun hs => by simp [hput hs]⟩, fun h' => hput (hrefused h'), ?_⟩
    intro old peer hold hne hpeer
    rw [hreg] at hold
    obtain ⟨former, hformer⟩ := Option.isSome_iff_exists.1
      (peerAddress?_isSome_iff.2 (h.made a old hold))
    refine ⟨former, hformer, ?_⟩
    rw [nodes_register_replacing h.here hpeer hold hne hformer]
    simp [Node.enroll, Node.part, Application.accept, Application.lose]

/-- A session under two addresses, replaced under one of them and put back there. -/
theorem registry_in_step_shared :
    let a : Address := ⟨#v[2, 0, 0, 0, 0, 1]⟩
    let b : Address := ⟨#v[2, 0, 0, 0, 0, 2]⟩
    let hello := Message.identity 1 "phone" "Phone" "phone"
    let app : Application :=
      { deviceId := "desk", secret := Vector.replicate 32 0, announcement := .ofKind 1 .identity }
    let w : World :=
      { nodes := #[{ address := b, config := {}, app }]
        sessions := #[.ofPeer 0 ⟨a, some "phone"⟩, .ofPeer 0 ⟨b, none⟩] }
    ∃ w' node, [.put a hello 0, .put b hello 0, .put a hello 1, .put a hello 0, .remove b].foldl
        (·.serve 0 ·) w = w' ∧ w'.nodes[0]? = some node ∧
      node.app.events.countP (·.accepts 0)
        = node.app.events.countP (·.loses 0) + Set.ncard {c | w'.registered? 0 c = some 0} ∧
      w'.register 0 a hello 0 = (.error (.registry .duplicateSession), w') := by
  intro a b hello app w
  obtain ⟨w', node, hw, hnode, hsessions, -, -, hput⟩ := registry_in_step (w := w) (n := 0)
    rfl rfl rfl rfl
    [.put a hello 0, .put b hello 0, .put a hello 1, .put a hello 0, .remove b]
  refine ⟨w', node, hw, hnode, hsessions 0, ?_⟩
  have hthere : w'.registered? 0 a = some 0 := by
    rw [← hw]
    decide +kernel
  obtain ⟨hiff, hrefused, -⟩ := hput a hello 0
  exact hrefused (hiff.2 hthere)

end World
end RadioLink
