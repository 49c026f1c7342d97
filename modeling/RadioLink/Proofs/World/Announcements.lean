import RadioLink.Proofs.World.History
import RadioLink.Proofs.World.Registry
import RadioLink.Proofs.World.Steps
import RadioLink.Proofs.World.Taking

/-!
# The registry reflects the last announcement

Of everything that comes in only announcements of other devices matter to the registry of a node. At
every moment

    registered? n a = (latest? a notes).map (·.2)

where the notes are read off the events alone (`Event.note?`): what the bytes of a connection that
has ended decode to, and who was removed. All other steps leave `Node.standing`: the registry, what
the application has heard of its sessions, and where its devices were reached.
-/

namespace RadioLink

open World (Apart)

/-! ### What has been announced -/

/-- The message that `Frame.decode` finds in what has been received, if the next step of `a` finds
the end of the stream. -/
def Accepting.arrives? (a : Accepting) (w : World) : Option Message :=
  match a.stage with
  | .reading source intake _ =>
    if (w.readInbound intake.reserve.room source).1.isEnd
        ∧ intake.received.length ≤ intake.limit then
      (Frame.decode intake.received).toOption.map Frame.intoMessage
    else none
  | _ => none

/-- The device that `m` announces to `node`, if it is an `.identity` of another device. -/
def Message.announces? (m : Message) (node : Node) : Option String :=
  if m.kind = .identity then m.deviceId?.filter (· ≠ node.app.deviceId) else none

/-- Something that matters to a registry: an announcement, with the session that was made for it, or
a removal. -/
inductive Note where
  | announced (a : Address) (deviceId : String) (session : Nat)
  | removed (a : Address)

/-- The address and the device that the next step of task `t` finds announced to node `n`. -/
def World.announced? (w : World) (n t : Nat) : Option (Address × String) :=
  match w.nodes[n]?, w.underWay? t with
  | some node, some a =>
    if a.node = n then (a.arrives? w).bind fun m => (m.announces? node).map (a.sender, ·) else none
  | _, _ => none

/-- What an event is to the registry of node `n`. The session of an announcement is the next free
one. -/
def Event.note? (n : Nat) (e : Event) : Option Note :=
  match e.cause with
  | .task t => (e.before.announced? n t).map fun (a, id) => .announced a id e.before.sessions.size
  | .removal m a => if m = n then some (.removed a) else none
  | .other => none

/-- What a further note makes of the device and the session `known` for the address `a`. -/
def Note.revise (a : Address) (known : Option (String × Nat)) : Note → Option (String × Nat)
  | .announced b id session => if b = a then some (id, session) else known
  | .removed b => if b = a then none else known

/-- The device and the session of the last announcement from `a`, unless `a` was removed since. -/
def latest? (a : Address) (notes : List Note) : Option (String × Nat) :=
  notes.foldl (Note.revise a) none

/-- The counters `sessionsAccepted` and `sessionsLost`, the others set to zero. -/
def Metrics.sessions (m : Metrics) : Metrics :=
  { sessionsAccepted := m.sessionsAccepted, sessionsLost := m.sessionsLost }

/-- The `linkage` of a node with only those counters that `Metrics.sessions` keeps. -/
def Node.dealings (node : Node) : Node := { node.linkage with metrics := node.metrics.sessions }

/-- The `linkage` of a node without any counters. -/
def Node.standing (node : Node) : Node := { node.linkage with metrics := {} }

namespace World

/-- The `standing` of node `n`. -/
def standing? (w : World) (n : Nat) : Option Node := w.nodes[n]?.map (·.standing)

/-- The `dealings` of node `n`. -/
def dealings? (w : World) (n : Nat) : Option Node := w.nodes[n]?.map (·.dealings)

/-- What somebody else may do: keep the `lasting` part of all sessions, and the registry of node
`n`. -/
def KeepsRegistry (n : Nat) (w w' : World) : Prop :=
  (∀ s x, w.lasting? s = some x → w'.lasting? s = some x) ∧
  ∀ a, w'.registered? n a = w.registered? n a

variable {n t : Nat} {w w' : World}

theorem registered?_eq_of_standing (h : w'.standing? n = w.standing? n) (a : Address) :
    w'.registered? n a = w.registered? n a := by
  have := congrArg (Option.bind · (·.registry.get? a)) h
  simp only [standing?, Option.bind_map] at this
  exact this

theorem standing_of_dealings (h : w'.dealings? n = w.dealings? n) :
    w'.standing? n = w.standing? n := by
  have := congrArg (Option.map fun node : Node => { node with metrics := {} }) h
  simp only [dealings?, Option.map_map] at this
  exact this


theorem registered?_of_dealings (h : w'.dealings? n = w.dealings? n) (a : Address) :
    w'.registered? n a = w.registered? n a :=
  registered?_eq_of_standing (standing_of_dealings h) a

theorem dealings_of_linkage (h : w'.linkage? n = w.linkage? n) :
    w'.dealings? n = w.dealings? n := by
  have := congrArg (Option.map fun node : Node => { node with metrics := node.metrics.sessions }) h
  simp only [linkage?, Option.map_map] at this
  exact this

theorem dealings_of_nodes (h : w'.nodes = w.nodes) : w'.dealings? n = w.dealings? n := by
  rw [dealings?, h, dealings?]

theorem standing_of_aside (h : w.Aside w') : w'.standing? n = w.standing? n :=
  standing_of_dealings (dealings_of_nodes h.nodes)

theorem dealings_updateNode {m : Nat} {f : Node → Node}
    (hf : ∀ node, (f node).dealings = node.dealings) :
    (w.updateNode m f).dealings? n = w.dealings? n :=
  map_nodes_updateNode _ _ _ hf

theorem standing_updateNode {m : Nat} {f : Node → Node}
    (hf : ∀ node, (f node).standing = node.standing) :
    (w.updateNode m f).standing? n = w.standing? n :=
  map_nodes_updateNode _ _ _ hf

theorem dealings_count (m : Nat) {c : Counted}
    (hc : ∀ m : Metrics, (m.count c).sessions = m.sessions) :
    (w.count m c).dealings? n = w.dealings? n :=
  dealings_updateNode fun node => by simp only [Node.dealings, Node.linkage, hc]

@[simp] theorem standing_count (m : Nat) (c : Counted) :
    (w.count m c).standing? n = w.standing? n :=
  standing_updateNode fun _ => rfl

@[simp] theorem dealings_conclude (p : Accepting.Progress) :
    (w.conclude t p).dealings? n = w.dealings? n := by
  cases p <;> rfl

@[simp] theorem standing_conclude (p : Accepting.Progress) :
    (w.conclude t p).standing? n = w.standing? n :=
  standing_of_dealings (dealings_conclude p)

end World

/-! ### One step -/

theorem Handling.Move.dealings {d : Handling} {x : Session} {w : World} {n : Nat}
    {q : Handling.Progress × World} (h : d.Move x w q) : q.2.dealings? n = w.dealings? n := by
  cases h with
  | going _ _ _ aside => exact World.dealings_of_nodes aside.nodes
  | detached => rfl
  | undecipherable => exact World.dealings_count _ fun _ => rfl
  | delivered aside =>
    rw [← World.dealings_of_nodes aside.nodes]
    exact World.dealings_updateNode fun _ => rfl
  | abort aside => exact World.dealings_of_nodes aside.nodes

namespace Accepting

variable {a : Accepting} {node : Node} {w : World} {q : Progress × World}

theorem arrives?_of_stage {source : Inbound} {intake : Intake} {deadline : Timer}
    (hstage : a.stage = .reading source intake deadline) :
    a.arrives? w = if (w.readInbound intake.reserve.room source).1.isEnd
        ∧ intake.received.length ≤ intake.limit then
      (Frame.decode intake.received).toOption.map Frame.intoMessage
    else none := by
  simp only [arrives?, hstage]

theorem arrives?_of_read {source : Inbound} {intake : Intake} {deadline : Timer}
    (hstage : a.stage = .reading source intake deadline)
    (hread : (w.readInbound intake.reserve.room source).1.isEnd = false) : a.arrives? w = none := by
  rw [arrives?_of_stage hstage, hread]
  simp

theorem arrives?_of_finish {source : Inbound} {intake : Intake} {deadline : Timer} {f : Frame}
    {size : Nat} (hstage : a.stage = .reading source intake deadline)
    (hread : (w.readInbound intake.reserve.room source).1.isEnd = true)
    (hfinish : intake.reserve.finish = .ok (f, size)) : a.arrives? w = some f.intoMessage := by
  obtain ⟨hle, hdecode, -⟩ := Intake.finish_eq_ok_iff.1 hfinish
  simp only [Intake.received_reserve, Intake.limit_reserve] at hle hdecode
  rw [arrives?_of_stage hstage, if_pos ⟨hread, hle⟩, hdecode]
  rfl

/-- A `Move` either finds a device announced, and is a `welcome`, or leaves the `dealings` of every
node. -/
theorem Move.dealings (h : a.Move node w q) :
    (∃ m id device c v, a.arrives? w = some m ∧ m.announces? node = some id ∧
      m.deviceId? = some id ∧ (∀ m : Metrics, (m.count c).sessions = m.sessions) ∧
      (w.count a.node c).Aside v ∧ q.2 = v.welcome a.node m a.sender device) ∨
    (a.arrives? w).bind (·.announces? node) = none ∧ q.2.dealings? a.node = w.dealings? a.node := by
  -- Only a frame that has arrived whole, with an announcement of some other device, makes a
  -- session; of all other moves it remains to see that `arrives?` finds none.
  cases h with
  | begun hstage aside =>
    refine .inr ⟨by simp [arrives?, hstage], ?_⟩
    exact (World.dealings_of_nodes aside.nodes).trans (World.dealings_count _ fun _ => rfl)
  | more hstage hread _ aside =>
    refine .inr ⟨?_, World.dealings_of_nodes aside.nodes⟩
    rw [arrives?_of_read hstage (by rw [hread]; rfl)]
    rfl
  | aborted hstage hread aside =>
    refine .inr ⟨?_, World.dealings_of_nodes aside.nodes⟩
    rw [arrives?_of_read hstage (by rw [hread]; rfl)]
    rfl
  | overfull hstage hread _ _ aside =>
    refine .inr
      ⟨?_, (World.dealings_of_nodes aside.nodes).trans (World.dealings_count _ fun _ => rfl)⟩
    rw [arrives?_of_read hstage (by rw [hread]; rfl)]
    rfl
  | timedOut hstage hread aside =>
    refine .inr ⟨?_, World.dealings_of_nodes aside.nodes⟩
    rw [arrives?_of_read hstage (by rw [hread]; rfl)]
    rfl
  | @misframed _ intake _ e _ hstage hread hfinish _ aside =>
    refine .inr
      ⟨?_, (World.dealings_of_nodes aside.nodes).trans (World.dealings_count _ fun _ => rfl)⟩
    rw [arrives?_of_stage hstage]
    split
    · next hle =>
      cases hdecode : Frame.decode intake.received with
      | error e' => rfl
      | ok f =>
        rw [Intake.finish_eq_ok_iff.2
          ⟨by simpa using hle.2, by simpa using hdecode, rfl⟩] at hfinish
        cases hfinish
    · rfl
  | @framed _ intake _ f _ v _ hstage hread hfinish aside taken =>
    have harrives := arrives?_of_finish hstage hread hfinish
    have hv : v.dealings? a.node = w.dealings? a.node :=
      (World.dealings_of_nodes aside.nodes).trans (World.dealings_count _ fun _ => rfl)
    rw [harrives]
    cases taken with
    | unnamed kind id => exact .inr ⟨by simp [Message.announces?, id], hv⟩
    | own kind id => exact .inr ⟨by simp [Message.announces?, id], hv⟩
    | @foreign id device kind some_id ne =>
      refine .inl ⟨_, id, device, _, v, rfl, ?_, some_id, fun _ => rfl, aside, rfl⟩
      simp [Message.announces?, kind, some_id, ne]
    | routed kind => exact .inr ⟨by simp [Message.announces?, kind], hv⟩
    | unroutable kind =>
      exact .inr
        ⟨by simp [Message.announces?, kind], (World.dealings_count _ fun _ => rfl).trans hv⟩
  | handled hstage hstep =>
    obtain ⟨x, -, hmove⟩ := Handling.move_of_step hstep
    refine .inr ⟨by simp [arrives?, hstage], ?_⟩
    have hkept := hmove.dealings (n := a.node)
    rename_i d q'
    obtain ⟨p, v⟩ := q'
    cases p <;> exact hkept

end Accepting

/-! ### Welcoming a peer -/

namespace World

variable {n t : Nat} {a : Address} {w w' : World}

theorem lasting?_addSession (x : Session) :
    (w.addSession x).lasting? w.sessions.size = some x.lasting := by
  simp [lasting?, addSession]

/-- After `welcome` the session registered for `a` is the one that was added, and all other
addresses are as they were. -/
theorem registered?_welcome (a : Address) (m : Message) (device : Option String) {node : Node}
    (hn : w.nodes[n]? = some node)
    (hmade : ∀ b r, w.registered? n b = some r → r < w.sessions.size) :
    (∀ b, (w.welcome n m a device).registered? n b
      = if a = b then some w.sessions.size else w.registered? n b) ∧
    (w.welcome n m a device).lasting? w.sessions.size = some (.ofPeer n ⟨a, m.deviceId?⟩) := by
  obtain ⟨v, hv, hsessions, hwelcome⟩ := exists_welcome hn m a device
  have hthere : (v.addSession (.ofPeer n ⟨a, m.deviceId?⟩)).nodes[n]?
      = some (node.note device a) := hv
  have hreg (b : Address) : v.registered? n b = w.registered? n b := by
    simp [registered?, hv, hn, node.registry_note]
  have hlasting := v.lasting?_addSession (.ofPeer n ⟨a, m.deviceId?⟩)
  have hpeer :
      (v.addSession (.ofPeer n ⟨a, m.deviceId?⟩)).peerAddress? v.sessions.size = some a := by
    simp [peerAddress?, addSession, Session.ofPeer]
  have hold (b : Address) (r : Nat) (h : v.registered? n b = some r) : r < v.sessions.size := by
    rw [hsessions]
    exact hmade b r (hreg b ▸ h)
  rw [hwelcome, ← hsessions]
  refine ⟨fun b => ?_, ?_⟩
  · rw [registered?_register hthere hpeer]
    · rw [← hreg b]
      rfl
    · exact fun h => absurd (hold a _ h) (Nat.lt_irrefl _)
    · intro r h
      exact Nat.lt_of_lt_of_le (hold a r h) (by simp [addSession])
  · exact (Apart.refl (t := 0).register a m _).sessions _ _ hlasting

/-- A step either finds a device `announced?` to node `n`, and is a `welcome`, or leaves the
`dealings` of node `n`. -/
theorem dealings_step (h : w.step t = some w') :
    (∃ (a : Address) (id : String) (m : Message) (device : Option String) (v : World)
        (p : Accepting.Progress) (node : Node), w.announced? n t = some (a, id) ∧
      m.deviceId? = some id ∧ v.nodes[n]? = some node ∧ v.sessions = w.sessions ∧
      v.dealings? n = w.dealings? n ∧ w' = (v.welcome n m a device).conclude t p) ∨
    w.announced? n t = none ∧ w'.dealings? n = w.dealings? n := by
  have hapart := step_apart h
  cases hcall : w.underWay? t with
  | none =>
    rw [hcall] at hapart
    refine .inr ⟨?_, dealings_of_linkage (hapart.linkage n nofun)⟩
    unfold announced?
    split
    · next heq => simp [hcall] at heq
    · rfl
  | some a =>
    obtain ⟨node, q, hnode, hmove, rfl⟩ := exists_move_of_step hcall h
    -- a connection that is taken in at another node is none of this one's business
    by_cases hn : a.node = n
    · subst hn
      have hannounced : w.announced? a.node t
          = (a.arrives? w).bind fun m => (m.announces? node).map (a.sender, ·) := by
        simp [announced?, hnode, hcall]
      rcases hmove.dealings with ⟨m, id, device, c, v, harrives, hid, hdevice, hcount, aside, hq⟩ |
          ⟨hnone, hdealings⟩
      · have hthere : v.nodes[a.node]? = some { node with metrics := node.metrics.count c } := by
          rw [aside.nodes, nodes_count, if_pos rfl, hnode]
          rfl
        refine .inl ⟨a.sender, id, m, device, v, q.1, _, ?_, hdevice, hthere, aside.sessions,
          ?_, ?_⟩
        · rw [hannounced, harrives, Option.bind_some, hid]
          rfl
        · exact (dealings_of_nodes aside.nodes).trans (dealings_count _ hcount)
        · rw [hq]
      · refine .inr ⟨?_, by rw [dealings_conclude, hdealings]⟩
        rw [hannounced]
        cases harrives : a.arrives? w with
        | none => rfl
        | some m =>
          rw [harrives, Option.bind_some] at hnone
          rw [Option.bind_some, hnone]
          rfl
    · rw [hcall] at hapart
      refine .inr ⟨?_, dealings_of_linkage (hapart.linkage n (by simpa using hn))⟩
      unfold announced?
      split
      · next heq heq' =>
        rw [hcall] at heq'
        cases heq'
        rw [if_neg hn]
      · rfl

end World

/-! ### Runs -/

/-- Under every address the session of the `latest?` announcement is registered, and its peer is the
device that announced itself, at that address. -/
structure World.Reflects (n : Nat) (notes : List Note) (w : World) : Prop where
  registered : ∀ a, w.registered? n a = (latest? a notes).map (·.2)
  session : ∀ a id s, latest? a notes = some (id, s) →
    w.lasting? s = some (.ofPeer n ⟨a, some id⟩)

theorem latest?_concat (a : Address) (notes : List Note) (note : Note) :
    latest? a (notes ++ [note]) = note.revise a (latest? a notes) := by
  simp [latest?]

namespace World

variable {n t : Nat} {a : Address} {w w' : World} {notes : List Note}

theorem lt_size_of_lasting {s : Nat} {x : Session} (h : w.lasting? s = some x) :
    s < w.sessions.size := by
  obtain ⟨y, hy, -⟩ := Option.map_eq_some_iff.1 h
  exact (Array.getElem?_eq_some_iff.1 hy).1

theorem Reflects.made (h : w.Reflects n notes) {b : Address} {r : Nat}
    (hr : w.registered? n b = some r) : r < w.sessions.size := by
  rw [h.registered] at hr
  obtain ⟨⟨id, s⟩, hlatest, rfl⟩ := Option.map_eq_some_iff.1 hr
  exact lt_size_of_lasting (h.session b id _ hlatest)

/-- If the registry and all sessions are kept, the world still `Reflects` the notes. -/
theorem Reflects.keep (h : w.Reflects n notes)
    (hsessions : ∀ s x, w.lasting? s = some x → w'.lasting? s = some x)
    (hregistered : ∀ b, w'.registered? n b = w.registered? n b) : w'.Reflects n notes where
  registered b := (hregistered b).trans (h.registered b)
  session b id s hlatest := hsessions s _ (h.session b id s hlatest)

theorem Reflects.announced {id : String} {m : Message} {node : Node} (h : w.Reflects n notes)
    (a : Address) (device : Option String) (hn : w.nodes[n]? = some node)
    (hid : m.deviceId? = some id) :
    (w.welcome n m a device).Reflects n (notes ++ [.announced a id w.sessions.size]) := by
  obtain ⟨hregistered, hfresh⟩ := registered?_welcome a m device hn fun _ _ => h.made
  refine ⟨fun b => ?_, fun b id' s hlatest => ?_⟩
  · rw [hregistered, latest?_concat, Note.revise, h.registered]
    split <;> rfl
  · rw [latest?_concat, Note.revise] at hlatest
    split at hlatest
    · next hab =>
      cases hlatest
      rw [hfresh, hid, hab]
    · exact (Apart.refl (t := 0).welcome m a device).sessions _ _ (h.session b id' s hlatest)

theorem Reflects.removed (h : w.Reflects n notes) :
    (w.removeBonded n a).Reflects n (notes ++ [.removed a]) := by
  have hbonds : ∀ b, (w.updateNode n fun node =>
      { node with bonded := node.bonded.filter (· ≠ a) }).registered? n b = w.registered? n b :=
    registered?_of_dealings (dealings_updateNode fun _ => rfl)
  refine ⟨fun b => ?_, fun b id s hlatest => ?_⟩
  · rw [removeBonded, registered?_unregister, hbonds, latest?_concat, Note.revise, h.registered]
    · split <;> rfl
    · intro r hr
      exact h.made (hbonds a ▸ hr)
  · rw [latest?_concat, Note.revise] at hlatest
    split at hlatest
    · cases hlatest
    · exact (Apart.refl (t := 0).removeBonded a).sessions _ _
        (h.session b id s hlatest)

/-- After every event the world `Reflects` the notes with that of the event added. -/
theorem Reflects.next {e : Event} (h : e.before.Reflects n notes)
    (he : e.Happens (KeepsRegistry n)) : e.after.Reflects n (notes ++ (e.note? n).toList) := by
  obtain ⟨cause, before, after⟩ := e
  cases cause with
  | task t =>
    have hapart := step_apart he
    rcases dealings_step (n := n) he with
      ⟨a, id, m, device, v, p, node, hannounced, hid, hnode, hsessions, hdealings, rfl⟩ |
      ⟨hnone, hdealings⟩
    · have hv : v.Reflects n notes :=
        h.keep (fun r x hx => by rwa [lasting?, hsessions]) (registered?_of_dealings hdealings)
      have hwelcome := hv.announced a device hnode hid
      -- A session goes by its number, and what precedes the announcement in this step makes no
      -- session: the number of the fresh one can be told from the world before.
      rw [hsessions] at hwelcome
      have hnote : Event.note? n ⟨.task t, before, (v.welcome n m a device).conclude t p⟩
          = some (.announced a id before.sessions.size) := by
        simp [Event.note?, hannounced]
      rw [hnote]
      exact hwelcome.keep (fun r x hx => by cases p <;> exact hx)
        (registered?_of_dealings (dealings_conclude p))
    · have hnote : Event.note? n ⟨.task t, before, after⟩ = none := by
        simp [Event.note?, hnone]
      rw [hnote, Option.toList_none, List.append_nil]
      exact h.keep hapart.sessions (registered?_of_dealings hdealings)
  | removal m a =>
    obtain rfl : after = before.removeBonded m a := he
    by_cases hm : m = n
    · subst hm
      rw [show Event.note? m ⟨.removal m a, before, before.removeBonded m a⟩
        = some (.removed a) from if_pos rfl]
      exact h.removed
    · rw [show Event.note? n ⟨.removal m a, before, before.removeBonded m a⟩ = none from
        if_neg hm, Option.toList_none, List.append_nil]
      have hapart : Apart 0 (some m) before (before.removeBonded m a) :=
        Apart.refl.removeBonded a
      exact h.keep hapart.sessions (registered?_of_dealings
        (dealings_of_linkage (hapart.linkage n (by simpa using hm))))
  | other =>
    rw [show Event.note? n ⟨.other, before, after⟩ = none from rfl, Option.toList_none,
      List.append_nil]
    exact h.keep he.1 he.2

theorem History.reflects {events : List Event} (hempty : ∀ a, w.registered? n a = none)
    (h : History (KeepsRegistry n) w events w') :
    w'.Reflects n (events.filterMap (·.note? n)) := by
  induction h with
  | start => exact ⟨hempty, nofun⟩
  | @next events e _ he ih =>
    have hnext := ih.next he
    rw [List.filterMap_append]
    cases hnote : e.note? n <;> simpa [hnote] using hnext

/-- **The registry reflects the last announcement.** Let nothing be registered at node `n` at first.
After any events of a `History (KeepsRegistry n)`, the session registered for `a` is that of the
`latest?` note about `a`, its peer is the device that announced itself, at `a`; and a step without
an announcement leaves the `standing` of node `n`. -/
theorem registry_reflects_announcements {events : List Event}
    (hempty : ∀ a, w.registered? n a = none) (h : History (KeepsRegistry n) w events w') :
    (∀ a, w'.registered? n a = (latest? a (events.filterMap (·.note? n))).map (·.2)) ∧
    (∀ a id s, latest? a (events.filterMap (·.note? n)) = some (id, s) →
      ∃ x, w'.sessions[s]? = some x ∧ x.node = n ∧ x.peer = ⟨a, some id⟩) ∧
    ∀ e ∈ events, ∀ t, e.cause = .task t → e.note? n = none →
      e.after.standing? n = e.before.standing? n := by
  have hreflects := h.reflects hempty
  refine ⟨hreflects.registered, fun a id s hlatest => ?_, fun e he t hcause hnote => ?_⟩
  · obtain ⟨x, hx, hpeer⟩ := Option.map_eq_some_iff.1 (hreflects.session a id s hlatest)
    exact ⟨x, hx, congrArg Session.node hpeer, congrArg Session.peer hpeer⟩
  · have happens := h.happens he
    obtain ⟨cause, before, after⟩ := e
    obtain rfl : cause = .task t := hcause
    rcases dealings_step (n := n) happens with ⟨a, id, m, device, v, p, node, hannounced, -⟩ |
      ⟨-, hdealings⟩
    · simp [Event.note?, hannounced] at hnote
    · exact standing_of_dealings hdealings

/-- A phone that announces itself, is removed, and announces itself again under another name, while
something else is cut off. -/
theorem registry_reflects_announcements_renamed :
    let a : Address := ⟨#v[2, 0, 0, 0, 0, 1]⟩
    let b : Address := ⟨#v[2, 0, 0, 0, 0, 2]⟩
    let app : Application :=
      { deviceId := "desk", secret := Vector.replicate 32 0, announcement := .ofKind 1 .identity }
    let bring (text : String) : Task :=
      { activity := .accepting ⟨0, a, .ready (.script ⟨[Bytes.ofText text], .ended⟩)⟩ }
    let w : World :=
      { nodes := #[{ address := b, config := {}, app }]
        tasks := #[bring "[1,\"identity\",\x7b\"deviceId\":\"p\"\x7d]", bring "[1,",
          bring "[1,\"identity\",\x7b\"deviceId\":\"q\"\x7d]"] }
    ∃ events w', w.replay? [.task 0, .task 1, .task 0, .task 0, .task 2, .removal 0 a, .task 1,
        .task 1, .task 2, .task 2] = some (events, w') ∧
      w'.registered? 0 a = some 1 ∧
      (latest? a (events.filterMap (·.note? 0))).map (·.2) = some 1 := by
  intro a b app bring w
  have hrun : (w.replay? [.task 0, .task 1, .task 0, .task 0, .task 2, .removal 0 a, .task 1,
      .task 1, .task 2, .task 2]).map (·.2.registered? 0 a) = some (some 1) := by decide +kernel
  obtain ⟨⟨events, w'⟩, hreplay, hone⟩ := Option.map_eq_some_iff.1 hrun
  have hempty : ∀ a, w.registered? 0 a = none := fun _ => rfl
  obtain ⟨hregistered, -, -⟩ := registry_reflects_announcements hempty
    (History.start.append_replay hreplay)
  exact ⟨events, w', hreplay, hone, (hregistered a).symm.trans hone⟩

end World
end RadioLink
