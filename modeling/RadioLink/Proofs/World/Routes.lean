import RadioLink.Proofs.World.Announcements
import RadioLink.Proofs.World.Fetching

/-!
# Whom a payload is fetched from

A message that comes in goes to the session registered for its sender, or else to the one that the
application uses for the device (`Accepting.sessionFor?`). Whichever takes it, one attempt is made
at most, to the peer of that session (`Accepting.Called`). Where the world is `World.Placed`, that
is the sender if the session registered for it took the message.
-/

namespace RadioLink

/-! ### Where sessions are registered -/

namespace World

variable {n t : Nat} {w w' : World}

/-- Every session that node `n` has registered for an address has its peer there. -/
def Placed (n : Nat) (w : World) : Prop :=
  ∀ a s, w.registered? n a = some s → w.peerAddress? s = some a

theorem peerAddress?_of_lasting {s : Nat} {x : Session} (h : w.lasting? s = some x) :
    w.peerAddress? s = some x.peer.address := by
  obtain ⟨y, hy, rfl⟩ := Option.map_eq_some_iff.1 h
  rw [peerAddress?, hy]
  rfl

/-- If all sessions are kept, so are their peers. -/
theorem peerAddress?_keep {s : Nat} {a : Address}
    (hsessions : ∀ s x, w.lasting? s = some x → w'.lasting? s = some x)
    (h : w.peerAddress? s = some a) : w'.peerAddress? s = some a := by
  obtain ⟨x, hx, rfl⟩ := Option.map_eq_some_iff.1 h
  have hlasting : w.lasting? s = some x.lasting := by rw [lasting?, hx, Option.map_some]
  exact peerAddress?_of_lasting (x := x.lasting) (hsessions s _ hlasting)

theorem Placed.keep (h : w.Placed n)
    (hsessions : ∀ s x, w.lasting? s = some x → w'.lasting? s = some x)
    (hregistered : ∀ a s, w'.registered? n a = some s → w.registered? n a = some s) :
    w'.Placed n :=
  fun a s hs => peerAddress?_keep hsessions (h a s (hregistered a s hs))

theorem Placed.made (h : w.Placed n) {a : Address} {s : Nat} (hs : w.registered? n a = some s) :
    s < w.sessions.size := peerAddress?_isSome_iff.1 (by rw [h a s hs]; rfl)

/-- After `welcome` node `n` is `Placed` as before. -/
theorem Placed.welcome {node : Node} (h : w.Placed n) (hn : w.nodes[n]? = some node) (m : Message)
    (a : Address) (device : Option String) : (w.welcome n m a device).Placed n := by
  obtain ⟨hregistered, hfresh⟩ := registered?_welcome a m device hn fun _ _ => h.made
  intro b s hs
  rw [hregistered] at hs
  split at hs
  · next hab =>
    obtain rfl := Option.some.inj hs
    exact (peerAddress?_of_lasting hfresh).trans (congrArg some hab)
  · exact peerAddress?_keep (Apart.refl (t := 0).welcome m a device).sessions (h b s hs)

theorem Placed.step (h : w.Placed n) (hstep : w.step t = some w') : w'.Placed n := by
  rcases dealings_step (n := n) hstep with
    ⟨a, id, m, device, v, p, node, -, -, hnode, hvs, hdealings, rfl⟩ | ⟨-, hdealings⟩
  · have hv : v.Placed n :=
      h.keep (fun r x hx => by rwa [lasting?, hvs]) fun b r hr =>
        (registered?_of_dealings hdealings b).symm.trans hr
    exact (hv.welcome hnode m a device).keep (fun r x hx => by cases p <;> exact hx) fun b r hr =>
      (registered?_of_dealings (dealings_conclude p) b).symm.trans hr
  · exact h.keep (step_apart hstep).sessions fun b r hr =>
      (registered?_of_dealings hdealings b).symm.trans hr

theorem Placed.removed (h : w.Placed n) (m : Nat) (a : Address) :
    (w.removeBonded m a).Placed n := by
  have hapart : Apart 0 (some m) w (w.removeBonded m a) := Apart.refl.removeBonded a
  refine h.keep hapart.sessions fun b r hr => ?_
  by_cases hm : m = n
  · subst hm
    have hbonds (b : Address) : (w.updateNode m fun node =>
        { node with bonded := node.bonded.filter (· ≠ a) }).registered? m b = w.registered? m b :=
      registered?_of_dealings (dealings_updateNode fun _ => by rfl) b
    rw [removeBonded, registered?_unregister, hbonds] at hr
    · split at hr
      · cases hr
      · exact hr
    · intro s hs
      exact h.made (hbonds a ▸ hs)
  · exact (registered?_of_dealings
      (dealings_of_linkage (hapart.linkage n (by simpa using hm))) b).symm.trans hr

/-- What somebody else may do: keep task `t`, as in `KeepsTask`, and keep node `n` `Placed`. -/
structure KeepsPlaced (t n : Nat) (w w' : World) : Prop extends KeepsTask t w w' where
  placed : w.Placed n → w'.Placed n

theorem Placed.next {x : Event} (h : x.before.Placed n) (happens : x.Happens (KeepsPlaced t n)) :
    x.after.Placed n := by
  obtain ⟨cause, before, after⟩ := x
  cases cause with
  | task r => exact h.step happens
  | removal m a =>
    obtain rfl : after = before.removeBonded m a := happens
    exact h.removed m a
  | other => exact KeepsPlaced.placed happens h

end World

/-! ### What a step attempts -/

/-- A step of an activity that never `connects` attempts nothing. -/
theorem World.Advances.attempts_eq_nil {t : Nat} {a : Activity} {w w' : World}
    (h : World.Advances t a w w') (ha : a.connects = false) (b : Address) :
    Event.attempts b ⟨.task t, w, w'⟩ = [] := by
  obtain ⟨acts, hair, hmay⟩ := h.exists_acts
  rw [Event.attempts_of_acts hair, List.flatMap_eq_nil_iff]
  intro act hact
  cases act with
  | connect caller callee e =>
    have hconnects : a.connects = true := hmay _ hact
    cases ha.symm.trans hconnects
  | _ => rfl

namespace Handling

variable {d d' : Handling} {x : Session} {node : Node} {w v : World} {q : Progress × World}

theorem air_deliver (m : Message) (n : Nat) (node : Node) (w : World) :
    (deliver m n node w).2.air = w.air := by
  unfold deliver
  split <;> rfl

/-- A `Handling` is `.ready` only once. -/
theorem begun_of_step (h : d.step w = some (.going d', v)) : d'.stage ≠ .ready := by
  obtain ⟨x, -, hmove⟩ := move_of_step h
  cases hmove with
  | going _ begun => exact begun

/-- From `.ready` a step may attempt to call the peer of the session, over the announced channel;
from any other stage it attempts nothing. -/
theorem Turn.exists_attempts (h : d.Turn x node w q) : ∃ acts : List Air.Act,
    q.2.air = acts.foldl Air.perform w.air ∧
    ((∀ b, acts.flatMap (·.attempts b) = []) ∨ d.stage = .ready ∧ ∃ m transfer,
      opened node.app.decrypt d.message = .ok m ∧ m.payload = none ∧
      m.transfer = some transfer ∧ ∀ b, acts.flatMap (·.attempts b) =
        (⟨m, node.settings, x.peer.address, transfer.channel⟩ : Errand).attempts b) := by
  cases h with
  | detached | undecipherable => exact ⟨[], rfl, .inl fun _ => rfl⟩
  | plain => exact ⟨[], air_deliver .., .inl fun _ => rfl⟩
  | unreachable stage _ opened payload channel _ _ air =>
    refine ⟨_, (air_deliver ..).trans air,
      .inr ⟨stage, _, _, opened, payload, channel, fun b => ?_⟩⟩
    exact List.append_nil _
  | calls stage _ opened payload channel _ _ _ air =>
    refine ⟨_, air, .inr ⟨stage, _, _, opened, payload, channel, fun b => ?_⟩⟩
    exact List.append_nil _
  | declined => exact ⟨[], air_deliver .., .inl fun _ => rfl⟩
  | unanswered _ _ _ _ air => exact ⟨[.abandon _], (air_deliver ..).trans air, .inl fun _ => rfl⟩
  | tooLarge | full | tooSlow =>
    exact ⟨[.drop _], air_deliver .., .inl fun _ => rfl⟩
  | begins _ _ _ _ _ air => exact ⟨[], air, .inl fun _ => rfl⟩
  | takes _ _ _ _ air => exact ⟨[.read _ _], air, .inl fun _ => rfl⟩
  | cutOff _ _ _ _ _ air | ended _ _ _ _ _ air | disrupted _ _ _ _ air =>
    exact ⟨_, (air_deliver ..).trans air, .inl fun _ => rfl⟩
  | aborted _ _ _ _ air => exact ⟨_, air, .inl fun _ => rfl⟩

end Handling

/-! ### Where a message goes -/

namespace Accepting

variable {a : Accepting} {t : Nat} {events : List Event} {w w' : World} {node : Node}
  {q : Progress × World}

/-- From a stage that does not connect, a `Move` leads to another one, or to `.handling` of the
message that arrives, by the session of `sessionFor?`. -/
theorem Move.onward (h : a.Move node w q) (hstage : a.stage.connects = false) :
    ∀ b, q.1 = .going b → ∃ stage, b = { a with stage } ∧ (stage.connects = false ∨
      ∃ m s, stage = .handling { session := s, message := m } ∧ a.arrives? w = some m ∧
        a.sessionFor? node m = some s) := by
  intro b hb
  cases h with
  | begun | more =>
    cases hb
    exact ⟨_, rfl, .inl rfl⟩
  | aborted | overfull | timedOut | misframed => cases hb
  | framed stage read finish _ taken =>
    cases taken with
    | unnamed | own | foreign | unroutable => cases hb
    | routed _ session =>
      cases hb
      exact ⟨_, rfl, .inr ⟨_, _, rfl, arrives?_of_finish stage read finish, session⟩⟩
  | handled stage =>
    rw [stage] at hstage
    cases hstage

/-- In a step of task `t` the message `m` arrived, and session `s` was that of `sessionFor?`; if it
was registered for the sender, its peer is the sender. -/
def Routed (a : Accepting) (t : Nat) (events : List Event) (w : World) (m : Message) (s : Nat) :
    Prop :=
  Noted t events fun _ v => ∃ c node, v.underWay? t = some c ∧ c.arrives? v = some m ∧
    v.nodes[a.node]? = some node ∧ a.sessionFor? node m = some s ∧
    (node.registry.get? a.sender = some s → w.peerAddress? s = some a.sender)

/-- All attempts of task `t` are those of the `Errand` of a message that was `Routed`, to the peer
of its session. -/
def Called (a : Accepting) (t : Nat) (events : List Event) (w : World) : Prop :=
  ∃ m s x host inner transfer, a.Routed t events w m s ∧ w.lasting? s = some x ∧
    w.settings? x.node = some host ∧ Handling.opened host.app.decrypt m = .ok inner ∧
    inner.payload = none ∧ inner.transfer = some transfer ∧
    ∀ b, attempted t b events =
      (⟨inner, host, x.peer.address, transfer.channel⟩ : Errand).attempts b

/-- How far task `t` has come with the connection `a`: no message has arrived, or one is `Routed`
and yet to be handled, or its `Handling` has begun. -/
inductive Onward (a : Accepting) (t : Nat) (events : List Event) (w : World) : Task → Prop where
  | incoming {stage : Stage} (before : stage.connects = false)
      (quiet : ∀ b, attempted t b events = []) :
      Onward a t events w { activity := .accepting { a with stage } }
  | routed {m : Message} {s : Nat} (routed : a.Routed t events w m s)
      (quiet : ∀ b, attempted t b events = []) :
      Onward a t events w
        { activity := .accepting { a with stage := .handling { session := s, message := m } } }
  | settled {task : Task} (calls : (∀ b, attempted t b events = []) ∨ a.Called t events w)
      (stage : task.outcome = none → ∃ d : Handling, d.stage ≠ .ready ∧
        task = { activity := .accepting { a with stage := .handling d } }) :
      Onward a t events w task

/-! ### What is kept -/

theorem Routed.concat {x : Event} {m : Message} {s : Nat} (h : a.Routed t events x.before m s)
    (hsessions : ∀ s y, x.before.lasting? s = some y → x.after.lasting? s = some y) :
    a.Routed t (events ++ [x]) x.after m s := by
  refine (Noted.concat h x).imp fun _ v => ?_
  rintro ⟨c, node, hcall, harrives, hnode, hsession, hplaced⟩
  exact ⟨c, node, hcall, harrives, hnode, hsession,
    fun hr => World.peerAddress?_keep hsessions (hplaced hr)⟩

theorem Called.concat {x : Event} (h : a.Called t events x.before)
    (hsessions : ∀ s y, x.before.lasting? s = some y → x.after.lasting? s = some y)
    (hsettings : ∀ n, x.after.settings? n = x.before.settings? n)
    (hsame : ∀ b, attempted t b (events ++ [x]) = attempted t b events) :
    a.Called t (events ++ [x]) x.after := by
  obtain ⟨m, s, y, host, inner, transfer, hrouted, hy, hhost, hopened, hbare, hannounced,
    honce⟩ := h
  refine ⟨m, s, y, host, inner, transfer, hrouted.concat hsessions, hsessions s y hy,
    (hsettings _).trans hhost, hopened, hbare, hannounced, fun b => ?_⟩
  rw [hsame, honce]

/-- An event that satisfies `KeepsTask` leaves the task as far `Onward`. -/
theorem Onward.keep {x : Event} {task : Task} (h : a.Onward t events x.before task)
    (hcause : x.cause ≠ .task t) (hsame : World.KeepsTask t x.before x.after) :
    a.Onward t (events ++ [x]) x.after task := by
  have hattempts := attempted_of_other events hcause
  cases h with
  | incoming before quiet => exact .incoming before fun b => (hattempts b).trans (quiet b)
  | routed routed quiet =>
    exact .routed (routed.concat hsame.sessions) fun b => (hattempts b).trans (quiet b)
  | settled calls stage =>
    refine .settled (calls.imp (fun quiet b => (hattempts b).trans (quiet b)) fun called => ?_)
      stage
    exact called.concat hsame.sessions hsame.settings hattempts

/-! ### The steps of the task -/

/-- A step of a task with an `Accepting` is one of `Accepting.step`, with its `conclude`. -/
theorem exists_conclude {c : Accepting} (htask : w.tasks[t]? = some { activity := .accepting c })
    (hstep : w.step t = some w') : ∃ q, c.step w = some q ∧ w' = q.2.conclude t q.1 ∧
      q.2.tasks[t]? = some { activity := .accepting c } := by
  have ht : t < w.tasks.size := (Array.getElem?_eq_some_iff.1 htask).1
  simp only [World.step, htask, Option.isSome_none, Bool.false_eq_true, if_false, Activity.step,
    World.stepAccepting] at hstep
  cases hq : c.step w with
  | none => simp [hq] at hstep
  | some q =>
    have hcourse := (course_step (t := t) .start hq).1
    refine ⟨q, rfl, ?_, (hcourse.moreTasks.old t ht).trans htask⟩
    rw [hq] at hstep
    obtain ⟨p, v⟩ := q
    cases p <;> exact (Option.some.inj hstep).symm

theorem air_conclude (w : World) (t : Nat) (p : Progress) : (w.conclude t p).air = w.air := by
  cases p <;> rfl

/-- From a stage that does not connect, a step attempts nothing, and leads `Onward`. -/
theorem onward_incoming {stage : Stage} (hplaced : w.Placed a.node)
    (before : stage.connects = false)
    (quiet : ∀ b, attempted t b events = [])
    (htask : w.tasks[t]? = some { activity := .accepting { a with stage } })
    (hstep : w.step t = some w') :
    ∃ task', w'.tasks[t]? = some task' ∧ a.Onward t (events ++ [⟨.task t, w, w'⟩]) w' task' := by
  obtain ⟨task, htask', -, hadvances, -⟩ := World.exists_advances hstep
  obtain rfl := Option.some.inj (htask.symm.trans htask')
  have hquiet (b : Address) : attempted t b (events ++ [⟨.task t, w, w'⟩]) = [] := by
    rw [attempted_concat, if_pos rfl, quiet, hadvances.attempts_eq_nil before, List.append_nil]
  have hsessions := (World.step_apart hstep).sessions
  obtain ⟨⟨p, v⟩, hq, hw', hkept⟩ := exists_conclude htask hstep
  obtain ⟨node, hnode, hmove⟩ := move_of_step hq
  have htask' := World.tasks_conclude p hkept rfl
  rw [← hw'] at htask'
  refine ⟨_, htask', ?_⟩
  cases p with
  | ended | abort => exact .settled (.inl hquiet) nofun
  | going next =>
    obtain ⟨stage', rfl, hbefore | ⟨m, s, rfl, harrives, hsession⟩⟩ := hmove.onward before next rfl
    · exact .incoming hbefore hquiet
    · refine .routed (Noted.last rfl ⟨_, node, ?_, harrives, hnode, hsession, fun hr => ?_⟩) hquiet
      · exact World.underWay?_eq_some_iff.2 ⟨_, htask, rfl, rfl, rfl⟩
      · refine World.peerAddress?_keep hsessions (hplaced _ _ ?_)
        rw [World.registered?, hnode]
        exact hr

/-- From `.handling` a step attempts what `Turn.exists_attempts` says. -/
theorem exists_attempts {d : Handling} (htask : w.tasks[t]? = some
      { activity := .accepting { a with stage := .handling d } }) (hstep : w.step t = some w') :
    ∃ (x : Session) (host : Node) (acts : List Air.Act) (task' : Task),
      w.lasting? d.session = some x ∧ w.settings? x.node = some host ∧
      w'.air = acts.foldl Air.perform w.air ∧
      ((∀ b, acts.flatMap (·.attempts b) = []) ∨ d.stage = .ready ∧ ∃ inner transfer,
        Handling.opened host.app.decrypt d.message = .ok inner ∧ inner.payload = none ∧
        inner.transfer = some transfer ∧ ∀ b, acts.flatMap (·.attempts b) =
          (⟨inner, host, x.peer.address, transfer.channel⟩ : Errand).attempts b) ∧
      w'.tasks[t]? = some task' ∧ (task'.outcome = none → ∃ d' : Handling, d'.stage ≠ .ready ∧
        task' = { activity := .accepting { a with stage := .handling d' } }) := by
  obtain ⟨q, hq, rfl, hkept⟩ := exists_conclude htask hstep
  obtain ⟨_, -, hmove⟩ := move_of_step hq
  cases hmove with
  | handled stage hd =>
    cases stage
    rename_i q
    obtain ⟨x, node, hx, hnode, hturn⟩ := Handling.turn_of_step hd
    obtain ⟨acts, hair, hacts⟩ := hturn.exists_attempts
    obtain ⟨p, v⟩ := q
    refine ⟨x.lasting, node.settings, acts, _, ?_, ?_, ?_, hacts,
      World.tasks_conclude _ hkept rfl, fun hlive => ?_⟩
    · rw [World.lasting?, hx, Option.map_some]
    · exact congrArg (Option.map Node.settings) hnode
    · rw [air_conclude]
      cases p <;> exact hair
    · cases p with
      | going d' => exact ⟨d', Handling.begun_of_step hd, rfl⟩
      | done | abort => cases hlive
  | _ stage => cases stage

/-- Every step of task `t` leads `Onward`. -/
theorem Onward.step {task : Task} (h : a.Onward t events w task) (hplaced : w.Placed a.node)
    (htask : w.tasks[t]? = some task) (hstep : w.step t = some w') :
    ∃ task', w'.tasks[t]? = some task' ∧ a.Onward t (events ++ [⟨.task t, w, w'⟩]) w' task' := by
  have hapart := World.step_apart hstep
  cases h with
  | incoming before quiet => exact onward_incoming hplaced before quiet htask hstep
  | @routed m s routed quiet =>
    obtain ⟨x, host, acts, task', hx, hhost, hair, hacts, htask', hstage⟩ :=
      exists_attempts htask hstep
    refine ⟨task', htask', .settled ?_ hstage⟩
    have hattempts (b : Address) : attempted t b (events ++ [⟨.task t, w, w'⟩])
        = acts.flatMap (·.attempts b) := by rw [attempted_step hair, quiet, List.nil_append]
    refine hacts.imp (fun hnone b => (hattempts b).trans (hnone b)) ?_
    rintro ⟨-, inner, transfer, hopened, hbare, hannounced, honce⟩
    refine ⟨m, s, x, host, inner, transfer, routed.concat (x := ⟨.task t, w, w'⟩) hapart.sessions,
      hapart.sessions s x hx, (hapart.settings _).trans hhost, hopened, hbare, hannounced,
      fun b => (hattempts b).trans (honce b)⟩
  | settled calls stage =>
    obtain ⟨before, hbefore, hlive, -, -⟩ := World.exists_advances hstep
    obtain rfl := Option.some.inj (htask.symm.trans hbefore)
    obtain ⟨d, hbegun, rfl⟩ := stage hlive
    obtain ⟨x, host, acts, task', -, -, hair, hacts, htask', hstage⟩ :=
      exists_attempts htask hstep
    refine ⟨task', htask', .settled ?_ hstage⟩
    have hattempts (b : Address) : attempted t b (events ++ [⟨.task t, w, w'⟩])
        = attempted t b events := by
      obtain hnone | ⟨hready, -⟩ := hacts
      · rw [attempted_step hair, hnone, List.append_nil]
      · exact absurd hready hbegun
    refine calls.imp (fun quiet b => (hattempts b).trans (quiet b)) fun called => ?_
    exact called.concat (x := ⟨.task t, w, w'⟩) hapart.sessions hapart.settings
      hattempts

end Accepting

/-! ### Whole histories -/

namespace World

variable {a : Accepting} {t : Nat} {events : List Event} {w w' : World}

theorem History.onward {source : Inbound} (hready : a.stage = .ready source)
    (hplaced : w.Placed a.node) (htask : w.tasks[t]? = some { activity := .accepting a })
    (h : History (KeepsPlaced t a.node) w events w') :
    w'.Placed a.node ∧ ∃ task, w'.tasks[t]? = some task ∧ a.Onward t events w' task := by
  induction h with
  | start =>
    have hbefore : a.stage.connects = false := by rw [hready]; rfl
    exact ⟨hplaced, _, htask, .incoming hbefore fun _ => rfl⟩
  | @next events x _ happens ih =>
    obtain ⟨hplaced, task, htask, honward⟩ := ih
    refine ⟨hplaced.next happens, ?_⟩
    by_cases hcause : x.cause = .task t
    · obtain ⟨cause, before, after⟩ := x
      obtain rfl : cause = .task t := hcause
      exact honward.step hplaced htask happens
    · have hsame : KeepsTask t x.before x.after := by
        refine keepsTask_of_happens ?_ hcause htask
        unfold Event.Happens at happens ⊢
        split at happens
        · exact happens
        · exact happens
        · exact happens.toKeepsTask
      exact ⟨task, hsame.task.trans htask, honward.keep hcause hsame⟩

/-- **A payload is fetched from the peer of the session that takes the message.** In every
`History (KeepsPlaced t a.node)` task `t` attempts nothing, or what `Called` says: to connect with
the peer of the session that the message went to, once and over the announced channel. That peer is
the sender if the session is registered for the sender; otherwise it is wherever the session has it
that the application uses for the device. -/
theorem fetched_from_session {source : Inbound} (hready : a.stage = .ready source)
    (hplaced : w.Placed a.node) (htask : w.tasks[t]? = some { activity := .accepting a })
    (h : History (KeepsPlaced t a.node) w events w') :
    (∀ b, attempted t b events = []) ∨
    ∃ m s x host inner transfer,
      Noted t events (fun _ v => ∃ c node, v.underWay? t = some c ∧ c.arrives? v = some m ∧
        v.nodes[a.node]? = some node ∧ a.sessionFor? node m = some s ∧
        (node.registry.get? a.sender = some s → x.peer.address = a.sender)) ∧
      w'.lasting? s = some x ∧ w'.settings? x.node = some host ∧
      Handling.opened host.app.decrypt m = .ok inner ∧ inner.payload = none ∧
      inner.transfer = some transfer ∧ ∀ b, attempted t b events =
        if host.address = b then [(x.peer.address, .channel transfer.channel.toNat)] else [] := by
  obtain ⟨-, task, -, honward⟩ := h.onward hready hplaced htask
  cases honward with
  | incoming _ quiet | routed _ quiet => exact .inl quiet
  | settled calls =>
    refine calls.imp_right ?_
    rintro ⟨m, s, x, host, inner, transfer, hrouted, hx, hcall⟩
    refine ⟨m, s, x, host, inner, transfer, hrouted.imp fun _ v => ?_, hx, hcall⟩
    rintro ⟨c, node, hunderWay, harrives, hnode, hsession, hhome⟩
    refine ⟨c, node, hunderWay, harrives, hnode, hsession, fun hr => ?_⟩
    exact Option.some.inj ((peerAddress?_of_lasting hx).symm.trans (hhome hr))

/-- A phone announces itself, and then shares something that it serves on a channel. -/
theorem fetched_from_session_registered :
    let p : Address := ⟨#v[2, 0, 0, 0, 0, 1]⟩
    let b : Address := ⟨#v[2, 0, 0, 0, 0, 2]⟩
    let bring (text : String) : Task :=
      { activity := .accepting ⟨0, p, .ready (.script ⟨[Bytes.ofText text], .ended⟩)⟩ }
    let w : World :=
      { nodes := #[{ address := b, config := {},
                     app := { deviceId := "desk", secret := Vector.replicate 32 0,
                              announcement := .ofKind 1 .identity } }]
        air := [.switchOn p, .switchOn b, .listen p (.channel 7)].foldl Air.perform {}
        tasks := #[bring ("\x7b\"id\":2,\"type\":\"share\",\"body\":\x7b\x7d,"
            ++ "\"payloadTransferInfo\":\x7b\"channel\":7\x7d\x7d"),
          bring "[1,\"identity\",\x7b\"deviceId\":\"phone\"\x7d]"] }
    ∃ events w' s x, w.replay? [.task 1, .task 1, .task 1, .task 0, .task 0, .task 0, .task 0]
        = some (events, w') ∧ attempted 0 b events = [(p, .channel 7)] ∧
      w'.lasting? s = some x ∧ x.peer.address = p := by
  intro p b bring w
  have hrun : (w.replay? [.task 1, .task 1, .task 1, .task 0, .task 0, .task 0, .task 0]).map
      (fun r => decide (attempted 0 b r.1 = [(p, .channel 7)])) = some true := by decide +kernel
  obtain ⟨⟨events, w'⟩, hreplay, hend⟩ := Option.map_eq_some_iff.1 hrun
  have hcalled := of_decide_eq_true hend
  have hplaced : w.Placed 0 := fun _ _ hs => nomatch hs
  have hhistory : History (KeepsPlaced 0 0) w events w' := History.start.append_replay hreplay
  obtain hquiet | ⟨m, s, x, host, inner, transfer, -, hx, -, -, -, -, honce⟩ :=
    fetched_from_session (a := ⟨0, p, .ready (.script _)⟩) rfl hplaced rfl hhistory
  · cases hcalled.symm.trans (hquiet b)
  · have hone := hcalled.symm.trans (honce b)
    split at hone
    · obtain ⟨hp, -⟩ := Prod.mk.inj (List.cons.inj hone).1
      exact ⟨events, w', s, x, hreplay, hcalled, hx, hp.symm⟩
    · cases hone

/-- A device that is reached through another radio announces a channel there, and is called at the
address where its session has it. -/
theorem fetched_elsewhere :
    let p : Address := ⟨#v[2, 0, 0, 0, 0, 1]⟩
    let b : Address := ⟨#v[2, 0, 0, 0, 0, 2]⟩
    let q : Address := ⟨#v[2, 0, 0, 0, 0, 3]⟩
    let text := "\x7b\"id\":2,\"type\":\"share\",\"body\":\x7b\"deviceId\":\"phone\"\x7d,"
      ++ "\"payloadTransferInfo\":\x7b\"channel\":7\x7d\x7d"
    let app : Application :=
      { deviceId := "desk", secret := Vector.replicate 32 0, announcement := .ofKind 1 .identity
        known := (∅ : Table String (Option Address)).insert "phone" (some p)
        current := (∅ : Table String Nat).insert "phone" 0 }
    let source : Inbound := .script ⟨[Bytes.ofText text], .ended⟩
    let w : World :=
      { nodes := #[{ address := b, config := {}, app }], sessions := #[.ofPeer 0 ⟨p, some "phone"⟩]
        air := [.switchOn b, .switchOn q, .listen q (.channel 7)].foldl Air.perform {}
        tasks := #[{ activity := .accepting ⟨0, q, .ready source⟩ }] }
    (w.replay? [.task 0, .task 0, .task 0, .task 0]).map (fun r =>
      decide (attempted 0 b r.1 = [(p, .channel 7)] ∧ p ≠ q ∧
        r.2.outcome? 0 = some (.accepted (.ok ())))) = some true := by
  decide +kernel

end World
end RadioLink
