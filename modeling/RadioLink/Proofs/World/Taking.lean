import RadioLink.Proofs.Frame.Intake
import RadioLink.Proofs.World.Turns

/-!
# The moves of a connection that is taken in

What one step of taking a connection in can be, case by case: `Accepting.Move` for the connection,
`Accepting.Taken` for a message that has come in whole, `Handling.Move` for a message on its way to
the application. Each case says what was found and what became of the world, up to `World.Aside`.
-/

namespace RadioLink

open World (Aside)

/-! ### Handling -/

namespace Handling

/-- What one step of `d` can be for its session `x`. -/
inductive Move (d : Handling) (x : Session) (w : World) : Progress × World → Prop where
  | going {d' : Handling} {v : World} (same : d'.session = d.session) (begun : d'.stage ≠ .ready)
      (opened : d.stage = .ready → x.detached = false)
      (aside : w.Aside v) : Move d x w (.going d', v)
  | detached (h : x.detached = true) : Move d x w (.done, w)
  | undecipherable (ready : d.stage = .ready) (attached : x.detached = false)
      (sealed : d.message.kind = .encrypted) :
      Move d x w (.done, w.count x.node .decryptionFailure)
  | delivered {m : Message} {v : World} (aside : w.Aside v) :
      Move d x w
        (.done, v.updateApp x.node fun app => { app with delivered := app.delivered ++ [m] })
  | abort {v : World} (aside : w.Aside v) : Move d x w (.abort, v)

variable {d : Handling} {x : Session} {w v : World}

theorem move_deliver (m : Message) (node : Node) (h : w.Aside v) :
    d.Move x w (deliver m x.node node v) := by
  unfold deliver
  split
  · exact .abort h
  · exact .delivered h

theorem opened_error {decrypt : Decryption} {m : Message} {e : LinkError}
    (h : opened decrypt m = .error e) : m.kind = .encrypted := by
  unfold opened at h
  split at h
  · next hk => exact hk
  · cases h

/-- Whatever `Handling.step` returns is one of the `Move`s. -/
theorem move_of_step {q : Progress × World} (h : d.step w = some q) :
    ∃ x, w.sessions[d.session]? = some x ∧ d.Move x w q := by
  obtain ⟨x, node, hx, -, hturn⟩ := turn_of_step h
  have hbegun {stage : Stage} (hstage : d.stage = stage) (h : stage ≠ .ready) : d.stage ≠ .ready :=
    hstage ▸ h
  refine ⟨x, hx, ?_⟩
  cases hturn with
  | detached _ gone => exact .detached gone
  | undecipherable stage attached opened =>
    exact .undecipherable stage attached (opened_error opened)
  | plain | declined => exact move_deliver _ node .refl
  | tooLarge | full | tooSlow => exact move_deliver _ node (Aside.refl.drop _)
  | unreachable _ _ _ _ _ _ aside => exact move_deliver _ node aside
  | unanswered _ _ _ aside => exact move_deliver _ node aside
  | cutOff _ _ _ _ aside | ended _ _ _ _ aside => exact move_deliver _ node aside
  | disrupted _ _ _ aside => exact move_deliver _ node aside
  | calls _ attached _ _ _ _ _ aside => exact .going rfl nofun (fun _ => attached) aside
  | begins stage _ _ _ aside =>
    exact .going rfl nofun (fun hr => absurd hr (hbegun stage nofun)) aside
  | takes stage _ _ aside => exact .going rfl nofun (fun hr => absurd hr (hbegun stage nofun)) aside
  | aborted _ _ _ aside => exact .abort aside

end Handling

/-! ### Taking a message in -/

namespace Accepting

/-- What `Accepting.take` can make of the message `m`. -/
inductive Taken (a : Accepting) (node : Node) (m : Message) (w : World) : Progress × World →
    Prop where
  | unnamed (kind : m.kind = .identity) (id : m.deviceId? = none) :
      Taken a node m w (.ended (.error (.malformedFrame .noDeviceId)), w)
  | own (kind : m.kind = .identity) (id : m.deviceId? = some node.app.deviceId) :
      Taken a node m w (.ended (.ok ()), w)
  | foreign {id : String} (device : Option String) (kind : m.kind = .identity)
      (some_id : m.deviceId? = some id) (ne : id ≠ node.app.deviceId) :
      Taken a node m w (.ended (.ok ()), w.welcome a.node m a.sender device)
  | routed {s : Nat} (kind : m.kind ≠ .identity) (session : a.sessionFor? node m = some s) :
      Taken a node m w (.going { a with stage := .handling { session := s, message := m } }, w)
  | unroutable (kind : m.kind ≠ .identity) (session : a.sessionFor? node m = none) :
      Taken a node m w (.ended (.error (.routing (.noSession m.kind.name a.sender))),
        w.count a.node .routingFailure)

theorem route_eq_identity_iff {m : Message} : m.route = .identity ↔ m.kind = .identity := by
  cases h : m.kind <;> simp [Message.route, MessageKind.route, h]

theorem taken_take (a : Accepting) (node : Node) (m : Message) (w : World) :
    a.Taken node m w (a.take node m w) := by
  unfold take
  split
  · next hroute =>
    have hkind := route_eq_identity_iff.1 hroute
    unfold takeIdentity
    dsimp only
    split
    · next hid => exact .unnamed hkind hid
    · next id hid =>
      by_cases h : id = node.app.deviceId
      · rw [if_pos h]
        exact .own hkind (h ▸ hid)
      · rw [if_neg h]
        exact .foreign _ hkind hid h
  · next hroute =>
    have hkind : m.kind ≠ .identity := fun h => by
      rw [route_eq_identity_iff.2 h] at hroute
      cases hroute
    split
    · next hs => exact .routed hkind hs
    · next hs => exact .unroutable hkind hs

/-! ### Taking a connection in -/

/-- What one step of `a` can be for `node`. -/
inductive Move (a : Accepting) (node : Node) (w : World) : Progress × World → Prop where
  | begun {source : Inbound} {deadline : Timer} {v : World} (stage : a.stage = .ready source)
      (aside : (w.count a.node .connectionAccepted).Aside v) :
      Move a node w (.going { a with
        stage := .reading source (.start node.config.service.maxFrameSize) deadline }, v)
  | more {source source' : Inbound} {intake intake' : Intake} {deadline : Timer} {bytes : Bytes}
      {v : World} (stage : a.stage = .reading source intake deadline)
      (read : w.readInbound intake.reserve.room source = (.data bytes, source', v))
      (add : intake.reserve.add bytes = .ok intake') (aside : w.Aside v) :
      Move a node w (.going { a with stage := .reading source' intake' deadline }, v)
  | aborted {source : Inbound} {intake : Intake} {deadline : Timer} {v : World}
      (stage : a.stage = .reading source intake deadline)
      (read : (w.readInbound intake.reserve.room source).1 = .abort) (aside : w.Aside v) :
      Move a node w (.abort, v)
  | overfull {source : Inbound} {intake : Intake} {deadline : Timer} {bytes : Bytes}
      {e : LinkError} {v : World} (stage : a.stage = .reading source intake deadline)
      (read : (w.readInbound intake.reserve.room source).1 = .data bytes)
      (add : intake.reserve.add bytes = .error e) (framing : e.isFraming = true)
      (aside : (w.count a.node .framingError).Aside v) : Move a node w (.ended (.error e), v)
  | timedOut {source : Inbound} {intake : Intake} {deadline : Timer} {v : World}
      (stage : a.stage = .reading source intake deadline)
      (read : (w.readInbound intake.reserve.room source).1 = .pending) (aside : w.Aside v) :
      Move a node w (.ended (.error .timeout), v)
  | misframed {source : Inbound} {intake : Intake} {deadline : Timer} {e : LinkError} {v : World}
      (stage : a.stage = .reading source intake deadline)
      (read : (w.readInbound intake.reserve.room source).1.isEnd = true)
      (finish : intake.reserve.finish = .error e) (framing : e.isFraming = true)
      (aside : (w.count a.node .framingError).Aside v) : Move a node w (.ended (.error e), v)
  | framed {source : Inbound} {intake : Intake} {deadline : Timer} {f : Frame} {size : Nat}
      {v : World} {q : Progress × World} (stage : a.stage = .reading source intake deadline)
      (read : (w.readInbound intake.reserve.room source).1.isEnd = true)
      (finish : intake.reserve.finish = .ok (f, size))
      (aside : (w.count a.node (.frameReceived (UInt64.ofNat size))).Aside v)
      (taken : a.Taken node f.intoMessage v q) : Move a node w q
  | handled {d : Handling} {q : Handling.Progress × World} (stage : a.stage = .handling d)
      (step : d.step w = some q) : Move a node w (a.ofHandling q)

/-- Whatever `Accepting.step` returns is one of the `Move`s. -/
theorem move_of_step {a : Accepting} {w : World} {q : Progress × World} (h : a.step w = some q) :
    ∃ node, w.nodes[a.node]? = some node ∧ a.Move node w q := by
  unfold step at h
  split at h
  · cases h
  · next node hnode =>
    refine ⟨node, hnode, ?_⟩
    split at h
    · next source hstage =>
      obtain rfl := Option.some.inj h
      exact .begun hstage (Aside.refl.cancelDiscovery node).withTimer
    · next source intake deadline hstage =>
      have haside := (Aside.refl (w := w)).readInbound intake.reserve.room source
      dsimp only at h
      split at h
      · next heq =>
        rw [heq] at haside
        have hread := congrArg Prod.fst heq
        split at h
        · next hadd =>
          obtain rfl := Option.some.inj h
          exact .more hstage heq hadd haside
        · next hadd =>
          obtain rfl := Option.some.inj h
          have hframing := Intake.isFraming_of_add hadd
          rw [refuse, if_pos hframing]
          exact .overfull hstage hread hadd hframing ((haside.dropInbound _).count _ _)
      · next heq =>
        rw [heq] at haside
        have hread := congrArg Prod.fst heq
        split at h
        · obtain rfl := Option.some.inj h
          exact .timedOut hstage hread (haside.dropInbound _)
        · cases h
      · next heq =>
        rw [heq] at haside
        obtain rfl := Option.some.inj h
        exact .aborted hstage (congrArg Prod.fst heq) (haside.dropInbound _)
      -- what is neither bytes nor nothing yet is the end, be it clean or a fault
      · next r source' v hdata hpending habort heq =>
        rw [heq] at haside
        have hread : (w.readInbound intake.reserve.room source).1.isEnd = true := by
          rw [heq]
          cases r with
          | data bytes => exact absurd rfl (hdata bytes)
          | pending => exact absurd rfl hpending
          | abort => exact absurd rfl habort
          | ended => rfl
          | fault f => rfl
        obtain rfl := Option.some.inj h
        unfold finishReading
        split
        · next hfinish =>
          have hframing := Intake.isFraming_of_finish hfinish
          rw [refuse, if_pos hframing]
          exact .misframed hstage hread hfinish hframing ((haside.dropInbound _).count _ _)
        · next hfinish =>
          exact .framed hstage hread hfinish ((haside.dropInbound _).count _ _) (a.taken_take _ _ _)
    · next hstage =>
      obtain ⟨q', hq, rfl⟩ := Option.map_eq_some_iff.1 h
      exact .handled hstage hq

end Accepting

namespace World

/-- What `World.step` makes of the `Progress` of an `Accepting`. -/
def conclude (w : World) (t : Nat) : Accepting.Progress → World
  | .going a => w.become t (.accepting a)
  | .ended r => w.finish t (.accepted r)
  | .abort => w.finish t .aborted

@[simp] theorem nodes_conclude (w : World) (t : Nat) (p : Accepting.Progress) :
    (w.conclude t p).nodes = w.nodes := by
  cases p <;> rfl

/-- The task after `conclude` goes on with the `Accepting` returned, or has an outcome. -/
theorem tasks_conclude {w v : World} {t : Nat} {task : Task} (p : Accepting.Progress)
    (h : w.tasks[t]? = some task) (hv : v.tasks = w.tasks) :
    (v.conclude t p).tasks[t]? = some
      (match p with
      | .going a => { task with activity := .accepting a }
      | .ended r => { task with outcome := some (.accepted r) }
      | .abort => { task with outcome := some .aborted }) := by
  cases p <;> simp [conclude, become, finish, updateTask, Array.getElem?_modify, hv, h]

variable {t : Nat} {a : Accepting} {w w' : World}

theorem underWay?_eq_some_iff :
    w.underWay? t = some a ↔ ∃ task, w.tasks[t]? = some task ∧ task.outcome = none ∧
      task.cancelled = false ∧ task.activity = .accepting a := by
  have hcall (activity : Activity) : activity.call? = some a ↔ activity = .accepting a := by
    cases activity <;> simp [Activity.call?]
  simp only [underWay?, Option.bind_eq_some_iff, Option.ite_none_left_eq_some, Bool.or_eq_true,
    not_or, Bool.not_eq_true, Option.isSome_eq_false_iff, Option.isNone_iff_eq_none, hcall,
      and_assoc]

/-- A step of a task whose `Accepting` is under way is a `Move` of it, with `conclude`. -/
theorem exists_move_of_step (hcall : w.underWay? t = some a) (h : w.step t = some w') :
    ∃ node q, w.nodes[a.node]? = some node ∧ a.Move node w q ∧ w' = q.2.conclude t q.1 := by
  obtain ⟨task, htask, houtcome, hcancelled, hactivity⟩ := underWay?_eq_some_iff.1 hcall
  simp only [step, htask, houtcome, Option.isSome_none, Bool.false_eq_true, if_false, hcancelled,
    hactivity, Activity.step, stepAccepting] at h
  cases hq : a.step w with
  | none => simp [hq] at h
  | some q =>
    obtain ⟨node, hnode, hmove⟩ := Accepting.move_of_step hq
    refine ⟨node, q, hnode, hmove, ?_⟩
    rw [hq] at h
    obtain ⟨p, v⟩ := q
    cases p <;> exact (Option.some.inj h).symm

end World
end RadioLink
