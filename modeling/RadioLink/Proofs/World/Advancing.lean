import RadioLink.Proofs.World.Cases
import RadioLink.Proofs.World.Turns

/-!
# Every step is a course

Each activity read as a `Course`, stage by stage. By `exists_advances` every `w.step t = some u`
satisfies `Advances t task.activity w u` for the task that takes it.
-/

namespace RadioLink

open World (Course Advances)

variable {t : Nat} {a : Activity} {w u v : World} {hand : List LinkEnd}

/-! ### Sending -/

namespace World

theorem Advances.finishSending {s : Sending} (h : Course t (.sending s) w hand v) (x : Session)
    (size : Option Nat) : Advances t (.sending s) w (v.finishSending t s x size) := by
  have hunlock : Course t (.sending s) w hand (v.unlock s.session) := by
    refine h.asks rfl (fun x => ?_) fun x => ?_
    · split <;> rfl
    · split <;> rfl
  unfold World.finishSending
  cases size with
  | none => exact .ends (hunlock.count .sendFailure (.inr ⟨s, rfl⟩)) _
  | some size => exact .ends (hunlock.count (.frameSent (UInt64.ofNat size)) (.inr ⟨s, rfl⟩)) _

theorem Advances.beginWriting {s : Sending} (h : Course t (.sending s) w hand v) (x : Session)
    (node : Node) {stream : LinkEnd} (hstream : stream ∈ hand) :
    Advances t (.sending s) w (v.beginWriting t s x node stream) := by
  have hcancel := h.cancelDiscovery node
  unfold World.beginWriting
  dsimp only
  split
  · exact .finishSending (hcancel.drop stream) x none
  · refine .goes hcancel.withTimer (fun e he => ?_) rfl (List.forall_mem_nil _)
    rwa [List.mem_singleton.1 he]

theorem Advances.takeConnection {s : Sending} (h : Course t (.sending s) w hand v) {x y : Session}
    (hy : v.sessions[s.session]? = some y) (hheld : y.held = x.held) (node : Node) :
    Advances t (.sending s) w (v.takeConnection t s x node) := by
  have htake := h.takes rfl hy
  rw [hheld] at htake
  unfold World.takeConnection
  dsimp only
  split
  · next stream heq =>
    refine .beginWriting htake x node (List.mem_append_left _ ?_)
    rw [Option.mem_toList]
    exact (Option.filter_eq_some_iff.1 heq).1
  · exact .goes htake.empty (List.forall_mem_nil _) rfl (List.forall_mem_nil _)

theorem Advances.of_writeStep {s : Sending} {x : Session} {stream : LinkEnd} {rest : Outflow}
    {deadline : Timer} (hstage : s.stage = .writing stream rest deadline)
    (h : s.WriteStep t x stream rest deadline w u) : Advances t (.sending s) w u := by
  have hstart : Course t (.sending s) w (Activity.sending s).pens w := .start
  -- the task may write there, as its own stage names the stream
  have hpen : stream ∈ (Activity.sending s).pens := by
    rw [Activity.pens, hstage]
    exact List.mem_cons_self
  have hgo {v : World} (h : Course t (.sending s) w (Activity.sending s).pens v) (rest : Outflow) :
      Advances t (.sending s) w
        (v.become t (.sending { s with stage := .writing stream rest deadline })) := by
    refine .goes h (fun e he => ?_) rfl (List.forall_mem_nil _)
    rwa [List.mem_singleton.1 he]
  have hwrite := hstart.write hpen rest.pending
  cases h with
  | takes _ write =>
    rw [write] at hwrite
    exact hgo hwrite _
  | breaks _ write =>
    rw [write] at hwrite
    exact .finishSending (hwrite.drop stream) x none
  | goesOn => exact hgo hstart _
  | shuts => exact hgo (hstart.act (x := .shutdown stream) hpen) _
  | tooSlow | fails | done => exact .finishSending (hstart.drop stream) x _

theorem Advances.stepSending {s : Sending} (hs : w.stepSending t s = some u) :
    Advances t (.sending s) w u := by
  have hstart : Course t (.sending s) w s.stage.pens w := .start
  -- what the session had held and could not be used is dropped as soon as there is something better
  have hstale {v : World} (stale : Option LinkEnd) {hand : List LinkEnd}
      (h : Course t (.sending s) w hand v) :
      Course t (.sending s) w hand (stale.elim v v.drop) := by
    cases stale with
    | none => exact h
    | some e => exact h.drop e
  have hpens {retry : Retry} {stale : Option LinkEnd} (hstage : s.stage = .connecting retry stale) :
      ∀ e ∈ retry.pens, e ∈ s.stage.pens := by
    rw [hstage]
    exact fun _ he => he
  obtain ⟨x, node, hx, -, hstep⟩ := Sending.step_of_stepSending hs
  cases hstep with
  | locks =>
    refine .takeConnection (y := { x with holder := some t })
      (hstart.asks (f := fun x => { x with holder := some t }) rfl (fun _ => rfl) fun _ => rfl)
      ?_ rfl node
    rw [World.updateSession, Array.getElem?_modify, if_pos rfl, hx]
    rfl
  | queues =>
    exact .goes (hstart.asks (f := fun x => { x with waiting := x.waiting ++ [t] }) rfl
      (fun _ => rfl) fun _ => rfl) (fun _ he => absurd he List.not_mem_nil) rfl
      (List.forall_mem_nil _)
  | follows => exact .takeConnection hstart hx rfl node
  | dials stage step =>
    exact .goes (Retry.course_step rfl hstart (hpens stage) step) (fun _ he => he) rfl
      (List.forall_mem_nil _)
  | @connected _ stale _ _ stage step =>
    exact .beginWriting (hstale stale (Retry.course_step rfl hstart (hpens stage) step)) x node
      List.mem_cons_self
  | @failed _ stale _ _ stage step =>
    exact .finishSending (hstale stale (Retry.course_step rfl hstart (hpens stage) step)) x none
  | writes stage write => exact .of_writeStep stage write

theorem Advances.stepInspecting {i : Inspecting} (hs : w.stepInspecting t i = some u) :
    Advances t (.inspecting i) w u := by
  have hstart : Course t (.inspecting i) w [] w := .start
  obtain ⟨x, -, hstep⟩ := Inspecting.step_of_stepInspecting hs
  cases hstep with
  | follows =>
    refine .ends (hstart.asks rfl (fun x => ?_) fun x => ?_) _
    · split <;> rfl
    · split <;> rfl
  | looks => exact .ends hstart _
  | queues =>
    exact .goes (hstart.asks (f := fun x => { x with waiting := x.waiting ++ [t] }) rfl
      (fun _ => rfl) fun _ => rfl) (List.forall_mem_nil _) rfl (List.forall_mem_nil _)

theorem Advances.stepConnecting {r : Retry} (hs : w.stepConnecting t r = some u) :
    Advances t (.connecting r) w u := by
  have hstart : Course t (.connecting r) w r.pens w := .start
  obtain ⟨r', v, heq, rfl⟩ | ⟨q, o, heq, rfl⟩ := exists_of_stepConnecting hs
  · exact .goes (Retry.course_step rfl hstart (fun _ he => he) heq) (fun _ he => he) rfl
      (List.forall_mem_nil _)
  · exact .ends (Retry.course_step rfl hstart (fun _ he => he) heq) o

/-! ### Sessions and registries -/

theorem Course.evict (h : Course t a w hand v) (n s : Nat) : Course t a w hand (v.evict n s) := by
  unfold World.evict
  split
  · exact h
  · exact ((h.releases s).count .sessionLost (.inl fun _ => rfl)).updateApp (f := (·.lose _ s))
      fun _ => rfl

/-- The changes that `removeBonded` makes extend a `Course`, although it is no step of a task. -/
theorem Course.removeBonded (h : Course t a w hand v) (ht : w.tasks.size ≤ t) (n : Nat)
    (address : Address) : Course t a w hand (v.removeBonded n address) := by
  have hbonded := h.node n
    (f := fun node => { node with bonded := node.bonded.filter (· ≠ address) }) (fun _ => rfl)
    (fun _ => rfl) (.inr ht) (.inl fun _ => rfl)
  unfold World.removeBonded unregister
  split
  · exact hbonded
  · exact (hbonded.node n (f := fun node => { node with registry := node.registry.erase address })
      (fun _ => rfl) (fun _ => rfl) (.inl fun _ => rfl) (.inl fun _ => rfl)).evict n _

/-- The call of `removeBonded` is a `Course` by itself, of the number that the next task would get.
-/
theorem course_removeBonded (w : World) (n : Nat) (address : Address) :
    Course w.tasks.size (.capturing ⟨0, 0, none⟩) w [] (w.removeBonded n address) :=
  Course.start.removeBonded (Nat.le_refl _) n address

theorem Course.register (h : Course t a w hand v) (n : Nat) (address : Address) (identity : Message)
    (s : Nat) : Course t a w hand (v.register n address identity s).2 := by
  unfold World.register
  split
  · exact h
  · next peer _ =>
    dsimp only
    split
    · exact h
    · have hput := ((h.node n
        (f := fun node => { node with registry := node.registry.insert address s }) (fun _ => rfl)
        (fun _ => rfl) (.inl fun _ => rfl) (.inl fun _ => rfl)).count (n := n) .sessionAccepted
        (.inl fun _ => rfl)).updateApp (n := n)
        (f := (·.accept identity peer s)) fun _ => rfl
      split
      · exact hput
      · exact hput.evict n _

theorem Course.welcome (h : Course t a w hand v) (n : Nat) (identity : Message) (address : Address)
    (device : Option String) : Course t a w hand (v.welcome n identity address device) := by
  have hadd {v : World} (h : Course t a w hand v) :
      Course t a w hand (v.addSession (.ofPeer n ⟨address, identity.deviceId?⟩)) :=
    h.adds nofun fun _ he => he
  unfold World.welcome
  cases device with
  | none => exact (hadd h).register n _ _ _
  | some id =>
    have hbind (app : Application) : (app.bind id address).settings = app.settings := by
      unfold Application.bind
      split <;> rfl
    exact (hadd (h.updateApp hbind)).register n _ _ _

end World

/-! ### Handling -/

namespace Handling

theorem course_deliver (m : Message) (n : Nat) (node : Node) (h : Course t a w hand v) :
    Course t a w hand (deliver m n node v).2 := by
  unfold deliver
  split
  · exact h
  · exact h.updateApp (f := fun app => { app with delivered := app.delivered ++ [m] }) fun _ => rfl

theorem course_step {d : Handling} {q : Progress × World} (ha : a.connects = true)
    (h : Course t a w hand v) (hd : ∀ e ∈ d.stage.draws, e ∈ a.draws) (hs : d.step v = some q) :
    Course t a w [] q.2 := by
  have hread {f : Fetch} {x : Air.Act} (hstage : d.stage = .fetching f)
      (hx : x ∈ [.read f.stream (f.size - f.received), .drop f.stream]) : a.May w x := by
    simp only [List.mem_cons, List.not_mem_nil, or_false] at hx
    obtain rfl | rfl := hx
    · refine hd _ ?_
      rw [hstage]
      exact List.mem_cons_self
    · trivial
  have hcall {caller callee : Address} {e : Endpoint} {x : Air.Act}
      (hx : x ∈ [.cancelDiscovery caller, .connect caller callee e]) : a.May w x := by
    simp only [List.mem_cons, List.not_mem_nil, or_false] at hx
    obtain rfl | rfl := hx
    · trivial
    · exact ha
  obtain ⟨x, node, -, -, hturn⟩ := turn_of_step hs
  refine .empty (?_ : Course t a w hand q.2)
  cases hturn with
  | detached => exact h
  | undecipherable => exact h.count _ (.inl fun _ => rfl)
  | plain | declined => exact course_deliver _ _ _ h
  | tooLarge | full | tooSlow => exact course_deliver _ _ _ (h.drop _)
  | unreachable _ _ _ _ _ _ aside air =>
    exact course_deliver _ _ _ (h.acts (fun _ => hcall) aside air)
  | calls _ _ _ _ _ _ _ aside air => exact h.acts (fun _ => hcall) aside air
  | @unanswered call _ _ _ _ aside air =>
    have habandon : ∀ y ∈ [Air.Act.abandon call.link], a.May w y := by
      intro y hy
      obtain rfl := List.mem_singleton.1 hy
      trivial
    exact course_deliver _ _ _ (h.acts habandon aside air)
  | begins _ _ _ _ aside air => exact h.aside aside air
  | @takes f _ _ stage _ _ aside air =>
    have hreads : ∀ y ∈ [Air.Act.read f.stream (f.size - f.received)], a.May w y := by
      intro y hy
      exact hread stage (List.mem_cons.2 (.inl (List.mem_singleton.1 hy)))
    exact h.acts hreads aside air
  | cutOff stage _ _ _ aside air | ended stage _ _ _ aside air =>
    exact course_deliver _ _ _ (h.acts (fun _ => hread stage) aside air)
  | disrupted stage _ _ aside air =>
    exact course_deliver _ _ _ (h.acts (fun _ => hread stage) aside air)
  | aborted stage _ _ aside air => exact h.acts (fun _ => hread stage) aside air

end Handling

theorem World.Advances.stepHandling {d : Handling} (hs : w.stepHandling t d = some u) :
    Advances t (.handling d) w u := by
  have hstart : Course t (.handling d) w [] w := .start
  have hdraws : ∀ e ∈ d.stage.draws, e ∈ (Activity.handling d).draws := fun _ he => he
  obtain ⟨d', v, heq, rfl⟩ | ⟨q, o, heq, rfl⟩ := exists_of_stepHandling hs
  · exact .goes (Handling.course_step rfl hstart hdraws heq) (List.forall_mem_nil _) rfl
      fun e he => (Handling.draws_step heq e he).imp_right .inl
  · exact .ends (Handling.course_step rfl hstart hdraws heq) o

/-! ### Taking connections in -/

theorem World.Course.readInbound (h : Course t a w hand v) (size : Nat) {source : Inbound}
    (hsource : ∀ e ∈ source.draws, e ∈ a.draws) :
    Course t a w hand (v.readInbound size source).2.2 := by
  cases source with
  | link e => exact h.read (hsource e List.mem_cons_self) size
  | script s => exact h

theorem World.Course.dropInbound (h : Course t a w hand v) (source : Inbound) :
    Course t a w hand (v.dropInbound source) := by
  cases source with
  | link e => exact h.drop e
  | script s => exact h

namespace Accepting

/-- The `node` and the `sender` of an `Accepting` stay the same. -/
def Progress.Keeps (d : Accepting) : Progress → Prop
  | .going next => next.node = d.node ∧ next.sender = d.sender
  | .ended _ | .abort => True

theorem course_ofHandling (d : Accepting) {q : Handling.Progress × World}
    (h : Course t a w hand q.2) :
    Course t a w hand (d.ofHandling q).2 ∧ (d.ofHandling q).1.Keeps d := by
  obtain ⟨p, v⟩ := q
  cases p with
  | going => exact ⟨h, rfl, rfl⟩
  | done | abort => exact ⟨h, trivial⟩

theorem course_take (d : Accepting) (node : Node) (m : Message) (h : Course t a w hand v) :
    Course t a w hand (d.take node m v).2 ∧ (d.take node m v).1.Keeps d := by
  unfold take
  split
  · refine ⟨?_, trivial⟩
    dsimp only
    unfold takeIdentity
    split
    · exact h
    · split
      · exact h
      · exact h.welcome _ _ _ _
  · split
    · exact ⟨h, rfl, rfl⟩
    · exact ⟨h.count _ (.inl fun _ => rfl), trivial⟩

theorem course_refuse (d : Accepting) (e : LinkError) (h : Course t a w hand v) :
    Course t a w hand (d.refuse e v).2 ∧ (d.refuse e v).1.Keeps d := by
  unfold refuse
  split
  · exact ⟨h.count _ (.inl fun _ => rfl), trivial⟩
  · exact ⟨h, trivial⟩

theorem course_finishReading (d : Accepting) (node : Node) (intake : Intake)
    (h : Course t a w hand v) : Course t a w hand (d.finishReading node intake v).2 ∧
      (d.finishReading node intake v).1.Keeps d := by
  unfold finishReading
  split
  · exact d.course_refuse _ h
  · exact d.course_take node _ (h.count _ (.inl fun _ => rfl))

theorem course_step {d : Accepting} {q : Progress × World} (h : Course t (.accepting d) w [] v)
    (hs : d.step v = some q) : Course t (.accepting d) w [] q.2 ∧ q.1.Keeps d := by
  have hd : ∀ e ∈ d.stage.draws, e ∈ (Activity.accepting d).draws := fun _ he => he
  unfold step at hs
  split at hs
  · cases hs
  · next node _ =>
    split at hs
    · obtain rfl := Option.some.inj hs
      exact ⟨((h.count _ (.inl fun _ => rfl)).cancelDiscovery node).withTimer, rfl, rfl⟩
    · next source intake deadline hstage =>
      have hsource : ∀ e ∈ source.draws, e ∈ (Activity.accepting d).draws :=
        fun e he => hd e (by rwa [hstage])
      have hread := h.readInbound intake.reserve.room hsource
      dsimp only at hs
      split at hs
      · next heq =>
        rw [heq] at hread
        split at hs
        · obtain rfl := Option.some.inj hs
          exact ⟨hread, rfl, rfl⟩
        · obtain rfl := Option.some.inj hs
          exact d.course_refuse _ (hread.dropInbound _)
      · next heq =>
        rw [heq] at hread
        split at hs
        · obtain rfl := Option.some.inj hs
          exact d.course_refuse _ (hread.dropInbound _)
        · cases hs
      · next heq =>
        rw [heq] at hread
        obtain rfl := Option.some.inj hs
        exact ⟨hread.dropInbound _, trivial⟩
      · next heq =>
        rw [heq] at hread
        obtain rfl := Option.some.inj hs
        exact d.course_finishReading node _ (hread.dropInbound _)
    · next hstage =>
      obtain ⟨q', hq, rfl⟩ := Option.map_eq_some_iff.1 hs
      refine d.course_ofHandling (Handling.course_step ?_ h (fun e he => hd e ?_) hq)
      · rw [Activity.connects, hstage]
        rfl
      · rw [hstage]
        exact he

/-- The ends of links that an `Accepting` may read at after a step. -/
def Progress.draws : Progress → List LinkEnd
  | .going next => next.stage.draws
  | .ended _ | .abort => []

theorem draws_take (d : Accepting) (node : Node) (m : Message) (w : World) :
    (d.take node m w).1.draws = [] := by
  unfold take
  split
  · rfl
  · split <;> rfl

theorem draws_readInbound (w : World) (size : Nat) (source : Inbound) :
    (w.readInbound size source).2.1.draws = source.draws := by
  cases source <;> rfl

/-- After a step an `Accepting` draws from what it drew from before, or from links that it has made
itself. -/
theorem draws_step {d : Accepting} {q : Progress × World} (hs : d.step w = some q) :
    ∀ e ∈ q.1.draws, e ∈ d.stage.draws ∨
      w.air.links.size ≤ e.link ∧ e.link < q.2.air.links.size := by
  have hnone {q : Progress × World} (h : q.1.draws = []) : ∀ e ∈ q.1.draws,
      e ∈ d.stage.draws ∨ w.air.links.size ≤ e.link ∧ e.link < q.2.air.links.size := by
    rw [h]
    exact (List.forall_mem_nil _)
  unfold step at hs
  split at hs
  · cases hs
  · next node _ =>
    split at hs
    · next hstage =>
      obtain rfl := Option.some.inj hs
      rw [hstage]
      exact fun e he => .inl he
    · next source intake deadline hstage =>
      dsimp only at hs
      split at hs
      · next heq =>
        split at hs
        · obtain rfl := Option.some.inj hs
          rw [hstage]
          -- what is left to read comes from the same source
          have hsource := draws_readInbound w intake.reserve.room source
          rw [heq] at hsource
          intro e he
          left
          rw [Stage.draws, ← hsource]
          exact he
        · obtain rfl := Option.some.inj hs
          exact hnone rfl
      · split at hs
        · obtain rfl := Option.some.inj hs
          exact hnone rfl
        · cases hs
      · obtain rfl := Option.some.inj hs
        exact hnone rfl
      · obtain rfl := Option.some.inj hs
        unfold finishReading
        split
        · exact hnone rfl
        · exact hnone (d.draws_take ..)
    · next hstage =>
      obtain ⟨q', hq, rfl⟩ := Option.map_eq_some_iff.1 hs
      have hdraws := Handling.draws_step hq
      obtain ⟨p, v⟩ := q'
      cases p with
      | going =>
        rw [hstage]
        exact hdraws
      | done | abort => exact (List.forall_mem_nil _)

end Accepting

theorem World.Advances.stepAccepting {d : Accepting} (hs : w.stepAccepting t d = some u) :
    Advances t (.accepting d) w u := by
  have hstart : Course t (.accepting d) w [] w := .start
  obtain ⟨d', v, heq, rfl⟩ | ⟨q, o, heq, rfl⟩ := exists_of_stepAccepting hs
  · obtain ⟨hcourse, hnode, hsender⟩ := Accepting.course_step hstart heq
    refine .goes hcourse (List.forall_mem_nil _) ?_
      fun e he => (Accepting.draws_step heq e he).imp_right .inl
    rw [Activity.role, hnode, hsender, Activity.role]
  · exact .ends (Accepting.course_step hstart heq).1 o

/-! ### Announcing -/

/-- The ends of links in hand after a step of `Announcing`. -/
def Announcing.Progress.pens : Announcing.Progress → List LinkEnd
  | .going next => next.stage.pens
  | .ended _ | .abort => []

namespace Announcing

theorem course_afterFailure (d : Announcing) (c : AnnounceConfig) (h : Course t a w hand v) :
    Course t a w (d.afterFailure c v).1.pens (d.afterFailure c v).2 := by
  unfold afterFailure
  dsimp only
  split
  · exact (h.count _ (.inl fun _ => rfl)).withTimer.empty
  · exact (h.count _ (.inl fun _ => rfl)).empty

theorem course_sendOver (d : Announcing) (node : Node) {stream : LinkEnd} (ha : a.session? = none)
    (h : Course t a w hand v) (hstream : stream ∈ hand) :
    Course t a w (d.sendOver node stream v).1.pens (d.sendOver node stream v).2 := by
  unfold sendOver
  split
  · exact (h.drop stream).empty
  · refine (h.adds (k := []) (fun e he => ?_) (List.forall_mem_nil _)).spawns (.inl ⟨_, rfl, rfl⟩)
    cases he
    exact ⟨hstream, fun he => (nomatch he), ha⟩

theorem course_step {d : Announcing} {q : Progress × World} (hconnects : a.connects = true)
    (ha : a.session? = none) (h : Course t a w d.stage.pens v) (hs : d.step v = some q) :
    Course t a w q.1.pens q.2 := by
  have hattempt := h.count (n := d.node) .connectAttempt (.inl fun _ => rfl)
  obtain ⟨node, -, hstep⟩ := step_of_step hs
  cases hstep with
  | barred | unsent | resumes => exact h.empty
  | calls _ _ _ placed =>
    refine (hattempt.call_ok hconnects placed).forgets fun e he => ?_
    rw [List.mem_singleton.1 he]
    exact List.mem_cons_self
  | refused _ _ _ placed => exact d.course_afterFailure _ (hattempt.call_error hconnects placed)
  | reached stage answer =>
    obtain ⟨hgot, hstream⟩ := h.answer answer
    refine d.course_sendOver node ha hgot ?_
    rw [hstream _ rfl, stage]
    exact List.mem_cons_self
  | failed _ answer => exact d.course_afterFailure _ (h.answer answer).1
  | sent => exact (h.count _ (.inl fun _ => rfl)).empty

end Announcing

namespace World

theorem Advances.stepAnnouncing {d : Announcing} (hs : w.stepAnnouncing t d = some u) :
    Advances t (.announcing d) w u := by
  have hstart : Course t (.announcing d) w d.stage.pens w := .start
  obtain ⟨d', v, heq, rfl⟩ | ⟨q, o, heq, rfl⟩ := exists_of_stepAnnouncing hs
  · exact .goes (Announcing.course_step rfl rfl hstart heq) (fun _ he => he) rfl
      (List.forall_mem_nil _)
  · exact .ends (Announcing.course_step rfl rfl hstart heq) o

/-! ### Listening -/

theorem Course.noticesStop {node : Node} {b : Bool} (h : Course t a w hand v)
    (hs : v.noticesStop t node = (b, u)) : Course t a w hand u := by
  unfold World.noticesStop at hs
  split at hs <;> cases hs
  · exact h
  · exact h.drawNumber

variable {l : Listening}

theorem Advances.pauseListening (h : Course t (.listening l) w [] v) (node : Node) :
    Advances t (.listening l) w (v.pauseListening t l node) :=
  .goes h.withTimer (List.forall_mem_nil _) rfl (List.forall_mem_nil _)

theorem Advances.handOver {id : Nat} (hid : (Activity.listening l).listener? = some id)
    (h : Course t (.listening l) w [] v) {stream : LinkEnd} (hstream : stream.side = .callee)
    (sender : Address) : Advances t (.listening l) w (v.handOver t l id stream sender) := by
  obtain ⟨link, side⟩ := stream
  obtain rfl : side = .callee := hstream
  exact .goes ((h.closeListener hid).spawns (.inr ⟨l, sender, link, rfl, rfl⟩))
    (List.forall_mem_nil _) rfl (List.forall_mem_nil _)

theorem Advances.stepListening (hs : w.stepListening t l = some u) :
    Advances t (.listening l) w u := by
  have hstart : Course t (.listening l) w [] w := .start
  have hid {id : Nat} (hstage : l.stage = .waiting id) :
      (Activity.listening l).listener? = some id := by
    obtain ⟨n, stage⟩ := l
    obtain rfl : stage = .waiting id := hstage
    rfl
  have hagain {v : World} (h : Course t (.listening l) w [] v) :
      Advances t (.listening l) w (v.become t (.listening { l with stage := .ready })) :=
    .goes h (List.forall_mem_nil _) rfl (List.forall_mem_nil _)
  obtain ⟨node, hnode, hstep⟩ := Listening.step_of_stepListening hs
  have hlistens {v : World} (h : Course t (.listening l) w [] v) :
      Course t (.listening l) w [] { v with
        air := (v.air.listen node.address (.service node.config.service.uuid)).2 } :=
    h.act (x := .listen node.address (.service node.config.service.uuid))
      ⟨l, node, rfl, hnode, rfl, rfl⟩
  cases hstep with
  | inactive | stopsIdle => exact .ends hstart _
  | radioOff =>
    exact .ends (hstart.node l.node (f := fun node => { node with active := false }) (fun _ => rfl)
      (fun _ => rfl) (.inl fun _ => rfl) (.inl fun _ => rfl)) _
  | opens _ _ _ notices listen =>
    have hlistened := hlistens (hstart.noticesStop notices)
    rw [listen] at hlistened
    exact .goes hlistened (List.forall_mem_nil _) rfl (List.forall_mem_nil _)
  | refused _ _ _ notices listen =>
    have hlistened := hlistens (hstart.noticesStop notices)
    rw [listen] at hlistened
    exact .pauseListening hlistened node
  | @takes v id _ _ sender stage accept notices =>
    have haccepted := (hstart.noticesStop notices).act (x := .accept id) (hid stage)
    rw [Air.perform, air_of_noticesStop notices, accept] at haccepted
    exact .handOver (hid stage) haccepted (Air.side_of_accept (congrArg Prod.fst accept)) sender
  | @fails v id _ _ stage accept notices =>
    have haccepted := (hstart.noticesStop notices).act (x := .accept id) (hid stage)
    rw [Air.perform, air_of_noticesStop notices, accept] at haccepted
    exact .pauseListening (haccepted.closeListener (hid stage)) node
  | shuts stage notices => exact .ends ((hstart.noticesStop notices).closeListener (hid stage)) _
  | shutsIdle stage => exact .ends (hstart.closeListener (hid stage)) _
  | dealt => exact hagain hstart
  | recovers _ _ notices => exact hagain (hstart.noticesStop notices)
  | stops _ notices => exact .ends (hstart.noticesStop notices) _

theorem Advances.abortListening (a : Activity) : Advances t a w (w.abortListening t a) := by
  have hstart : Course t a w a.pens w := .start
  unfold World.abortListening
  split
  · exact .ends (hstart.closeListener rfl) _
  · exact .ends hstart _

/-! ### Peers without a node -/

theorem Advances.stepServing {s : Serving} (hs : w.stepServing t s = some u) :
    Advances t (.serving s) w u := by
  have hstart : Course t (.serving s) w s.stream.toList w := .start
  have haccepted := hstart.act (x := .accept s.listener) rfl
  have hpen {stream : LinkEnd} (hserves : s.stream = some stream) :
      stream ∈ (Activity.serving s).pens := by
    rw [Activity.pens, hserves]
    exact List.mem_cons_self
  have hleave {v : World} (stream : LinkEnd) (h : Course t (.serving s) w s.stream.toList v) :
      Advances t (.serving s) w
        (World.finish { v with air := (v.air.drop stream).closeListener s.listener } t .done) :=
    .ends ((h.drop stream).closeListener rfl) _
  cases Serving.step_of_stepServing hs with
  | connected _ accept =>
    have hconnected := hstart.accepts rfl (congrArg Prod.fst accept)
    rw [Air.perform, accept] at hconnected
    refine .goes hconnected (fun e he => ?_) rfl (List.forall_mem_nil _)
    rw [List.mem_singleton.1 he]
    exact List.mem_cons_self
  | fails _ accept =>
    rw [Air.perform, accept] at haccepted
    exact .ends (haccepted.closeListener rfl) _
  | @shuts stream serves => exact hleave stream (hstart.act (x := .shutdown stream) (hpen serves))
  | takes serves write =>
    have hwrite := hstart.write (hpen serves) s.content
    rw [write] at hwrite
    exact .goes hwrite (fun _ he => he) rfl (List.forall_mem_nil _)
  | breaks serves write =>
    have hwrite := hstart.write (hpen serves) s.content
    rw [write] at hwrite
    exact hleave _ hwrite

theorem Advances.stepCapturing {c : Capturing} (hs : w.stepCapturing t c = some u) :
    Advances t (.capturing c) w u := by
  have hstart : Course t (.capturing c) w [] w := .start
  have haccept := hstart.act (x := .accept c.listener) rfl
  have hdraws {stream : LinkEnd} {pieces : List Bytes}
      (hreading : c.reading = some (stream, pieces)) : (Activity.capturing c).draws = [stream] := by
    rw [Activity.draws, hreading]
    rfl
  cases Capturing.step_of_stepCapturing hs with
  | connected _ accept =>
    have hside := Air.side_of_accept (congrArg Prod.fst accept)
    rw [Air.perform, accept] at haccept
    refine .goes haccept (List.forall_mem_nil _) rfl fun e he => ?_
    rw [List.mem_singleton.1 he]
    exact .inr (.inr hside)
  | fails _ accept =>
    rw [Air.perform, accept] at haccept
    exact .ends (haccept.closeListener rfl) _
  | @reads stream _ _ _ reading read =>
    have hread := hstart.read (e := stream) (hdraws reading ▸ List.mem_cons_self) captureSize
    rw [read] at hread
    refine .goes hread (List.forall_mem_nil _) rfl fun e he => .inl ?_
    rw [hdraws reading]
    exact he
  | @keeps stream _ _ _ _ reading read =>
    have hread := hstart.read (e := stream) (hdraws reading ▸ List.mem_cons_self) captureSize
    rw [read] at hread
    exact .goes ((hread.drop stream).aside ⟨rfl, rfl, rfl, rfl⟩ rfl)
      (List.forall_mem_nil _) rfl (List.forall_mem_nil _)

/-! ### Every step -/

/-- A step of `t` is taken by a task without an outcome, and `Advances`; for a task that has been
cancelled it is `abortListening`, else `Activity.step`. -/
theorem exists_advances (h : w.step t = some u) :
    ∃ task, w.tasks[t]? = some task ∧ task.outcome = none ∧ Advances t task.activity w u ∧
      if task.cancelled then u = w.abortListening t task.activity
      else task.activity.step t w = some u := by
  unfold step at h
  cases htask : w.tasks[t]? with
  | none => simp [htask] at h
  | some task =>
    simp only [htask] at h
    split at h
    · cases h
    · next hlive =>
      refine ⟨task, rfl, by simpa using hlive, ?_⟩
      split at h
      · next hcancelled =>
        obtain rfl := Option.some.inj h
        exact ⟨.abortListening _, by rw [if_pos hcancelled]⟩
      · next hkept =>
        refine ⟨?_, by rw [if_neg hkept, h]⟩
        cases hactivity : task.activity with
        | sending s => exact .stepSending (by rwa [hactivity] at h)
        | handling d => exact .stepHandling (by rwa [hactivity] at h)
        | accepting d => exact .stepAccepting (by rwa [hactivity] at h)
        | announcing d => exact .stepAnnouncing (by rwa [hactivity] at h)
        | listening l => exact .stepListening (by rwa [hactivity] at h)
        | connecting r => exact .stepConnecting (by rwa [hactivity] at h)
        | inspecting i => exact .stepInspecting (by rwa [hactivity] at h)
        | serving s => exact .stepServing (by rwa [hactivity] at h)
        | capturing c => exact .stepCapturing (by rwa [hactivity] at h)

end World
end RadioLink
