import RadioLink.Proofs.Air.Acts
import RadioLink.Proofs.World.Apart
import RadioLink.Proofs.World.Cases

/-!
# What a step is made of

A step of task `t` with the activity `a` is a `World.Course t a w hand v`: a chain of changes, each
of one part of the world, with one constructor for every change that any step makes. A constructor
says what every step that makes the change keeps to: which acts it performs on the air
(`Activity.May`), whose session it may change (`Activity.session?`), which tasks it may start
(`Activity.Spawns`). The list `hand` follows the ends of links that the task may write on, from
`a.pens` to the `pens` of what it becomes. What holds of all steps is proved by going through the
constructors; that every step is such a chain is `World.exists_advances`.
-/

namespace RadioLink

/-! ### What an activity has to itself -/

/-- The ends of links that `r` may come to write on: the caller's end of a call that is under way.
-/
def Retry.pens (r : Retry) : List LinkEnd :=
  match r.stage with
  | .calling call => [⟨call.link, .caller⟩]
  | .ready | .pausing _ => []

/-- The ends of links that a send may write on, now or later. In `.connecting` that is not the
connection that turned out not to be usable. -/
def Sending.Stage.pens : Sending.Stage → List LinkEnd
  | .connecting retry _ => retry.pens
  | .writing stream _ _ => [stream]
  | .ready | .queued => []

/-- The ends of links that an `Announcing` may come to write on; what is sent is written by another
task. -/
def Announcing.Stage.pens : Announcing.Stage → List LinkEnd
  | .calling call => [⟨call.link, .caller⟩]
  | .ready | .sending _ | .pausing _ => []

/-- The ends of links that a `Handling` may fetch a payload from, now or later. -/
def Handling.Stage.draws : Handling.Stage → List LinkEnd
  | .ready => []
  | .calling call => [⟨call.link, .caller⟩]
  | .fetching fetch => [fetch.stream]

/-- The end of a link that the bytes of an `Inbound` come from, unless they come from a `.script`.
-/
def Inbound.draws : Inbound → List LinkEnd
  | .link stream => [stream]
  | .script _ => []

/-- The ends of links that an `Accepting` may read at: its source, then what its `Handling` draws
from. -/
def Accepting.Stage.draws : Accepting.Stage → List LinkEnd
  | .ready source | .reading source _ _ => source.draws
  | .handling d => d.stage.draws

/-- Whether an `Accepting` may come to connect, which only its `Handling` does. -/
def Accepting.Stage.connects : Accepting.Stage → Bool
  | .ready _ | .reading .. => false
  | .handling _ => true

namespace Activity

/-- The ends of links that an activity may write on, now or later. -/
def pens : Activity → List LinkEnd
  | .sending s => s.stage.pens
  | .announcing a => a.stage.pens
  | .connecting r => r.pens
  | .serving s => s.stream.toList
  | .handling _ | .accepting _ | .listening _ | .inspecting _ | .capturing _ => []

/-- The ends of links that an activity may read at, now or later. -/
def draws : Activity → List LinkEnd
  | .handling d => d.stage.draws
  | .accepting a => a.stage.draws
  | .capturing c => c.reading.toList.map (·.1)
  | .sending _ | .announcing _ | .listening _ | .connecting _ | .inspecting _ | .serving _ => []

/-- Whether an activity may ever perform `.connect`. -/
def connects : Activity → Bool
  | .sending _ | .handling _ | .announcing _ | .connecting _ => true
  | .accepting a => a.stage.connects
  | .listening _ | .inspecting _ | .serving _ | .capturing _ => false

/-- The listener that an activity accepts from or closes. -/
def listener? : Activity → Option Nat
  | .listening ⟨_, .waiting id⟩ => some id
  | .serving s => some s.listener
  | .capturing c => some c.listener
  | _ => none

/-- The session whose `holder` an activity wants to become. -/
def session? : Activity → Option Nat
  | .sending s => some s.session
  | .inspecting i => some i.session
  | _ => none

/-- What an activity is all along, whatever its stage. -/
inductive Role where
  | sending (session : Nat) (message : Message) (payload : Option Payload)
  | inspecting (session : Nat)
  | listening (node : Nat)
  | accepting (node : Nat) (sender : Address)
  | attending (listener : Nat)
  | other

/-- The `Role` of an activity; it stays the same from step to step. -/
def role : Activity → Role
  | .sending s => .sending s.session s.message s.payload
  | .inspecting i => .inspecting i.session
  | .listening l => .listening l.node
  | .accepting a => .accepting a.node a.sender
  | .serving s => .attending s.listener
  | .capturing c => .attending c.listener
  | .handling _ | .announcing _ | .connecting _ => .other

/-- What an activity may do to the air in the world `w`. Letting go of what it got (`.drop`,
`.abandon`) is up to every activity; `.switchOn` and the like to none. -/
def May (a : Activity) (w : World) : Air.Act → Prop
  | .listen owner e => ∃ l node, a = .listening l ∧ w.nodes[l.node]? = some node ∧
      owner = node.address ∧ e = .service node.config.service.uuid
  | .accept id | .close id => a.listener? = some id
  | .write e _ | .shutdown e => e ∈ a.pens
  | .read e _ => e ∈ a.draws
  | .connect .. => a.connects = true
  | .ask _ | .abandon _ | .drop _ | .cancelDiscovery _ => True
  | .disrupt .. | .switchOn _ | .switchOff _ | .bond .. | .unbond .. | .failNext .. => False

/-- The activities `b` that a task with the activity `a` may start: a send that is still `.ready`,
and for a `Listening` the `Accepting` of a link at its callee's end. -/
def Spawns (a b : Activity) : Prop :=
  (∃ s, b = .sending s ∧ s.stage = .ready) ∨
    ∃ l sender link, a = .listening l ∧
      b = .accepting ⟨l.node, sender, .ready (.link ⟨link, .callee⟩)⟩

end Activity

namespace World

/-- What a step of task `t` with the activity `a` has made of `w` so far; `hand` are the ends of
links that it may write on. -/
inductive Course (t : Nat) (a : Activity) (w : World) : List LinkEnd → World → Prop where
  | start : Course t a w a.pens w
  | forgets {hand hand' : List LinkEnd} {v : World} (h : Course t a w hand v)
      (hsub : ∀ e ∈ hand', e ∈ hand) : Course t a w hand' v
  /-- A change `f` of node `n`. Only a removal, which counts as a step of no task there is, changes
  `bonded`; only sends change the counters of `Metrics.outward`. -/
  | node {hand : List LinkEnd} {v : World} (h : Course t a w hand v) (n : Nat) {f : Node → Node}
      (hsettings : ∀ node, (f node).settings = node.settings)
      (hlistening : ∀ node, (f node).listening = node.listening)
      (hbonded : (∀ node, (f node).bonded = node.bonded) ∨ w.tasks.size ≤ t)
      (houtward : (∀ node, (f node).metrics.outward = node.metrics.outward) ∨ ∃ s, a = .sending s) :
      Course t a w hand (v.updateNode n f)
  | aside {hand : List LinkEnd} {u v : World} (h : Course t a w hand u) (hv : u.Aside v)
      (hair : v.air = u.air) : Course t a w hand v
  | act {hand : List LinkEnd} {v : World} (h : Course t a w hand v) {x : Air.Act}
      (hx : a.May w x) : Course t a w hand { v with air := v.air.perform x }
  | connects {hand : List LinkEnd} {v : World} (h : Course t a w hand v) (ha : a.connects = true)
      {caller callee : Address} {e : Endpoint} {link : Nat}
      (hlink : (v.air.connect caller callee e).1 = .ok link) :
      Course t a w (⟨link, .caller⟩ :: hand)
        { v with air := v.air.perform (.connect caller callee e) }
  | accepts {hand : List LinkEnd} {v : World} (h : Course t a w hand v) {id : Nat}
      {stream : LinkEnd} (hid : a.listener? = some id)
      (hstream : (v.air.accept id).1 = .connected stream) :
      Course t a w (stream :: hand) { v with air := v.air.perform (.accept id) }
  | releases {hand : List LinkEnd} {v : World} (h : Course t a w hand v) (s : Nat) :
      Course t a w hand (v.release s)
  /-- A new session `x`. What it holds leaves the hand, and only an activity that asks for no
  session gives it anything to hold. -/
  | adds {hand : List LinkEnd} {v : World} (h : Course t a w hand v) {k : List LinkEnd}
      {x : Session} (hheld : ∀ e, x.held = some e → e ∈ hand ∧ e ∉ k ∧ a.session? = none)
      (hsub : ∀ e ∈ k, e ∈ hand) : Course t a w k (v.addSession x)
  /-- A change of `holder` or `waiting` of the session that `a` asks for. -/
  | asks {hand : List LinkEnd} {v : World} (h : Course t a w hand v) {s : Nat}
      {f : Session → Session} (hs : a.session? = some s)
      (hlasting : ∀ x, (f x).lasting = x.lasting) (hheld : ∀ x, (f x).held = x.held) :
      Course t a w hand (v.updateSession s f)
  /-- What the session holds that `a` asks for comes into hand. -/
  | takes {hand : List LinkEnd} {v : World} (h : Course t a w hand v) {s : Nat} {x : Session}
      (hs : a.session? = some s) (hx : v.sessions[s]? = some x) :
      Course t a w (x.held.toList ++ hand) (v.updateSession s fun x => { x with held := none })
  | spawns {hand : List LinkEnd} {v : World} (h : Course t a w hand v) {b : Activity}
      (hb : a.Spawns b) : Course t a w hand (v.spawn b)

/-- Where an end comes from that a task reads at after a step: it is among `a.draws`, or its link is
new, or it is the callee's end of a link. -/
def Found (a : Activity) (w v : World) (e : LinkEnd) : Prop :=
  e ∈ a.draws ∨ (w.air.links.size ≤ e.link ∧ e.link < v.air.links.size) ∨ e.side = .callee

/-- A step of task `t` with the activity `a`: a `Course`, after which the task goes on with an
activity of the same `Role`, or has an outcome. -/
inductive Advances (t : Nat) (a : Activity) (w : World) : World → Prop where
  | goes {hand : List LinkEnd} {v : World} {b : Activity} (h : Course t a w hand v)
      (hpens : ∀ e ∈ b.pens, e ∈ hand) (hrole : b.role = a.role)
      (hdraws : ∀ e ∈ b.draws, Found a w v e) :
      Advances t a w (v.become t b)
  | ends {hand : List LinkEnd} {v : World} (h : Course t a w hand v) (o : Outcome) :
      Advances t a w (v.finish t o)

namespace Course

variable {t n : Nat} {a : Activity} {w u v : World} {hand : List LinkEnd}

theorem count (h : Course t a w hand v) (c : Counted)
    (hc : (∀ m : Metrics, (m.count c).outward = m.outward) ∨ ∃ s, a = .sending s) :
    Course t a w hand (v.count n c) :=
  h.node n (fun _ => rfl) (fun _ => rfl) (.inl fun _ => rfl) (hc.imp_left fun hc _ => hc _)

theorem updateApp (h : Course t a w hand v) {f : Application → Application}
    (hf : ∀ app, (f app).settings = app.settings) : Course t a w hand (v.updateApp n f) :=
  h.node n (fun node => by simp [Node.settings, hf]) (fun _ => rfl) (.inl fun _ => rfl)
    (.inl fun _ => rfl)

theorem withTimer (h : Course t a w hand v) : Course t a w hand v.withTimer :=
  h.aside Aside.refl.withTimer rfl

theorem drawNumber (h : Course t a w hand v) : Course t a w hand v.drawNumber.2 :=
  h.aside ⟨rfl, rfl, rfl, rfl⟩ rfl

theorem drop (h : Course t a w hand v) (e : LinkEnd) : Course t a w hand (v.drop e) :=
  h.act (x := .drop e) trivial

theorem cancelDiscovery (h : Course t a w hand v) (node : Node) :
    Course t a w hand (v.cancelDiscovery node) :=
  h.act (x := .cancelDiscovery node.address) trivial

theorem read (h : Course t a w hand v) {e : LinkEnd} (he : e ∈ a.draws) (size : Nat) :
    Course t a w hand { v with air := (v.air.read e size).2 } :=
  h.act (x := .read e size) he

theorem write (h : Course t a w hand v) {e : LinkEnd} (he : e ∈ a.pens) (bytes : Bytes) :
    Course t a w hand { v with air := (v.air.write e bytes).2 } :=
  h.act (x := .write e bytes) he

theorem closeListener (h : Course t a w hand v) {id : Nat} (hid : a.listener? = some id) :
    Course t a w hand (v.closeListener id) :=
  h.act (x := .close id) hid

theorem empty (h : Course t a w hand v) : Course t a w [] v := h.forgets fun _ he => nomatch he

/-- What becomes of the world by acts on the air that the activity may perform. -/
theorem acts (h : Course t a w hand v) {acts : List Air.Act} (hacts : ∀ x ∈ acts, a.May w x)
    (hu : v.Aside u) (hair : u.air = acts.foldl Air.perform v.air) : Course t a w hand u := by
  induction acts generalizing v with
  | nil => exact h.aside hu hair
  | cons x acts ih =>
    have hact := h.act (hacts x List.mem_cons_self)
    exact ih hact (fun y hy => hacts y (List.mem_cons_of_mem _ hy)) { hu with } hair

/-! ### Connecting -/

theorem call_ok {caller target : Address} {e : Endpoint} {limit : Nat} {c : Call}
    (h : Course t a w hand v) (ha : a.connects = true)
    (hc : v.call caller target e limit = (.ok c, u)) :
    Course t a w (⟨c.link, .caller⟩ :: hand) u := by
  unfold World.call at hc
  split at hc
  · cases hc
  · next link air heq =>
    cases hc
    have hair : air = v.air.perform (.connect caller target e) := (congrArg Prod.snd heq).symm
    rw [hair]
    exact (h.connects ha (congrArg Prod.fst heq)).withTimer

theorem call_error {caller target : Address} {e : Endpoint} {limit : Nat} {fault : LinkError}
    (h : Course t a w hand v) (ha : a.connects = true)
    (hc : v.call caller target e limit = (.error fault, u)) :
    Course t a w hand u := by
  unfold World.call at hc
  split at hc
  · next fault' air heq =>
    cases hc
    have hair : air = v.air.perform (.connect caller target e) := (congrArg Prod.snd heq).symm
    rw [hair]
    exact h.act ha
  · cases hc

/-- An answer to the call `c` is a `Course` of its own; if it is not an error it is the caller's
end. -/
theorem answer {c : Call} {r : Except LinkError LinkEnd} (h : Course t a w hand v)
    (hr : v.answer? c = some (r, u)) :
    Course t a w hand u ∧ ∀ e, r = .ok e → e = ⟨c.link, .caller⟩ := by
  unfold World.answer? at hr
  split at hr
  · next r' heq =>
    cases hr
    refine ⟨h, fun e he => ?_⟩
    rw [he, Air.answer?_eq] at heq
    split at heq <;> cases heq
    rfl
  · split at hr
    · cases hr
      exact ⟨h.act (x := .abandon c.link) trivial, nofun⟩
    · cases hr

end Course
end World

/-! ### What all courses have in common -/

namespace World

/-- The task that listens for node `n`. -/
def listening? (w : World) (n : Nat) : Option Nat := w.nodes[n]?.bind (·.listening)

theorem listening?_updateNode (w : World) (n m : Nat) {f : Node → Node}
    (hf : ∀ node, (f node).listening = node.listening) :
    (w.updateNode n f).listening? m = w.listening? m := by
  rw [listening?, nodes_updateNode, listening?]
  split
  · rw [Option.bind_map]
    congr 1
    funext node
    exact hf node
  · rfl

theorem settings?_updateNode (w : World) (n m : Nat) {f : Node → Node}
    (hf : ∀ node, (f node).settings = node.settings) :
    (w.updateNode n f).settings? m = w.settings? m :=
  map_nodes_updateNode _ _ _ hf

/-- The peers in `bonded` of node `n`. -/
def bonded? (w : World) (n : Nat) : Option (List Address) := w.nodes[n]?.map (·.bonded)

theorem bonded?_of_nodes {w w' : World} (h : w'.nodes = w.nodes) (n : Nat) :
    w'.bonded? n = w.bonded? n := by
  rw [bonded?, h, bonded?]

theorem bonded?_updateNode (w : World) (n m : Nat) {f : Node → Node}
    (hf : ∀ node, (f node).bonded = node.bonded) : (w.updateNode n f).bonded? m = w.bonded? m :=
  map_nodes_updateNode _ _ _ hf

/-- The `settings` and `listening` of all nodes are the same. -/
structure SameNodes (w w' : World) : Prop where
  settings : ∀ n, w'.settings? n = w.settings? n
  listening : ∀ n, w'.listening? n = w.listening? n

theorem SameNodes.of_nodes {w w' : World} (h : w'.nodes = w.nodes) : w.SameNodes w' :=
  ⟨fun n => by rw [settings?, h, settings?], fun n => by rw [listening?, h, listening?]⟩

theorem SameNodes.trans {u v w : World} (h : u.SameNodes v) (h' : v.SameNodes w) : u.SameNodes w :=
  ⟨fun n => (h'.settings n).trans (h.settings n), fun n => (h'.listening n).trans (h.listening n)⟩

/-- All tasks of `w` are in `w'` as they were, and the new ones begin with activities of which `P`
holds. -/
structure MoreTasks (P : Activity → Prop) (w w' : World) : Prop where
  size : w.tasks.size ≤ w'.tasks.size
  old : ∀ r, r < w.tasks.size → w'.tasks[r]? = w.tasks[r]?
  new : ∀ r task, w.tasks.size ≤ r → w'.tasks[r]? = some task → ∃ b, P b ∧ task = { activity := b }

namespace MoreTasks

variable {P : Activity → Prop} {u v w : World}

theorem of_tasks (h : v.tasks = u.tasks) : MoreTasks P u v where
  size := Nat.le_of_eq (congrArg Array.size h.symm)
  old r _ := by rw [h]
  new r task hr htask := by
    rw [h, Array.getElem?_eq_none hr] at htask
    cases htask

theorem trans (h : MoreTasks P u v) (h' : MoreTasks P v w) : MoreTasks P u w where
  size := Nat.le_trans h.size h'.size
  old r hr := (h'.old r (Nat.lt_of_lt_of_le hr h.size)).trans (h.old r hr)
  new r task hr htask := by
    by_cases hlt : r < v.tasks.size
    · exact h.new r task hr ((h'.old r hlt).symm.trans htask)
    · exact h'.new r task (Nat.le_of_not_lt hlt) htask

theorem spawn {b : Activity} (hb : P b) : MoreTasks P v (v.spawn b) where
  size := by simp [World.spawn]
  old r hr := by rw [World.spawn, Array.getElem?_push, if_neg (Nat.ne_of_lt hr)]
  new r task hr htask := by
    rw [World.spawn, Array.getElem?_push] at htask
    split at htask
    · cases htask
      exact ⟨b, hb, rfl⟩
    · rw [Array.getElem?_eq_none hr] at htask
      cases htask

end MoreTasks

namespace Course

variable {t : Nat} {a : Activity} {w v : World} {hand : List LinkEnd}

theorem sameNodes (h : Course t a w hand v) : w.SameNodes v := by
  induction h with
  | start => exact .of_nodes rfl
  | forgets _ _ ih => exact ih
  | node _ n hsettings hlistening _ _ ih =>
    exact ih.trans ⟨fun m => settings?_updateNode _ n m hsettings,
      fun m => listening?_updateNode _ n m hlistening⟩
  | aside _ hv _ ih => exact ih.trans (.of_nodes hv.nodes)
  | releases _ s ih => exact ih.trans (.of_nodes (nodes_release ..))
  | act _ _ ih | connects _ _ _ ih | accepts _ _ _ ih | adds _ _ _ ih | asks _ _ _ _ ih
  | takes _ _ _ ih | spawns _ _ ih => exact ih.trans (.of_nodes rfl)

/-- A `Course` of a task that there is leaves `bonded` as it was. -/
theorem bonded (h : Course t a w hand v) (ht : t < w.tasks.size) (m : Nat) :
    v.bonded? m = w.bonded? m := by
  induction h with
  | node _ n _ _ hbonded _ ih =>
    refine (bonded?_updateNode _ n m ?_).trans ih
    exact hbonded.resolve_right (Nat.not_le.2 ht)
  | aside _ hv _ ih => exact (bonded?_of_nodes hv.nodes m).trans ih
  | releases _ s ih => exact (bonded?_of_nodes (nodes_release ..) m).trans ih
  | start => rfl
  | forgets _ _ ih | act _ _ ih | connects _ _ _ ih | accepts _ _ _ ih | adds _ _ _ ih
  | asks _ _ _ _ ih | takes _ _ _ ih | spawns _ _ ih => exact ih

theorem moreTasks (h : Course t a w hand v) : MoreTasks a.Spawns w v := by
  induction h with
  | start => exact .of_tasks rfl
  | forgets _ _ ih => exact ih
  | aside _ hv _ ih => exact ih.trans (.of_tasks hv.tasks)
  | releases _ s ih => exact ih.trans (.of_tasks (tasks_release ..))
  | spawns _ hb ih => exact ih.trans (.spawn hb)
  | node _ _ _ _ _ _ ih | act _ _ ih | connects _ _ _ ih | accepts _ _ _ ih | adds _ _ _ ih
  | asks _ _ _ _ ih | takes _ _ _ ih => exact ih.trans (.of_tasks rfl)

theorem air_release (v : World) (s : Nat) :
    (v.release s).air = v.air ∨ ∃ e, (v.release s).air = v.air.perform (.drop e) := by
  unfold World.release
  split
  · exact .inl rfl
  · split
    · exact .inr ⟨_, rfl⟩
    · exact .inl rfl

/-- The air after a `Course` comes about by acts that `a` `May` perform. -/
theorem exists_acts (h : Course t a w hand v) :
    ∃ acts : List Air.Act, v.air = acts.foldl Air.perform w.air ∧ ∀ act ∈ acts, a.May w act := by
  have hsnoc {air : Air} (x : Air.Act) (hx : a.May w x)
      (h : ∃ acts : List Air.Act, air = acts.foldl Air.perform w.air ∧ ∀ act ∈ acts, a.May w act) :
      ∃ acts : List Air.Act, air.perform x = acts.foldl Air.perform w.air ∧
        ∀ act ∈ acts, a.May w act := by
    obtain ⟨acts, rfl, hacts⟩ := h
    refine ⟨acts ++ [x], by rw [List.foldl_append]; rfl, fun act hact => ?_⟩
    rcases List.mem_append.1 hact with hold | hnew
    · exact hacts act hold
    · rwa [List.mem_singleton.1 hnew]
  induction h with
  | start => exact ⟨[], rfl, nofun⟩
  | forgets _ _ ih => exact ih
  | aside _ _ hair ih => rwa [hair]
  | act _ hx ih => exact hsnoc _ hx ih
  | connects _ ha _ ih => exact hsnoc (.connect _ _ _) ha ih
  | @accepts _ _ _ id _ hid _ ih => exact hsnoc (.accept id) hid ih
  | @releases _ v _ s ih =>
    obtain heq | ⟨e, heq⟩ := air_release v s
    · rwa [heq]
    · rw [heq]
      exact hsnoc (.drop e) trivial ih
  | node _ _ _ _ _ _ ih | adds _ _ _ ih | asks _ _ _ _ ih | takes _ _ _ ih | spawns _ _ ih =>
    exact ih

end Course

namespace Advances

variable {t : Nat} {a : Activity} {w w' : World}

theorem exists_acts (h : Advances t a w w') :
    ∃ acts : List Air.Act, w'.air = acts.foldl Air.perform w.air ∧ ∀ act ∈ acts, a.May w act := by
  cases h with
  | goes h => exact h.exists_acts
  | ends h => exact h.exists_acts

theorem sameNodes (h : Advances t a w w') : w.SameNodes w' := by
  cases h with
  | goes h => exact h.sameNodes.trans (.of_nodes rfl)
  | ends h => exact h.sameNodes.trans (.of_nodes rfl)

theorem bonded (h : Advances t a w w') (ht : t < w.tasks.size) (m : Nat) :
    w'.bonded? m = w.bonded? m := by
  cases h with
  | goes h => exact h.bonded ht m
  | ends h => exact h.bonded ht m

theorem size (h : Advances t a w w') : w.tasks.size ≤ w'.tasks.size := by
  cases h with
  | goes h | ends h => exact Nat.le_trans h.moreTasks.size (Nat.le_of_eq Array.size_modify.symm)

/-- After `Advances` all tasks but `t` are as they were. -/
theorem old (h : Advances t a w w') {r : Nat} (hr : r < w.tasks.size) (hne : r ≠ t) :
    w'.tasks[r]? = w.tasks[r]? := by
  cases h with
  | goes h | ends h =>
    refine Eq.trans ?_ (h.moreTasks.old r hr)
    exact (Array.getElem?_modify ..).trans (if_neg (Ne.symm hne))

theorem new (h : Advances t a w w') (ht : t < w.tasks.size) {r : Nat} {task : Task}
    (hr : w.tasks.size ≤ r) (htask : w'.tasks[r]? = some task) :
    ∃ b, a.Spawns b ∧ task = { activity := b } := by
  have hne : t ≠ r := Nat.ne_of_lt (Nat.lt_of_lt_of_le ht hr)
  cases h with
  | goes h | ends h =>
    exact h.moreTasks.new r task hr
      (((Array.getElem?_modify ..).trans (if_neg hne)).symm.trans htask)

/-- After `Advances` task `t` has an activity of the same `role`, or an outcome. -/
theorem own (h : Advances t a w w') {task : Task} (htask : w.tasks[t]? = some task) :
    (∃ b, b.role = a.role ∧ w'.tasks[t]? = some { task with activity := b }) ∨
      ∃ o, w'.tasks[t]? = some { task with outcome := some o } := by
  have ht : t < w.tasks.size := (Array.getElem?_eq_some_iff.1 htask).1
  cases h with
  | @goes _ _ b h _ hrole =>
    refine .inl ⟨b, hrole, ?_⟩
    rw [World.become, World.updateTask, Array.getElem?_modify, if_pos rfl, h.moreTasks.old t ht,
      htask]
    rfl
  | ends h o =>
    refine .inr ⟨o, ?_⟩
    rw [World.finish, World.updateTask, Array.getElem?_modify, if_pos rfl, h.moreTasks.old t ht,
      htask]
    rfl

end Advances
end World

/-! ### Connecting with retries -/

/-- The ends of links in hand after a step of `Retry`. -/
def Retry.Progress.pens : Retry.Progress → List LinkEnd
  | .going next => next.pens
  | .connected stream => [stream]
  | .failed _ => []

namespace Retry

variable {t : Nat} {a : Activity} {w u v : World} {hand : List LinkEnd}

open World (Course)

theorem course_endpoint (r : Retry) (c : LinkConfig) (h : Course t a w hand v) :
    Course t a w hand (r.endpoint c v).2 := by
  unfold endpoint
  split
  · exact h
  · exact h.drawNumber

theorem course_afterFailure (r : Retry) (c : LinkConfig) (h : Course t a w hand v) :
    Course t a w (r.afterFailure c v).1.pens (r.afterFailure c v).2 := by
  unfold afterFailure
  dsimp only
  split
  · exact (h.count _ (.inl fun _ => rfl)).withTimer.empty
  · exact (h.count _ (.inl fun _ => rfl)).empty

theorem course_step {r : Retry} {q : Progress × World} (ha : a.connects = true)
    (h : Course t a w hand v) (hpens : ∀ e ∈ r.pens, e ∈ hand) (hs : r.step v = some q) :
    Course t a w q.1.pens q.2 := by
  obtain ⟨node, -, hstep⟩ := step_of_step hs
  have hattempt := (r.course_endpoint node.config h).count (n := r.node) .connectAttempt
    (.inl fun _ => rfl)
  cases hstep with
  | spent | resumes => exact h.empty
  | calls _ _ placed =>
    exact (hattempt.call_ok ha placed).forgets fun e he =>
      List.mem_cons.2 (.inl (List.mem_singleton.1 he))
  | refused _ _ placed => exact r.course_afterFailure node.config (hattempt.call_error ha placed)
  | connected stage answer =>
    obtain ⟨hgot, hstream⟩ := h.answer answer
    refine hgot.forgets fun e he => hpens e ?_
    rw [List.mem_singleton.1 he, hstream _ rfl, pens, stage]
    exact List.mem_cons_self
  | failed _ answer => exact r.course_afterFailure node.config (h.answer answer).1

end Retry
end RadioLink
