import RadioLink.Proofs.Address
import RadioLink.Proofs.World.Announcements
import RadioLink.Proofs.World.Listening

/-!
# The life of a node leaves its sessions alone

A `World.Life` of node `n` is a list of episodes: it is started and stopped, peers are added and
removed, tasks take their steps, and somebody else switches radios and bonds them. Whom it announces
itself to is read off the episodes:

    a ∈ peers ↔ Member n a episodes

that is, `a` has joined and was not removed since. What the node has to do with its peers
(`World.dealings?`) is changed by `announced?` and by `removeBonded` alone, and the latter touches
no session but that of the peer; so whatever is registered outlives every stop and start.
-/

namespace RadioLink

open World (Apart)

theorem Node.eq_of_create {dirs : LogPath.Directories} {address : Address} {config : LinkConfig}
    {app : Application} {node : Node} (h : Node.create dirs address config app = .ok node) :
    node = { address, config, app } := by
  unfold Node.create at h
  split at h
  · cases h
  · exact (Except.ok.inj h).symm

/-! ### Lives -/

/-- Something that is done to a node, or that happens meanwhile. -/
inductive Deed where
  | start
  /-- The call of `beginStop`; the task that listens finds out by itself. -/
  | stop
  | add (a : Address)
  | remove (a : Address)
  | task (t : Nat)
  | other
  deriving DecidableEq

/-- The `Cause` of a deed, as far as sessions go. -/
def Deed.cause (n : Nat) : Deed → Cause
  | .task t => .task t
  | .remove a => .removal n a
  | .start | .stop | .add _ | .other => .other

/-- A deed, and the world it was done to. -/
structure Episode where
  deed : Deed
  before : World

namespace World

/-- What somebody else may do: leave node `n` as it is, and keep the `lasting` part of all sessions
and the number of tasks. Radios may be switched and bonded in any way, and time may pass. -/
structure Elsewhere (n : Nat) (w w' : World) : Prop where
  node : w'.nodes[n]? = w.nodes[n]?
  sessions : ∀ s x, w.lasting? s = some x → w'.lasting? s = some x
  tasks : w.tasks.size ≤ w'.tasks.size

/-- What a deed makes of `w`. -/
inductive Enacts (n : Nat) (w : World) : Deed → World → Prop where
  | start : Enacts n w .start (w.start n).2
  | stop : Enacts n w .stop (w.beginStop n).2
  | add (a : Address) : Enacts n w (.add a) (w.addBonded n a)
  | remove (a : Address) : Enacts n w (.remove a) (w.removeBonded n a)
  | task {t : Nat} {w' : World} (h : w.step t = some w') : Enacts n w (.task t) w'
  | other {w' : World} (h : w.Elsewhere n w') : Enacts n w .other w'

/-- The `episodes` in the life of node `n` from `w` to another world, in order. -/
inductive Life (n : Nat) (w : World) : List Episode → World → Prop where
  | new : Life n w [] w
  | next {episodes : List Episode} {deed : Deed} {v u : World} (past : Life n w episodes v)
      (h : v.Enacts n deed u) : Life n w (episodes ++ [⟨deed, v⟩]) u

variable {n : Nat} {w v u : World} {episodes later : List Episode}

theorem Life.append (h : w.Life n episodes v) (h' : v.Life n later u) :
    w.Life n (episodes ++ later) u := by
  induction h' with
  | new => rwa [List.append_nil]
  | next _ hdeed ih =>
    rw [← List.append_assoc]
    exact ih.next hdeed

end World

/-- In this episode `a` is added, or is among those `offered` by the radio when the node is started.
-/
def Episode.Joins (n : Nat) (a : Address) (e : Episode) : Prop :=
  e.deed = .add a ∨ e.deed = .start ∧ a ∈ e.before.offered n

/-- In some episode `a` joins, and it is removed in none that is later. -/
def Member (n : Nat) (a : Address) (episodes : List Episode) : Prop :=
  ∃ earlier e later, episodes = earlier ++ e :: later ∧ e.Joins n a ∧
    ∀ x ∈ later, x.deed ≠ .remove a

theorem not_member_nil (n : Nat) (a : Address) : ¬ Member n a [] := by
  rintro ⟨earlier, e, later, heq, -⟩
  simp at heq

/-- After one more episode `a` is a `Member` if it joins in it, or was one and is not removed in it.
-/
theorem member_concat {n : Nat} {a : Address} {episodes : List Episode} {e : Episode} :
    Member n a (episodes ++ [e]) ↔ e.Joins n a ∨ Member n a episodes ∧ e.deed ≠ .remove a := by
  constructor
  · rintro ⟨earlier, x, later, heq, hjoins, hkept⟩
    rcases List.eq_nil_or_concat later with rfl | ⟨later, y, rfl⟩
    · obtain ⟨-, rfl⟩ := List.append_singleton_inj.1 heq
      exact .inl hjoins
    · rw [List.concat_eq_append, ← List.cons_append, ← List.append_assoc] at heq
      obtain ⟨rfl, rfl⟩ := List.append_singleton_inj.1 heq
      refine .inr ⟨⟨earlier, x, later, rfl, hjoins, fun z hz => hkept z ?_⟩, hkept e ?_⟩
      · simp [hz]
      · simp
  · rintro (hjoins | ⟨⟨earlier, x, later, rfl, hjoins, hkept⟩, hne⟩)
    · exact ⟨episodes, e, [], rfl, hjoins, nofun⟩
    · refine ⟨earlier, x, later ++ [e], by simp, hjoins, fun z hz => ?_⟩
      rcases List.mem_append.1 hz with hz | hz
      · exact hkept z hz
      · rwa [List.mem_singleton.1 hz]

namespace World

variable {n t : Nat} {w w' : World} {node : Node}

/-! ### Whom a node announces itself to -/

theorem bonded?_start (w : World) (n : Nat) : (w.start n).2.bonded? n
    = (w.bonded? n).map ((w.offered n).foldl fun bs a => Address.insertSorted a bs) := by
  by_cases h : w.IsOn n
  · obtain ⟨node, hn, hon⟩ := h
    rw [bonded?, (startsUp hn hon).nodes, nodes_updateNode, if_pos rfl, bonded?, hn]
    rfl
  · rw [start_of_off h, offered_of_off h]
    exact Option.map_id'.symm

theorem bonded?_beginStop (w : World) (n : Nat) : (w.beginStop n).2.bonded? n = w.bonded? n := by
  unfold beginStop
  split
  · rfl
  · exact bonded?_updateNode _ _ _ fun _ => rfl

theorem bonded?_addBonded (w : World) (n : Nat) (a : Address) :
    (w.addBonded n a).bonded? n = (w.bonded? n).map (Address.insertSorted a) := by
  rw [bonded?, addBonded, nodes_updateNode, if_pos rfl, bonded?, Option.map_map, Option.map_map]
  rfl

theorem bonded?_evict (w : World) (n s : Nat) : (w.evict n s).bonded? n = w.bonded? n := by
  unfold evict
  split
  · rfl
  · next peer _ =>
    have hcount (node : Node) :
        ({ node with metrics := node.metrics.count .sessionLost } : Node).bonded = node.bonded :=
      rfl
    have hlose (node : Node) : ({ node with app := node.app.lose peer s } : Node).bonded
        = node.bonded := rfl
    exact ((bonded?_updateNode _ n n hlose).trans (bonded?_updateNode _ n n hcount)).trans
      (bonded?_of_nodes (nodes_release ..) n)

theorem bonded?_removeBonded (w : World) (n : Nat) (a : Address) :
    (w.removeBonded n a).bonded? n = (w.bonded? n).map (·.filter (· ≠ a)) := by
  have hfilter : (w.updateNode n fun node =>
      { node with bonded := node.bonded.filter (· ≠ a) }).bonded? n
        = (w.bonded? n).map (·.filter (· ≠ a)) := by
    rw [bonded?, nodes_updateNode, if_pos rfl, bonded?, Option.map_map, Option.map_map]
    rfl
  rw [removeBonded, unregister, ← hfilter]
  split
  · rfl
  · exact (bonded?_evict ..).trans (bonded?_updateNode _ _ _ fun _ => rfl)

/-- Every deed keeps `bonded? n` in strict order; it holds whoever `Joins` and whoever was there and
is not removed. -/
theorem Enacts.bonded {deed : Deed} (h : w.Enacts n deed w') {peers : List Address}
    (hpeers : w.bonded? n = some peers) (hsorted : peers.Pairwise (· < ·)) :
    ∃ peers', w'.bonded? n = some peers' ∧ peers'.Pairwise (· < ·) ∧
      ∀ a, a ∈ peers' ↔ Episode.Joins n a ⟨deed, w⟩ ∨ a ∈ peers ∧ deed ≠ .remove a := by
  cases h with
  | start =>
    refine ⟨(w.offered n).foldl (fun bs a => Address.insertSorted a bs) peers, ?_,
      Address.pairwise_foldl_insertSorted hsorted, fun a => ?_⟩
    · rw [bonded?_start, hpeers]
      rfl
    · simp [Address.mem_foldl_insertSorted, Episode.Joins]
  | stop =>
    refine ⟨peers, ?_, hsorted, fun a => ?_⟩
    · rw [bonded?_beginStop, hpeers]
    · simp [Episode.Joins]
  | add b =>
    refine ⟨Address.insertSorted b peers, ?_, Address.pairwise_insertSorted hsorted, fun a => ?_⟩
    · rw [bonded?_addBonded, hpeers]
      rfl
    · simp [Address.mem_insertSorted, Episode.Joins, eq_comm]
  | remove b =>
    refine ⟨peers.filter (· ≠ b), ?_, hsorted.filter _, fun a => ?_⟩
    · rw [bonded?_removeBonded, hpeers]
      rfl
    · simp [Episode.Joins, eq_comm (a := b) (b := a)]
  | task hstep =>
    obtain ⟨task, htask, -, hadvances, -⟩ := exists_advances hstep
    refine ⟨peers, ?_, hsorted, fun a => ?_⟩
    · rw [hadvances.bonded (Array.getElem?_eq_some_iff.1 htask).1, hpeers]
    · simp [Episode.Joins]
  | other helse =>
    refine ⟨peers, ?_, hsorted, fun a => ?_⟩
    · rw [bonded?, helse.node]
      exact hpeers
    · simp [Episode.Joins]

theorem listening?_of_nodes (h : w'.nodes[n]? = w.nodes[n]?) :
    w'.listening? n = w.listening? n := by
  rw [listening?, h, listening?]

/-- The task that `listening? n` tells of has been started. -/
def ListenerThere (w : World) (n : Nat) : Prop := ∀ t, w.listening? n = some t → t < w.tasks.size

theorem Enacts.listenerThere {deed : Deed} (h : w.Enacts n deed w') (hw : w.ListenerThere n) :
    w'.ListenerThere n := by
  intro t ht
  cases h with
  | start =>
    by_cases hon : w.IsOn n
    · obtain ⟨node, hn, hon⟩ := hon
      have hstarts := startsUp hn hon
      rw [listening?, hstarts.nodes, nodes_updateNode, if_pos rfl, hn] at ht
      obtain rfl := Option.some.inj ht
      rw [hstarts.size]
      exact Nat.lt_succ_self _
    · rw [start_of_off hon] at ht ⊢
      exact hw t ht
  | stop =>
    rw [listening?_beginStop, if_pos rfl] at ht
    cases ht
  | add a =>
    have hkept : (w.addBonded n a).listening? n = w.listening? n :=
      listening?_updateNode _ _ _ fun _ => rfl
    exact hw t (hkept ▸ ht)
  | remove a =>
    rw [(w.course_removeBonded n a).sameNodes.listening] at ht
    rw [tasks_removeBonded]
    exact hw t ht
  | task hstep =>
    obtain ⟨task, -, -, hadvances, -⟩ := exists_advances hstep
    rw [hadvances.sameNodes.listening] at ht
    exact Nat.lt_of_lt_of_le (hw t ht) hadvances.size
  | other helse =>
    rw [listening?_of_nodes helse.node] at ht
    exact Nat.lt_of_lt_of_le (hw t ht) helse.tasks

/-! ### What a node has to do with its peers -/

theorem dealings_start (w : World) (n : Nat) : (w.start n).2.dealings? n = w.dealings? n := by
  by_cases h : w.IsOn n
  · obtain ⟨node, hn, hon⟩ := h
    rw [dealings_of_nodes (startsUp hn hon).nodes]
    exact dealings_updateNode fun _ => rfl
  · rw [start_of_off h]

theorem dealings_beginStop (w : World) (n : Nat) :
    (w.beginStop n).2.dealings? n = w.dealings? n := by
  unfold beginStop
  split
  · rfl
  · exact dealings_updateNode fun _ => rfl

/-- A deed that is neither a removal nor a step with something `announced?` leaves `dealings? n` as
it was. -/
theorem Enacts.dealings {deed : Deed} (h : w.Enacts n deed w') (hkept : ∀ a, deed ≠ .remove a)
    (hquiet : ∀ t, deed = .task t → w.announced? n t = none) : w'.dealings? n = w.dealings? n := by
  cases h with
  | start => exact dealings_start w n
  | stop => exact dealings_beginStop w n
  | add a => exact dealings_updateNode fun _ => rfl
  | remove a => exact absurd rfl (hkept a)
  | @task t _ hstep =>
    rcases dealings_step (n := n) hstep with ⟨a, id, -, -, -, -, -, hannounced, -⟩ | ⟨-, hdealings⟩
    · rw [hquiet t rfl] at hannounced
      cases hannounced
    · exact hdealings
  | other helse => rw [dealings?, helse.node, dealings?]

theorem Enacts.sessions {deed : Deed} (h : w.Enacts n deed w') {s : Nat} {x : Session}
    (hx : w.lasting? s = some x) : w'.lasting? s = some x := by
  cases h with
  | start => rwa [lasting?, sessions_start]
  | stop => rwa [lasting?, sessions_beginStop]
  | add a => exact hx
  | remove a => exact (Apart.refl (t := 0).removeBonded a).sessions s x hx
  | task hstep => exact (step_apart hstep).sessions s x hx
  | other helse => exact helse.sessions s x hx

theorem Enacts.happens {deed : Deed} (h : w.Enacts n deed w') :
    Event.Happens (KeepsRegistry n) ⟨deed.cause n, w, w'⟩ := by
  have hquiet (hkept : ∀ a, deed ≠ .remove a) (htask : ∀ t, deed ≠ .task t) :
      KeepsRegistry n w w' :=
    ⟨fun s x hx => h.sessions hx, fun a => registered?_of_dealings
      (h.dealings hkept fun t ht => absurd ht (htask t)) a⟩
  cases h with
  | start | stop | add | other => exact hquiet nofun nofun
  | remove a => exact rfl
  | task hstep => exact hstep

end World

/-- An episode in which what is registered for `a` may change: `a` is removed, or announces itself.
-/
def Episode.Touches (n : Nat) (a : Address) (e : Episode) : Prop :=
  e.deed = .remove a ∨ ∃ t id, e.deed = .task t ∧ e.before.announced? n t = some (a, id)

namespace World

variable {n t : Nat} {w w' : World} {node : Node} {notes : List Note}

/-- A deed that does not touch `a` leaves what is registered for it. -/
theorem Enacts.registered {deed : Deed} {a : Address} (h : w.Enacts n deed w')
    (hnotes : w.Reflects n notes) (hspared : ¬ Episode.Touches n a ⟨deed, w⟩) :
    w'.registered? n a = w.registered? n a := by
  have hafter := hnotes.next h.happens
  rw [hafter.registered, hnotes.registered]
  congr 1
  cases hnote : Event.note? n ⟨deed.cause n, w, w'⟩ with
  | none => rw [Option.toList_none, List.append_nil]
  | some note =>
    rw [Option.toList_some, latest?_concat]
    cases deed with
    | start | stop | add | other => cases hnote
    | remove b =>
      obtain rfl : Note.removed b = note := by simpa [Event.note?, Deed.cause] using hnote
      have hne : b ≠ a := fun heq => hspared (.inl (heq ▸ rfl))
      exact if_neg hne
    | task t =>
      obtain ⟨⟨b, id⟩, hannounced, rfl⟩ := Option.map_eq_some_iff.1 hnote
      have hne : b ≠ a := fun heq => hspared (.inr ⟨t, id, rfl, heq ▸ hannounced⟩)
      exact if_neg hne

theorem Reflects.peerAddress {a : Address} {s : Nat} (h : w.Reflects n notes)
    (hs : w.registered? n a = some s) : w.peerAddress? s = some a := by
  rw [h.registered] at hs
  obtain ⟨⟨id, s⟩, hlatest, rfl⟩ := Option.map_eq_some_iff.1 hs
  obtain ⟨x, hx, hlasting⟩ := Option.map_eq_some_iff.1 (h.session a id _ hlatest)
  have hpeer : x.peer = ⟨a, some id⟩ := congrArg Session.peer hlasting
  rw [peerAddress?, hx, Option.map_some, hpeer]

end World

/-! ### Removing a peer -/

/-- The node without `a` in `bonded`, and without the session registered for it, which its
application has heard of as lost. -/
def Node.dismiss (node : Node) (a : Address) : Node :=
  let alone := { node with bonded := node.bonded.filter (· ≠ a) }
  (node.registry.get? a).elim alone fun s => (alone.withdraw a).part a s

namespace World

variable {n t : Nat} {w w' : World} {node : Node} {notes : List Note}

theorem Reflects.nodes_removeBonded (h : w.Reflects n notes) (hn : w.nodes[n]? = some node)
    (a : Address) : (w.removeBonded n a).nodes[n]? = some (node.dismiss a) := by
  have hreg : w.registered? n a = node.registry.get? a := by
    rw [registered?, hn]
    rfl
  have halone : (w.updateNode n fun node =>
      { node with bonded := node.bonded.filter (· ≠ a) }).nodes[n]?
        = some { node with bonded := node.bonded.filter (· ≠ a) } := by
    rw [nodes_updateNode, if_pos rfl, hn]
    rfl
  rw [removeBonded, Node.dismiss]
  cases hold : node.registry.get? a with
  | none =>
    rw [unregister_of_none]
    · exact halone
    · rw [registered?, halone]
      exact hold
  | some s => exact nodes_unregister halone hold (h.peerAddress (hreg.trans hold))

theorem Reflects.registered?_removeBonded (h : w.Reflects n notes) (a b : Address) :
    (w.removeBonded n a).registered? n b = if a = b then none else w.registered? n b := by
  rw [h.removed.registered, latest?_concat, h.registered, Note.revise]
  split <;> rfl

/-! ### Whole lives -/

variable {v u : World} {episodes later : List Episode}

theorem Life.sessions (h : w.Life n episodes v) {s : Nat} {x : Session}
    (hx : w.lasting? s = some x) : v.lasting? s = some x := by
  induction h with
  | new => exact hx
  | next _ hdeed ih => exact hdeed.sessions ih

theorem Life.reflects (h : w.Life n episodes v) (hw : w.Reflects n notes) :
    ∃ notes', v.Reflects n notes' := by
  induction h with
  | new => exact ⟨notes, hw⟩
  | next _ hdeed ih =>
    obtain ⟨notes', hv⟩ := ih
    exact ⟨_, hv.next hdeed.happens⟩

theorem Life.listenerThere (h : w.Life n episodes v) (hw : w.ListenerThere n) :
    v.ListenerThere n := by
  induction h with
  | new => exact hw
  | next _ hdeed ih => exact hdeed.listenerThere ih

/-- From no peers on, `bonded? n` is in strict order, and holds `a` if and only if `a` is a
`Member`. -/
theorem Life.bonded (h : w.Life n episodes v) (hw : w.bonded? n = some []) :
    ∃ peers, v.bonded? n = some peers ∧ peers.Pairwise (· < ·) ∧
      ∀ a, a ∈ peers ↔ Member n a episodes := by
  induction h with
  | new => exact ⟨[], hw, .nil, fun a => by simp [not_member_nil]⟩
  | next _ hdeed ih =>
    obtain ⟨peers, hpeers, hsorted, hmembers⟩ := ih
    obtain ⟨peers', hpeers', hsorted', hmembers'⟩ := hdeed.bonded hpeers hsorted
    refine ⟨peers', hpeers', hsorted', fun a => ?_⟩
    rw [hmembers', member_concat, hmembers]

/-- What is registered for `a` stays, if no episode touches `a`. -/
theorem Life.registered {a : Address} (h : w.Life n episodes v) (hw : w.Reflects n notes)
    (hspared : ∀ e ∈ episodes, ¬ e.Touches n a) : v.registered? n a = w.registered? n a := by
  induction h with
  | new => rfl
  | @next episodes deed v u past hdeed ih =>
    obtain ⟨notes', hv⟩ := past.reflects hw
    have hbefore := ih fun e he => hspared e (List.mem_append_left _ he)
    have hlast := hspared ⟨deed, v⟩ (List.mem_append_right _ (List.mem_singleton.2 rfl))
    exact (hdeed.registered hv hlast).trans hbefore

/-! ### Stopping and starting again -/

/-- From `w` to `w'` there are only steps of tasks and events that are `Elsewhere`. -/
def RunsTo (n : Nat) (w w' : World) : Prop :=
  ∃ episodes, w.Life n episodes w' ∧ ∀ e ∈ episodes, (∃ t, e.deed = .task t) ∨ e.deed = .other

theorem RunsTo.refl : RunsTo n w w := ⟨[], .new, nofun⟩

theorem RunsTo.trans (h : RunsTo n w v) (h' : RunsTo n v u) : RunsTo n w u := by
  obtain ⟨episodes, hlife, hquiet⟩ := h
  obtain ⟨later, hlater, hquiet'⟩ := h'
  refine ⟨episodes ++ later, hlife.append hlater, fun e he => ?_⟩
  rcases List.mem_append.1 he with he | he
  · exact hquiet e he
  · exact hquiet' e he

theorem RunsTo.task (h : w.step t = some v) : RunsTo n w v := by
  refine ⟨_, Life.new.next (.task h), fun e he => ?_⟩
  rw [List.mem_singleton.1 he]
  exact .inl ⟨t, rfl⟩

theorem RunsTo.moment (w : World) (moment : Nat) : RunsTo n w { w with now := moment } := by
  refine ⟨_, Life.new.next (.other ⟨rfl, fun _ _ hx => hx, Nat.le_refl _⟩), fun e he => ?_⟩
  rw [List.mem_singleton.1 he]
  exact .inr rfl

theorem runsTo_runLine (n fuel : Nat) (w : World) (line : List Nat) :
    RunsTo n w (w.runLine fuel line) := by
  induction fuel generalizing w line with
  | zero => exact .refl
  | succ fuel ih =>
    cases line with
    | nil =>
      simp only [runLine]
      split
      · exact .refl
      · exact ih _ _
    | cons t rest =>
      simp only [runLine]
      split
      · exact ih _ _
      · next v hstep => exact (RunsTo.task hstep).trans (ih _ _)

theorem runsTo_runUntil (n fuel : Nat) (done : World → Bool) (w : World) :
    RunsTo n w (w.runUntil fuel done) := by
  induction fuel generalizing w with
  | zero => exact .refl
  | succ fuel ih =>
    simp only [runUntil]
    split
    · exact .refl
    · split
      · exact .refl
      · next due _ =>
        have hpass : RunsTo n w (w.passTo due) := (RunsTo.moment w due).trans (runsTo_runLine ..)
        exact hpass.trans (ih _)

theorem runsTo_stop (w : World) (n : Nat) : RunsTo n (w.beginStop n).2 (w.stop n) := by
  have hsettle (v : World) : RunsTo n v v.settle := runsTo_runLine ..
  unfold stop
  split
  · next v heq =>
    rw [heq]
    exact hsettle v
  · next t v heq =>
    rw [heq]
    exact (hsettle v).trans (runsTo_runUntil ..)

/-- What `World.stop` does is a life of `.stop`, steps of tasks, and events that are `Elsewhere`. -/
theorem exists_life_stop (w : World) (n : Nat) : ∃ later, w.Life n later (w.stop n) ∧
    ∀ e ∈ later, e.deed = .stop ∨ (∃ t, e.deed = .task t) ∨ e.deed = .other := by
  obtain ⟨later, hlater, hquiet⟩ := runsTo_stop w n
  refine ⟨_, (Life.new.next .stop).append hlater, fun e he => ?_⟩
  rcases List.mem_append.1 he with he | he
  · rw [List.mem_singleton.1 he]
    exact .inl rfl
  · exact .inr (hquiet e he)

/-- What is so of node `n` after these episodes: its lifecycle and its sessions are apart. -/
structure LifeApart (n : Nat) (episodes : List Episode) (v : World) : Prop where
  /-- The peers are in strict order, and are the `Member`s. -/
  peers : ∃ peers, v.bonded? n = some peers ∧ peers.Pairwise (· < ·) ∧
    ∀ a, a ∈ peers ↔ Member n a episodes
  /-- Where the radio is off, `World.start` does nothing. -/
  off : ¬ v.IsOn n → v.start n = ([], v)
  /-- Where the radio is on, `World.start` tells of one new task for each peer there is then, which
  announces the node there. -/
  on : v.IsOn n → ∃ peers, (v.start n).2.bonded? n = some peers ∧ peers.Pairwise (· < ·) ∧
    (∀ a, a ∈ peers ↔ Member n a (episodes ++ [⟨.start, v⟩])) ∧
    (v.start n).1 = List.range' v.tasks.size peers.length ∧
    (v.start n).1.map ((v.start n).2.tasks[·]?) = peers.map fun a => some (announcingTask n a)
  /-- What `World.restart` does is `World.stop`, which is a life as well, and then `World.start`. -/
  restarts : ∃ later, v.Life n later (v.stop n) ∧
    (∀ e ∈ later, e.deed = .stop ∨ (∃ t, e.deed = .task t) ∨ e.deed = .other) ∧
    v.restart n = (v.stop n).start n
  /-- No deed but a removal and a step with something `announced?` changes `dealings? n`. -/
  spares : ∀ deed u, v.Enacts n deed u → (∀ a, deed ≠ .remove a) →
    (∀ t, deed = .task t → v.announced? n t = none) → u.dealings? n = v.dealings? n
  /-- The call of `removeBonded` makes of the node what `Node.dismiss` says. -/
  removes : ∀ a, ∃ node, v.nodes[n]? = some node ∧
    (v.removeBonded n a).nodes[n]? = some (node.dismiss a) ∧
    ∀ b, (v.removeBonded n a).registered? n b = if a = b then none else v.registered? n b
  /-- A session that is registered for `a` stays so in every later life that does not touch `a`. -/
  survives : ∀ later u a s, v.Life n later u → (∀ e ∈ later, ¬ e.Touches n a) →
    v.registered? n a = some s →
      u.registered? n a = some s ∧ ∃ x, v.lasting? s = some x ∧ u.lasting? s = some x

variable {dirs : LogPath.Directories} {address : Address} {config : LinkConfig} {app : Application}

/-- **The lifecycle of a node and its sessions are apart.** In every life of a node that
`Node.create` returns, the peers it announces itself to are the `Member`s, and each start while the
radio is on tells of one new task for each of them; `dealings? n`, with the registry and what the
application has heard of its sessions, changes only where another device is announced or a peer
removed; and `removeBonded` touches no session but that of the peer. -/
theorem lifecycle_apart_from_sessions (hnew : Node.create dirs address config app = .ok node)
    (h : (w.addNode node).Life w.nodes.size episodes v) : LifeApart w.nodes.size episodes v := by
  have hnode : (w.addNode node).nodes[w.nodes.size]? = some { address, config, app } := by
    rw [addNode, Array.getElem?_push_size, Node.eq_of_create hnew]
  have hbonded : (w.addNode node).bonded? w.nodes.size = some [] := by
    rw [bonded?, hnode]
    rfl
  have hempty : (w.addNode node).Reflects w.nodes.size [] := by
    refine ⟨fun a => ?_, fun a id s hlatest => ?_⟩
    · rw [registered?, hnode]
      rfl
    · cases hlatest
  have hlistening : (w.addNode node).ListenerThere w.nodes.size := by
    intro t ht
    rw [listening?, hnode] at ht
    cases ht
  obtain ⟨peers, hpeers, hsorted, hmembers⟩ := h.bonded hbonded
  obtain ⟨notes, hnotes⟩ := h.reflects hempty
  refine ⟨⟨peers, hpeers, hsorted, hmembers⟩, start_of_off, fun hon => ?_, ?_, fun _ _ => ?_,
    fun a => ?_, fun later u a s hlater hspared hs => ?_⟩
  · obtain ⟨peers', hpeers', hsorted', hmembers'⟩ := (h.next .start).bonded hbonded
    obtain ⟨node', hnode', hon'⟩ := hon
    have hstarts := startsUp hnode' hon'
    -- the peers that the tasks are for are those that the node has afterwards
    have hsame : (v.start w.nodes.size).2.bonded? w.nodes.size
        = some ((v.offered w.nodes.size).foldl
          (fun bs a => Address.insertSorted a bs) node'.bonded) := by
      rw [bonded?_start, bonded?, hnode']
      rfl
    obtain rfl := Option.some.inj (hpeers'.symm.trans hsame)
    exact ⟨_, hpeers', hsorted', hmembers', hstarts.told,
      hstarts.announces (h.listenerThere hlistening)⟩
  · obtain ⟨later, hlater, hdeeds⟩ := exists_life_stop v w.nodes.size
    exact ⟨later, hlater, hdeeds, rfl⟩
  · exact Enacts.dealings
  · obtain ⟨node', hnode', -⟩ := Option.map_eq_some_iff.1 hpeers
    exact ⟨node', hnode', hnotes.nodes_removeBonded hnode' a, hnotes.registered?_removeBonded a⟩
  · refine ⟨(hlater.registered hnotes hspared).trans hs, ?_⟩
    rw [hnotes.registered] at hs
    obtain ⟨⟨id, s⟩, hlatest, rfl⟩ := Option.map_eq_some_iff.1 hs
    have hx := hnotes.session a id _ hlatest
    exact ⟨_, hx, hlater.sessions hx⟩

/-- A phone announces itself to a node, which is started then, stopped, and started again. -/
theorem lifecycle_apart_from_sessions_restarted :
    let a : Address := ⟨#v[2, 0, 0, 0, 0, 1]⟩
    let b : Address := ⟨#v[2, 0, 0, 0, 0, 2]⟩
    let c : Address := ⟨#v[2, 0, 0, 0, 0, 3]⟩
    let app : Application :=
      { deviceId := "desk", secret := Vector.replicate 32 0, announcement := .ofKind 1 .identity }
    let text := "[1,\"identity\",\x7b\"deviceId\":\"p\"\x7d]"
    let w : World :=
      { air := ((({} : Air).switchOn a).switchOn b).bond a b
        tasks :=
          #[{ activity := .accepting ⟨0, a, .ready (.script ⟨[Bytes.ofText text], .ended⟩)⟩ }] }
    ∃ node episodes v, Node.create ⟨[]⟩ b {} app = .ok node ∧ (w.addNode node).Life 0 episodes v ∧
      v.registered? 0 a = some 0 ∧ (∀ x, Member 0 x episodes ↔ x = a ∨ x = c) ∧
      ((v.beginStop 0).2.start 0).2.registered? 0 a = some 0 ∧
      (v.removeBonded 0 a).registered? 0 a = none := by
  intro a b c app text w
  let node : Node := { address := b, config := {}, app }
  have hnew : Node.create ⟨[]⟩ b {} app = .ok node := rfl
  have hrun : ((((w.addNode node).addBonded 0 c).step 0).bind fun w₁ => (w₁.step 0).bind fun w₂ =>
      (w₂.step 0).map fun w₃ => ((w₃.start 0).2.registered? 0 a, (w₃.start 0).2.bonded? 0))
        = some (some 0, some [a, c]) := by
    decide +kernel
  obtain ⟨w₁, hstep₁, hrun⟩ := Option.bind_eq_some_iff.1 hrun
  obtain ⟨w₂, hstep₂, hrun⟩ := Option.bind_eq_some_iff.1 hrun
  obtain ⟨w₃, hstep₃, hrun⟩ := Option.map_eq_some_iff.1 hrun
  obtain ⟨hregistered, hbonded⟩ := Prod.mk.inj hrun
  have hlife := ((((Life.new.next (.add c)).next (.task hstep₁)).next (.task hstep₂)).next
    (.task hstep₃)).next (n := 0) .start
  have happart := lifecycle_apart_from_sessions (w := w) hnew hlife
  have hcycle := (Life.new.next (n := 0) (.stop (w := (w₃.start 0).2))).next .start
  refine ⟨node, _, _, hnew, hlife, hregistered, fun x => ?_, ?_, ?_⟩
  · obtain ⟨peers, hpeers, -, hmembers⟩ := happart.peers
    obtain rfl := Option.some.inj (hbonded.symm.trans hpeers)
    exact (hmembers x).symm.trans (by simp)
  · refine (happart.survives _ _ a 0 hcycle (fun e he htouches => ?_) hregistered).1
    simp only [List.nil_append, List.cons_append, List.mem_cons, List.not_mem_nil, or_false] at he
    rcases he with rfl | rfl <;> rcases htouches with heq | ⟨t, id, heq, -⟩ <;> cases heq
  · obtain ⟨-, -, -, hregistered'⟩ := happart.removes a
    exact (hregistered' a).trans (if_pos rfl)

end World
end RadioLink
