import RadioLink.Proofs.World.Attempts
import RadioLink.Proofs.World.Wanted

/-!
# One round after the other

A task that takes connections in goes round and round: it listens, hands over the connection that it
gets and waits for the outcome of the task that takes it in; if `Air.listen` or `Air.accept` fails,
it pauses for `listener.errorBackoff` instead and listens again. `Listening.Turn` has one
constructor for each way in which it goes on or ends, and `Listening.Rounds` says of the rounds so
far when each began and what came of it.
-/

namespace RadioLink

open World (air_of_noticesStop aside_of_noticesStop told_of_noticesStop)

/-! ### Turns -/

namespace Listening

/-- In this stage `Air.listen` or `Air.accept` returns an error. -/
inductive Fails (node : Node) (air : Air) : Stage → Prop where
  | listen {fault : LinkError} (active : node.active = true)
      (enabled : (air.radio node.address).enabled = true)
      (listen : (air.listen (place node).1 (place node).2).1 = .error fault) : Fails node air .ready
  | accept {id : Nat} {fault : LinkError} (accept : (air.accept id).1 = .error fault) :
      Fails node air (.waiting id)

/-- What one step of the task `t` of `l` can come to. -/
inductive Turn (t : Nat) (l : Listening) (node : Node) (w : World) : World → Prop where
  /-- It is `.ready`, and finds `node.active` false or the radio disabled. -/
  | retires {v : World} (stage : l.stage = .ready)
      (idle : node.active = false ∨ (w.air.radio node.address).enabled = false)
      (tasks : v.tasks = w.tasks) (inactive : v.active? l.node = some false) :
      Turn t l node w (v.finish t .done)
  /-- It finds that `node.listening` is not `t` any more. -/
  | stops {v : World} (away : ∀ r, l.stage ≠ .handling r) (told : node.listening ≠ some t)
      (tasks : v.tasks = w.tasks) : Turn t l node w (v.finish t .done)
  | opens {v : World} {id : Nat} (stage : l.stage = .ready) (active : node.active = true)
      (enabled : (w.air.radio node.address).enabled = true)
      (listen : (w.air.listen (place node).1 (place node).2).1 = .ok id)
      (tasks : v.tasks = w.tasks) :
      Turn t l node w (v.become t (.listening { l with stage := .waiting id }))
  | fails {v : World} {timer : Timer} (fails : Fails node w.air l.stage) (tasks : v.tasks = w.tasks)
      (due : timer.due = w.now + node.config.listener.errorBackoff) :
      Turn t l node w (v.become t (.listening { l with stage := .pausing timer }))
  | takes {v : World} {id : Nat} {stream : LinkEnd} {sender : Address}
      (stage : l.stage = .waiting id) (accept : (w.air.accept id).1 = .connected stream)
      (tasks : v.tasks = w.tasks) :
      Turn t l node w (v.handOver t l id stream sender)
  /-- Task `r` that took the connection in has an outcome. -/
  | dealt {v : World} {r : Nat} (stage : l.stage = .handling r)
      (ended : (w.outcome? r).isSome = true) (tasks : v.tasks = w.tasks) :
      Turn t l node w (v.become t (.listening { l with stage := .ready }))
  | recovers {v : World} {timer : Timer} (stage : l.stage = .pausing timer)
      (due : timer.due ≤ w.now) (tasks : v.tasks = w.tasks) :
      Turn t l node w (v.become t (.listening { l with stage := .ready }))

variable {t : Nat} {l : Listening} {node : Node} {w u : World}

/-- Whatever `stepListening` returns is one of the `Turn`s. -/
theorem turn_of_step (hnode : w.nodes[l.node]? = some node) (hs : w.stepListening t l = some u) :
    Turn t l node w u := by
  obtain ⟨node', hnode', hstep⟩ := step_of_stepListening hs
  cases hnode.symm.trans hnode'
  have haway {stage : Stage} (hstage : l.stage = stage) (h : ∀ r, stage ≠ .handling r) (r : Nat) :
      l.stage ≠ .handling r := hstage ▸ h r
  have hidle (h : World.isListening t node = false) : node.listening ≠ some t :=
    of_decide_eq_false h
  cases hstep with
  | inactive stage idle =>
    exact .retires stage (.inl idle) rfl (by rw [World.active?, hnode, Option.map_some, idle])
  | radioOff stage off =>
    refine .retires stage (.inr off) rfl ?_
    rw [World.active?, World.nodes_updateNode, if_pos rfl, hnode]
    rfl
  | @opens v id air stage active enabled notices listen =>
    rw [air_of_noticesStop notices] at listen
    exact .opens (v := { v with air }) stage active enabled (congrArg Prod.fst listen)
      (aside_of_noticesStop notices).tasks
  | @refused v _ air stage active enabled notices listen =>
    rw [air_of_noticesStop notices] at listen
    have hfails : Fails node w.air l.stage :=
      stage ▸ .listen active enabled (congrArg Prod.fst listen)
    exact .fails (v := World.withTimer { v with air }) hfails (aside_of_noticesStop notices).tasks
      (congrArg (· + node.config.listener.errorBackoff) (aside_of_noticesStop notices).now)
  | @takes v _ _ air _ stage accept notices =>
    exact .takes (v := { v with air }) stage (congrArg Prod.fst accept)
      (aside_of_noticesStop notices).tasks
  | @fails v id _ air stage accept notices =>
    have hfails : Fails node w.air l.stage := stage ▸ .accept (congrArg Prod.fst accept)
    exact .fails (v := (World.closeListener { v with air } id).withTimer) hfails
      (aside_of_noticesStop notices).tasks
      (congrArg (· + node.config.listener.errorBackoff) (aside_of_noticesStop notices).now)
  | @shuts v id stage notices =>
    exact .stops (v := v.closeListener id) (haway stage (by simp)) (told_of_noticesStop notices)
      (aside_of_noticesStop notices).tasks
  | @shutsIdle id stage told =>
    exact .stops (v := w.closeListener id) (haway stage (by simp)) (hidle told) rfl
  | dealt stage ended => exact .dealt stage ended rfl
  | recovers stage due notices =>
    exact .recovers stage (of_decide_eq_true due) (aside_of_noticesStop notices).tasks
  | stops stage notices =>
    obtain stage | ⟨_, stage⟩ := stage <;>
      exact .stops (haway stage (by simp)) (told_of_noticesStop notices)
        (aside_of_noticesStop notices).tasks
  | stopsIdle stage told => exact .stops (haway stage (by simp)) (hidle told) rfl

/-! ### Rounds -/

/-- What has come of a round. -/
inductive Upshot where
  /-- The `task` was started to take a connection in. -/
  | took (task : Nat)
  /-- At this moment `Air.listen` or `Air.accept` has failed. -/
  | failed (moment : Nat)

/-- One round: when it has `begun`, and its `Upshot`, if it has one. -/
structure Round where
  begun : Nat
  over? : Option Upshot

/-- The moment at which a round failed, if it did. -/
def Round.failed? (x : Round) : Option Nat :=
  match x.over? with
  | some (.failed moment) => some moment
  | _ => none

/-- At the moment `begun` task `t` opened the listener `id` at the place of `node`. -/
def Opened (node : Node) (t : Nat) (events : List Event) (id begun : Nat) : Prop :=
  Noted t events fun _ w => (w.air.listen (place node).1 (place node).2).1 = .ok id ∧ w.now = begun

/-- What task `t` can have made a round of, after `events`. -/
inductive Makes (node : Node) (n t : Nat) (events : List Event) : Round → Prop where
  | refused {fault : LinkError} {moment : Nat}
      (found : Noted t events fun _ w =>
        (w.air.listen (place node).1 (place node).2).1 = .error fault ∧ w.now = moment) :
      Makes node n t events ⟨moment, some (.failed moment)⟩
  | waits {id begun : Nat} (opened : Opened node t events id begun) :
      Makes node n t events ⟨begun, none⟩
  | lost {id begun ended : Nat} {fault : LinkError} (opened : Opened node t events id begun)
      (found : Noted t events fun _ w => (w.air.accept id).1 = .error fault ∧ w.now = ended) :
      Makes node n t events ⟨begun, some (.failed ended)⟩
  | took {id begun r : Nat} {stream : LinkEnd} {sender : Address} {e : Event}
      (opened : Opened node t events id begun) (happened : e ∈ events) (cause : e.cause = .task t)
      (accept : (e.before.air.accept id).1 = .connected stream)
      (started : e.after.tasks[r]?
        = some { activity := .accepting ⟨n, sender, .ready (.link stream)⟩ }) :
      Makes node n t events ⟨begun, some (.took r)⟩

/-- When the next round begins after this `Upshot`: `errorBackoff` after a failure, and otherwise
where the task that took the connection in was found to have an outcome, whichever it was. -/
def Follows (node : Node) (t : Nat) (events : List Event) (moment : Nat) : Upshot → Prop
  | .failed ended => moment = ended + node.config.listener.errorBackoff
  | .took r => Noted t events fun _ w => (w.outcome? r).isSome = true ∧ w.now = moment

/-- When a round begins after those in `past`: the first one at the moment `since`, each other one
as it `Follows` the one before. -/
def Begins (node : Node) (t since : Nat) (events : List Event) (past : List Round) (moment : Nat) :
    Prop :=
  match past.getLast? with
  | none => moment = since
  | some x => ∃ upshot, x.over? = some upshot ∧ Follows node t events moment upshot

/-- The rounds of task `t`, one after the other, from the moment `since`. -/
inductive Rounds (node : Node) (n t since : Nat) (events : List Event) : List Round → Prop where
  | none : Rounds node n t since events []
  | next {past : List Round} {x : Round} (h : Rounds node n t since events past)
      (begins : Begins node t since events past x.begun) (makes : Makes node n t events x) :
      Rounds node n t since events (past ++ [x])

/-- Where a task in this stage stands, with its rounds so far. -/
inductive Standing (node : Node) (n t since : Nat) (events : List Event) (now : Nat) :
    Stage → List Round → Prop where
  | ready {past : List Round} (rounds : Rounds node n t since events past)
      (begins : Begins node t since events past now) :
      Standing node n t since events now .ready past
  | waiting {past : List Round} {id begun : Nat} (rounds : Rounds node n t since events past)
      (begins : Begins node t since events past begun) (opened : Opened node t events id begun) :
      Standing node n t since events now (.waiting id) (past ++ [⟨begun, none⟩])
  | handling {past : List Round} {begun r : Nat}
      (rounds : Rounds node n t since events (past ++ [⟨begun, some (.took r)⟩])) :
      Standing node n t since events now (.handling r) (past ++ [⟨begun, some (.took r)⟩])
  | pausing {past : List Round} {timer : Timer} {begun ended : Nat}
      (rounds : Rounds node n t since events (past ++ [⟨begun, some (.failed ended)⟩]))
      (due : timer.due = ended + node.config.listener.errorBackoff) (time : now ≤ timer.due) :
      Standing node n t since events now (.pausing timer) (past ++ [⟨begun, some (.failed ended)⟩])

section Rounds

variable {n since now moment : Nat} {events : List Event} {past all : List Round} {x : Round}
  {s : Stage}

theorem Makes.concat (h : Makes node n t events x) (e : Event) :
    Makes node n t (events ++ [e]) x := by
  cases h with
  | refused found => exact .refused (found.concat e)
  | waits opened => exact .waits (Noted.concat opened e)
  | lost opened found => exact .lost (Noted.concat opened e) (found.concat e)
  | took opened happened cause accept started =>
    exact .took (Noted.concat opened e) (List.mem_append_left _ happened) cause accept started

theorem Begins.concat (h : Begins node t since events past moment) (e : Event) :
    Begins node t since (events ++ [e]) past moment := by
  unfold Begins at h ⊢
  split at h
  · exact h
  · obtain ⟨upshot, hover, hfollows⟩ := h
    refine ⟨upshot, hover, ?_⟩
    unfold Follows at hfollows ⊢
    split at hfollows
    · exact hfollows
    · exact Noted.concat hfollows e

theorem Rounds.concat (h : Rounds node n t since events all) (e : Event) :
    Rounds node n t since (events ++ [e]) all := by
  induction h with
  | none => exact .none
  | next _ begins makes ih => exact ih.next (begins.concat e) (makes.concat e)

theorem Standing.rounds (h : Standing node n t since events now s all) :
    Rounds node n t since events all := by
  cases h with
  | ready rounds | handling rounds | pausing rounds => exact rounds
  | waiting rounds begins opened => exact rounds.next begins (.waits opened)

theorem begins_concat {begun : Nat} {upshot : Upshot} (h : Follows node t events moment upshot) :
    Begins node t since events (past ++ [⟨begun, some upshot⟩]) moment := by
  rw [Begins, List.getLast?_concat]
  exact ⟨upshot, rfl, h⟩

end Rounds
end Listening

end RadioLink
