import Mathlib.Data.Set.Card
import RadioLink.Proofs.World.Announcements

/-!
# The balance of connections

A connection that has been accepted is outstanding until a frame has come in, or something that is
none. Those that are being read, or whose reading has timed out or was aborted, are just the
difference of the counters:

    connectionsAccepted - framesReceived - framingErrors = (pending n).ncard + imbalance n

Every step of every task keeps `imbalance n`.
-/

namespace RadioLink

open World (Apart)

/-! ### What the counters say -/

/-- What `connectionsAccepted` is ahead of `framesReceived` and `framingErrors`. -/
def Metrics.outstanding (m : Metrics) : UInt64 :=
  m.connectionsAccepted - m.framesReceived - m.framingErrors

namespace World

/-- What is `outstanding` by the counters of node `n`, or zero without such a node. -/
def outstanding (w : World) (n : Nat) : UInt64 :=
  (w.nodes[n]?.map (·.metrics.outstanding)).getD 0

variable {n m t : Nat} {w w' : World}

theorem outstanding_of_linkage (h : w'.linkage? n = w.linkage? n) :
    w'.outstanding n = w.outstanding n := by
  have := congrArg (Option.map (·.metrics.outstanding)) h
  simp only [linkage?, Option.map_map] at this
  exact congrArg (·.getD 0) this

theorem outstanding_of_nodes (h : w'.nodes = w.nodes) : w'.outstanding n = w.outstanding n := by
  rw [outstanding, h, outstanding]

theorem outstanding_updateNode {f : Node → Node}
    (hf : ∀ node, (f node).metrics.outstanding = node.metrics.outstanding) :
    (w.updateNode m f).outstanding n = w.outstanding n := by
  rw [outstanding, nodes_updateNode, outstanding]
  split
  · rw [Option.map_map]
    congr 2
    funext node
    exact hf node
  · rfl

theorem outstanding_count {c : Counted}
    (hc : ∀ m : Metrics, (m.count c).outstanding = m.outstanding) :
    (w.count m c).outstanding n = w.outstanding n :=
  outstanding_updateNode fun node => hc node.metrics

@[simp] theorem outstanding_updateApp (f : Application → Application) :
    (w.updateApp m f).outstanding n = w.outstanding n :=
  outstanding_updateNode fun _ => rfl

@[simp] theorem outstanding_evict (s : Nat) : (w.evict m s).outstanding n = w.outstanding n := by
  unfold evict
  split
  · rfl
  · have hlost (m : Metrics) : (m.count .sessionLost).outstanding = m.outstanding := rfl
    rw [outstanding_updateApp, outstanding_count hlost]
    exact outstanding_of_nodes (nodes_release ..)

@[simp] theorem outstanding_register (a : Address) (identity : Message) (s : Nat) :
    (w.register m a identity s).2.outstanding n = w.outstanding n := by
  have hput (peer : Address) : (((w.updateNode m fun node =>
      { node with registry := node.registry.insert a s }).count m .sessionAccepted).updateApp m
        (·.accept identity peer s)).outstanding n = w.outstanding n := by
    have haccepted (m : Metrics) : (m.count .sessionAccepted).outstanding = m.outstanding := rfl
    rw [outstanding_updateApp, outstanding_count haccepted]
    exact outstanding_updateNode fun _ => rfl
  unfold register
  split
  · rfl
  · dsimp only
    split
    · rfl
    · split
      · exact hput _
      · rw [outstanding_evict, hput]

@[simp] theorem outstanding_welcome (identity : Message) (a : Address) (device : Option String) :
    (w.welcome m identity a device).outstanding n = w.outstanding n := by
  have hadd (v : World) (x : Session) : (v.addSession x).outstanding n = v.outstanding n :=
    outstanding_of_nodes rfl
  unfold welcome
  dsimp only
  rw [outstanding_register, hadd]
  cases device with
  | none => rfl
  | some id => exact outstanding_updateApp _

@[simp] theorem outstanding_removeBonded (a : Address) :
    (w.removeBonded m a).outstanding n = w.outstanding n := by
  unfold removeBonded unregister
  split
  · exact outstanding_updateNode fun _ => rfl
  · dsimp only
    rw [outstanding_evict]
    refine (outstanding_updateNode ?_).trans (outstanding_updateNode ?_)
    · exact fun _ => rfl
    · exact fun _ => rfl

end World

/-! ### Which connections are outstanding -/

/-- Whether the connection is being read. -/
def Accepting.isReading (a : Accepting) : Bool :=
  match a.stage with
  | .reading .. => true
  | _ => false

/-- Whether the connection of `a` is outstanding after a step that returns this. -/
def Accepting.Progress.isOutstanding (a : Accepting) : Progress → Bool
  | .going a' => a'.isReading
  | .ended (.error .timeout) => true
  | .ended _ => false
  | .abort => a.isReading

/-- Whether the task takes in a connection of node `n` that is outstanding. -/
def Task.isOutstanding (n : Nat) (task : Task) : Bool :=
  match task.activity.call?, task.outcome with
  | some a, some (.accepted r) =>
    decide (a.node = n) && (Accepting.Progress.ended r).isOutstanding a
  | some a, _ => decide (a.node = n) && a.isReading
  | none, _ => false

/-- The activity of the task is an `Accepting` of node `n`. -/
def Task.TakesIn (n : Nat) (task : Task) : Prop := ∃ a, task.activity.call? = some a ∧ a.node = n

theorem Task.takesIn_of_isOutstanding {n : Nat} {task : Task} (h : task.isOutstanding n = true) :
    task.TakesIn n := by
  unfold Task.isOutstanding at h
  split at h
  · next a _ hcall _ => exact ⟨a, hcall, by simp_all⟩
  · next a hcall _ => exact ⟨a, hcall, by simp_all⟩
  · cases h

/-- Of the connections with the outcome `.accepted r`, those with `r = .error .timeout` are
outstanding. -/
theorem Task.isOutstanding_iff_of_accepted {n : Nat} {task : Task} {r : Except LinkError Unit}
    (h : task.outcome = some (.accepted r)) :
    task.isOutstanding n = true ↔ task.TakesIn n ∧ r = .error .timeout := by
  unfold Task.isOutstanding Task.TakesIn
  cases hcall : task.activity.call? with
  | none => simp
  | some a =>
    have htimeout : (Accepting.Progress.ended r).isOutstanding a = true ↔ r = .error .timeout := by
      unfold Accepting.Progress.isOutstanding
      split <;> simp_all
    simp [h, htimeout]

theorem Task.IsFresh.isOutstanding {task : Task} (h : task.IsFresh) (n : Nat) :
    task.isOutstanding n = false := by
  unfold Task.isOutstanding
  split
  · next houtcome => cases h.outcome.symm.trans houtcome
  · next a hcall _ =>
    obtain ⟨source, hready⟩ := h.ready a hcall
    simp [Accepting.isReading, hready]
  · rfl

theorem LinkError.ne_timeout_of_isFraming {e : LinkError} (h : e.isFraming = true) :
    e ≠ .timeout := by
  rintro rfl
  cases h

namespace Accepting

variable {a : Accepting} {node : Node} {w : World} {q : Progress × World}

theorem Progress.isOutstanding_error {e : LinkError} (h : e ≠ .timeout) :
    (Progress.ended (.error e)).isOutstanding a = false := by
  unfold Progress.isOutstanding
  split
  · next heq => cases heq
  · next heq =>
    cases heq
    exact absurd rfl h
  · rfl
  · next heq => cases heq

theorem isReading_of_stage {source : Inbound} {intake : Intake} {deadline : Timer}
    (h : a.stage = .reading source intake deadline) : a.isReading = true := by
  rw [isReading, h]

theorem Move.node_eq {a' : Accepting} (h : a.Move node w q) (hq : q.1 = .going a') :
    a'.node = a.node := by
  cases h with
  | begun | more =>
    cases hq
    rfl
  | aborted | overfull | timedOut | misframed => cases hq
  | framed _ _ _ _ taken =>
    cases taken with
    | routed =>
      cases hq
      rfl
    | unnamed | own | foreign | unroutable => cases hq
  | @handled d q =>
    obtain ⟨p, v⟩ := q
    cases p with
    | going =>
      cases hq
      rfl
    | done | abort => cases hq

theorem Move.tasks_eq (h : a.Move node w q) : q.2.tasks = w.tasks := by
  cases h with
  | begun _ aside => exact aside.tasks
  | more _ _ _ aside => exact aside.tasks
  | aborted _ _ aside => exact aside.tasks
  | overfull _ _ _ _ aside => exact aside.tasks
  | timedOut _ _ aside => exact aside.tasks
  | misframed _ _ _ _ aside => exact aside.tasks
  | framed _ _ _ aside taken =>
    cases taken with
    | unnamed | own | routed => exact aside.tasks
    | foreign => exact (World.tasks_welcome ..).trans aside.tasks
    | unroutable => exact aside.tasks
  | @handled d q _ step =>
    obtain ⟨x, -, hmove⟩ := Handling.move_of_step step
    cases hmove with
    | going _ _ _ aside => exact aside.tasks
    | detached | undecipherable => rfl
    | delivered aside => exact aside.tasks
    | abort aside => exact aside.tasks

end Accepting

theorem Handling.Move.outstanding {d : Handling} {x : Session} {w : World} {n : Nat}
    {q : Handling.Progress × World} (h : d.Move x w q) : q.2.outstanding n = w.outstanding n := by
  cases h with
  | going _ _ _ aside => exact World.outstanding_of_nodes aside.nodes
  | detached => rfl
  | undecipherable => exact World.outstanding_count fun _ => rfl
  | delivered aside =>
    rw [World.outstanding_updateApp]
    exact World.outstanding_of_nodes aside.nodes
  | abort aside => exact World.outstanding_of_nodes aside.nodes

namespace Accepting

variable {a : Accepting} {node : Node} {w : World} {q : Progress × World}

theorem Taken.outstanding {m : Message} {n : Nat} (h : a.Taken node m w q) :
    q.2.outstanding n = w.outstanding n := by
  cases h with
  | unnamed | own | routed => rfl
  | foreign => exact World.outstanding_welcome ..
  | unroutable => exact World.outstanding_count fun _ => rfl

theorem Taken.isOutstanding {m : Message} (h : a.Taken node m w q) :
    q.1.isOutstanding a = false := by
  cases h <;> rfl

/-- A `Move` changes `outstanding` by as much as the connection itself `isOutstanding`. -/
theorem Move.outstanding (h : a.Move node w q) (hnode : w.nodes[a.node]? = some node) :
    q.2.outstanding a.node + UInt64.ofNat a.isReading.toNat
      = w.outstanding a.node + UInt64.ofNat (q.1.isOutstanding a).toNat := by
  have hcount (c : Counted) :
      (w.count a.node c).outstanding a.node = (node.metrics.count c).outstanding := by
    simp [World.outstanding, hnode]
  have hw : w.outstanding a.node = node.metrics.outstanding := by simp [World.outstanding, hnode]
  have hmisframed {v : World} {e : LinkError} {source : Inbound} {intake : Intake}
      {deadline : Timer} (hstage : a.stage = .reading source intake deadline)
      (hframing : e.isFraming = true) (aside : (w.count a.node .framingError).Aside v) :
      v.outstanding a.node + UInt64.ofNat a.isReading.toNat
        = w.outstanding a.node
          + UInt64.ofNat ((Progress.ended (.error e)).isOutstanding a).toNat := by
    rw [World.outstanding_of_nodes aside.nodes, hcount, hw, isReading_of_stage hstage,
      Progress.isOutstanding_error (LinkError.ne_timeout_of_isFraming hframing)]
    simp only [Metrics.outstanding, Metrics.count, Bool.toNat_true, Bool.toNat_false]
    grind
  -- Counters wrap around, so in each case the two sums are compared, and nothing is taken away.
  cases h with
  | begun stage aside =>
    rw [World.outstanding_of_nodes aside.nodes, hcount, hw, isReading, stage]
    simp only [Metrics.outstanding, Metrics.count, Progress.isOutstanding, isReading,
      Bool.toNat_true, Bool.toNat_false]
    grind
  | more stage _ _ aside =>
    rw [World.outstanding_of_nodes aside.nodes, isReading_of_stage stage]
    rfl
  | aborted stage _ aside => rw [World.outstanding_of_nodes aside.nodes, Progress.isOutstanding]
  | overfull stage _ _ framing aside => exact hmisframed stage framing aside
  | timedOut stage _ aside =>
    rw [World.outstanding_of_nodes aside.nodes, isReading_of_stage stage]
    rfl
  | misframed stage _ _ framing aside => exact hmisframed stage framing aside
  | framed stage _ _ aside taken =>
    rw [taken.outstanding, taken.isOutstanding, World.outstanding_of_nodes aside.nodes, hcount, hw,
      isReading_of_stage stage]
    simp only [Metrics.outstanding, Metrics.count, Bool.toNat_true, Bool.toNat_false]
    grind
  | @handled d q stage step =>
    obtain ⟨x, -, hmove⟩ := Handling.move_of_step step
    have hsame := hmove.outstanding (n := a.node)
    have hreading : a.isReading = false := by rw [isReading, stage]
    obtain ⟨p, v⟩ := q
    cases p with
    | going d' => exact congrArg₂ _ hsame (congrArg _ (congrArg _ hreading))
    | done => exact congrArg₂ _ hsame (congrArg _ (congrArg _ hreading))
    | abort => exact congrArg₂ _ hsame rfl

end Accepting

/-! ### Every step keeps the balance -/

namespace World

/-- The tasks that have an outstanding connection of node `n`. -/
def pending (w : World) (n : Nat) : Set Nat :=
  {t | w.tasks[t]?.any (·.isOutstanding n) = true}

variable {n m t : Nat} {w w' : World}

theorem pending_finite (w : World) (n : Nat) : (w.pending n).Finite := by
  refine (Set.finite_lt_nat w.tasks.size).subset fun t ht => ?_
  by_contra hlt
  have hnone : w.tasks[t]? = none := Array.getElem?_eq_none (Nat.not_lt.1 hlt)
  simp [pending, hnone] at ht

theorem mem_pending_iff :
    t ∈ w.pending n ↔ ∃ task, w.tasks[t]? = some task ∧ task.isOutstanding n = true :=
  Option.any_eq_true ..

/-- If `pending n` differs at task `t` only, its sizes differ by what it says of `t`. -/
theorem ncard_pending {b b' : Bool} (h : ∀ r, r ≠ t → (r ∈ w'.pending n ↔ r ∈ w.pending n))
    (hb : t ∈ w.pending n ↔ b = true) (hb' : t ∈ w'.pending n ↔ b' = true) :
    (w'.pending n).ncard + b.toNat = (w.pending n).ncard + b'.toNat := by
  have hrest : w'.pending n \ {t} = w.pending n \ {t} := by
    ext r
    simp only [Set.mem_sdiff, Set.mem_singleton_iff, and_congr_left_iff]
    exact h r
  have hsize {v : World} {c : Bool} (hc : t ∈ v.pending n ↔ c = true) :
      (v.pending n).ncard = (v.pending n \ {t}).ncard + c.toNat := by
    cases c with
    | true => exact (Set.ncard_sdiff_singleton_add_one (hc.2 rfl) (v.pending_finite n)).symm
    | false => rw [Set.sdiff_singleton_eq_self fun ht => nomatch hc.1 ht]; rfl
  rw [hsize hb, hsize hb', hrest]
  omega

/-- A step of task `t` leaves all others in `pending n`, or out of it. -/
theorem Apart.mem_pending {site : Option Nat} (h : Apart t site w w') {r : Nat} (hr : r ≠ t) :
    r ∈ w'.pending n ↔ r ∈ w.pending n := by
  cases hold : w.tasks[r]? with
  | some task => simp [pending, hold, h.tasks r task hr hold]
  | none =>
    cases hnew : w'.tasks[r]? with
    | none => simp [pending, hold, hnew]
    | some task => simp [pending, hold, hnew, (h.fresh r task hr hold hnew).isOutstanding]

theorem notMem_pending (h : w.call? t = none) : t ∉ w.pending n := by
  cases htask : w.tasks[t]? with
  | none => simp [pending, htask]
  | some task =>
    have hnone : task.activity.call? = none := by simpa [call?, htask] using h
    simp [pending, htask, Task.isOutstanding, hnone]

/-- What `outstanding n` is ahead of the size of `pending n`. -/
noncomputable def imbalance (w : World) (n : Nat) : UInt64 :=
  w.outstanding n - UInt64.ofNat (w.pending n).ncard

theorem imbalance_of_same (h : ∀ r, r ∈ w'.pending n ↔ r ∈ w.pending n)
    (hcount : w'.outstanding n = w.outstanding n) : w'.imbalance n = w.imbalance n := by
  rw [imbalance, Set.ext h, hcount, imbalance]

theorem imbalance_eq {b b' : Bool} (h : ∀ r, r ≠ t → (r ∈ w'.pending n ↔ r ∈ w.pending n))
    (hb : t ∈ w.pending n ↔ b = true) (hb' : t ∈ w'.pending n ↔ b' = true)
    (hcount : w'.outstanding n + UInt64.ofNat b.toNat
      = w.outstanding n + UInt64.ofNat b'.toNat) : w'.imbalance n = w.imbalance n := by
  have hcard := congrArg UInt64.ofNat (ncard_pending h hb hb')
  rw [UInt64.ofNat_add, UInt64.ofNat_add] at hcard
  unfold imbalance
  grind

/-- A step of a task that is no `Accepting` under way leaves it in `pending n`, or out of it. -/
theorem mem_pending_of_underWay? (hcall : w.underWay? t = none) (h : w.step t = some w') :
    t ∈ w'.pending n ↔ t ∈ w.pending n := by
  have hapart := step_apart h
  rw [hcall] at hapart
  cases hold : w.call? t with
  | none =>
    have hnew := hapart.own rfl hold
    exact iff_of_false (notMem_pending hnew) (notMem_pending hold)
  | some a =>
    obtain ⟨task, htask, hactivity⟩ := Option.bind_eq_some_iff.1 hold
    simp only [step, htask] at h
    split at h
    · cases h
    · next houtcome =>
      have houtcome : task.outcome = none := by simpa using houtcome
      split at h
      · -- it was cancelled, and its connection is left as it was when that happened
        obtain rfl := Option.some.inj h
        have hfinish : w.abortListening t task.activity = w.finish t .aborted := by
          cases htaking : task.activity with
          | accepting => rfl
          | _ => simp [htaking, Activity.call?] at hactivity
        rw [hfinish]
        simp [pending, finish, updateTask, Array.getElem?_modify, htask, Task.isOutstanding,
          hactivity, houtcome]
      · next hcancelled => simp [underWay?, htask, houtcome, hcancelled, hactivity] at hcall

/-- After `conclude` task `t` is in `pending n` if and only if `Progress.isOutstanding` says so. -/
theorem mem_pending_conclude {a : Accepting} {v : World} (hcall : w.underWay? t = some a)
    (hv : v.tasks = w.tasks) (p : Accepting.Progress)
    (hp : ∀ a', p = .going a' → a'.node = a.node) :
    t ∈ (v.conclude t p).pending n ↔ (decide (a.node = n) && p.isOutstanding a) = true := by
  obtain ⟨task, htask, houtcome, -, hactivity⟩ := underWay?_eq_some_iff.1 hcall
  have hthere : v.tasks[t]? = some task := by rw [hv, htask]
  cases p with
  | going a' =>
    simp [pending, conclude, become, updateTask, Array.getElem?_modify, hthere,
      Task.isOutstanding, Activity.call?, houtcome, Accepting.Progress.isOutstanding, hp a' rfl]
  | ended r =>
    simp [pending, conclude, finish, updateTask, Array.getElem?_modify, hthere,
      Task.isOutstanding, Activity.call?, hactivity]
  | abort =>
    simp [pending, conclude, finish, updateTask, Array.getElem?_modify, hthere,
      Task.isOutstanding, Activity.call?, hactivity, Accepting.Progress.isOutstanding]

theorem mem_pending_iff_of_underWay? {a : Accepting} (hcall : w.underWay? t = some a) :
    t ∈ w.pending n ↔ (decide (a.node = n) && a.isReading) = true := by
  obtain ⟨task, htask, houtcome, -, hactivity⟩ := underWay?_eq_some_iff.1 hcall
  simp [pending, htask, Task.isOutstanding, Activity.call?, houtcome, hactivity]

/-- Every step keeps `imbalance n`. -/
theorem imbalance_step (h : w.step t = some w') : w'.imbalance n = w.imbalance n := by
  have hapart := step_apart h
  cases hcall : w.underWay? t with
  | none =>
    have hcount : w'.outstanding n = w.outstanding n := by
      rw [hcall] at hapart
      exact outstanding_of_linkage (hapart.linkage n nofun)
    -- A task that takes nothing in may have started others, but those have not begun.
    refine imbalance_of_same (fun r => ?_) hcount
    by_cases hr : r = t
    · subst hr
      exact mem_pending_of_underWay? hcall h
    · exact hapart.mem_pending hr
  | some a =>
    obtain ⟨node, q, hnode, hmove, rfl⟩ := exists_move_of_step hcall h
    refine imbalance_eq (fun r => hapart.mem_pending) (mem_pending_iff_of_underWay? hcall)
      (mem_pending_conclude hcall hmove.tasks_eq q.1 fun a' => hmove.node_eq) ?_
    rw [outstanding_of_nodes (nodes_conclude ..)]
    by_cases hn : a.node = n
    · subst hn
      simpa using hmove.outstanding hnode
    · have hcount : q.2.outstanding n = w.outstanding n := by
        rw [hcall] at hapart
        rw [← outstanding_of_nodes (nodes_conclude ..)]
        exact outstanding_of_linkage (hapart.linkage n (by simpa using hn))
      simp [hn, hcount]

theorem imbalance_removeBonded (a : Address) : (w.removeBonded m a).imbalance n = w.imbalance n :=
  imbalance_of_same (fun r => by rw [pending, tasks_removeBonded, pending])
    (outstanding_removeBonded a)

end World
end RadioLink
