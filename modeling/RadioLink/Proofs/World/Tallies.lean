import RadioLink.Proofs.World.OneFrame
import RadioLink.World.Asking

/-!
# What sends report and what is counted

A send counts once, in the step that gives it an outcome: `.frameSent` with all bytes of its frame
for `.sent true`, `.sendFailure` for `.sent false`. A call that is given no task counts for itself,
or not at all if the application is gone. So for every node

    framesSent = calls told true        sendFailures + calls dropped = calls told false

whatever else happens: the `outward` counters of a node are changed by sends alone
(`World.Course.outward`).
-/

namespace RadioLink

/-! ### Counting what goes out -/

namespace Metrics

theorem outward_count (m : Metrics) (c : Counted) :
    (m.count c).outward = (m.outward.count c).outward := by
  cases c <;> rfl

end Metrics

namespace World

variable {t n : Nat} {a : Activity} {w u v : World} {hand : List LinkEnd}

theorem outward?_count (w : World) (k n : Nat) (c : Counted) : (w.count k c).outward? n
    = if k = n then (w.outward? n).map fun m => (m.count c).outward else w.outward? n := by
  rw [outward?, nodes_count, outward?]
  split
  · rw [Option.map_map, Option.map_map]
    congr 1
    funext node
    exact Metrics.outward_count ..
  · rfl

/-- The `Course` of an activity that is no send leaves the `outward` counters of every node. -/
theorem Course.outward (h : Course t a w hand v) (ha : ∀ s, a ≠ .sending s) (n : Nat) :
    v.outward? n = w.outward? n := by
  induction h with
  | start => rfl
  | node _ _ _ _ _ houtward ih =>
    refine Eq.trans (map_nodes_updateNode _ _ _ ?_) ih
    exact houtward.resolve_right fun ⟨s, hs⟩ => ha s hs
  | aside _ hv _ ih =>
    rw [World.outward?, hv.nodes]
    exact ih
  | @releases _ v _ s ih =>
    rw [World.outward?, nodes_release]
    exact ih
  | forgets _ _ ih | act _ _ ih | connects _ _ _ ih | accepts _ _ _ ih | adds _ _ _ ih
  | asks _ _ _ _ ih | takes _ _ _ ih | spawns _ _ ih => exact ih

theorem Advances.outward (h : Advances t a w v) (ha : ∀ s, a ≠ .sending s) (n : Nat) :
    v.outward? n = w.outward? n := by
  cases h with
  | goes h | ends h => exact h.outward ha n

end World

/-! ### The moves of a send -/

namespace Sending

/-- In `.writing`, what is written and what remains add up to the length of the frame. -/
def Tallies (d : Sending) : Prop :=
  ∀ stream rest deadline, d.stage = .writing stream rest deadline →
    rest.written + rest.remaining.length = d.frame.length

/-- What a send counts when it ends with `.sent ok`. -/
def credit (d : Sending) (ok : Bool) : Counted :=
  if ok then .frameSent (UInt64.ofNat d.frame.length) else .sendFailure

theorem tallies_of_idle {d : Sending} (h : d.stage.isWriting = false) : d.Tallies := by
  intro stream rest deadline hstage
  rw [hstage] at h
  cases h

variable {d d' : Sending} {x : Session} {w v : World} {ok : Bool}

theorem Move.tallies (h : d.Move x w (.going d', v)) (ht : d.Tallies) : d'.Tallies := by
  cases h with
  | waits _ is => exact tallies_of_idle is
  | begins _ start =>
    intro stream rest deadline hstage
    cases hstage
    rw [Outflow.written_start start, (Outflow.remaining_start start).1, Nat.zero_add]
    rfl
  | @writes stream rest deadline stage =>
    have hcount := w.air.count_write_le stream rest.pending
    have htake :=
        congrArg List.length (rest.remaining_take (w.air.write stream rest.pending).1.count)
    rw [List.length_append, List.length_take, Nat.min_eq_left hcount] at htake
    intro _ _ _ hstage
    cases hstage
    have := ht _ _ _ stage
    show rest.written + _ + _ = d.frame.length
    omega
  | goesOn stage next =>
    intro _ _ _ hstage
    cases hstage
    obtain ⟨hremaining, hwritten⟩ := Outflow.remaining_next next
    rw [hremaining, hwritten]
    exact ht _ _ _ stage

/-- While a send goes on no `outward` counter changes. -/
theorem Move.outward (h : d.Move x w (.going d', v)) (n : Nat) : v.outward? n = w.outward? n := by
  cases h with
  | waits _ _ mute | begins _ _ mute | goesOn _ _ mute => exact mute.outward n
  | writes => rfl

/-- When a send ends the node of its session counts its `credit`, and no other `outward` counter
changes. -/
theorem Move.credit (h : d.Move x w (.ended ok, v)) (ht : d.Tallies) (n : Nat) : v.outward? n
    = if x.node = n then (w.outward? n).map fun m => (m.count (d.credit ok)).outward
      else w.outward? n := by
  cases h with
  | @done _ rest _ u stage next mute =>
    have hturn := rest.turn_next
    rw [next] at hturn
    cases hturn with
    | done remaining =>
      have hsize := ht _ _ _ stage
      rw [remaining, List.length_nil, Nat.add_zero] at hsize
      rw [World.outward?_count, mute.outward, hsize]
      rfl
  | fails outward =>
    rw [World.outward?_count, outward]
    rfl

theorem Move.tasks {q : Progress × World} (h : d.Move x w q) : q.2.tasks = w.tasks := by
  cases h with
  | waits _ _ mute | begins _ _ mute | goesOn _ _ mute | done _ _ mute => exact mute.tasks
  | writes => rfl
  | fails _ tasks => exact tasks

end Sending

/-! ### What has been reported -/

namespace World

/-- The node of session `s`. -/
def site? (w : World) (s : Nat) : Option Nat := w.sessions[s]?.map (·.node)

/-- If task `t` is a send through a session of node `n` with an outcome, the send and what its
caller was told. -/
def report? (w : World) (n t : Nat) : Option (Sending × Bool) :=
  match w.tasks[t]? with
  | some ⟨.sending d, some (.sent ok), _⟩ => if w.site? d.session
      = some n then some (d, ok) else none
  | _ => none

/-- What all callers of sends through sessions of node `n` were told. -/
def reports (w : World) (n : Nat) : List (Sending × Bool) :=
  (List.range w.tasks.size).filterMap (w.report? n)

/-- If task `t` is a send, either it has no outcome, is not cancelled and `Tallies`, or it has an
outcome and a session. -/
def TalliedAt (w : World) (t : Nat) : Prop :=
  ∀ (task : Task) (d : Sending), w.tasks[t]? = some task → task.activity = .sending d →
    (task.outcome = none ∧ task.cancelled = false ∧ d.Tallies) ∨
      (task.outcome.isSome = true ∧ (w.site? d.session).isSome = true)

/-- All sends are `TalliedAt` their tasks. -/
def Tallied (w : World) : Prop := ∀ t, w.TalliedAt t

/-- Task `t` is the same send as before, or none as before, or it is new and not in `.writing` yet.
-/
def SameSend (w w' : World) (t : Nat) : Prop :=
  (∀ (task : Task) (d : Sending), task.activity = .sending d →
    (w'.tasks[t]? = some task ↔ w.tasks[t]? = some task)) ∨
  (w.tasks[t]? = none ∧ ∃ a : Activity, w'.tasks[t]? = some { activity := a } ∧
    ∀ d, a = .sending d → d.stage.isWriting = false)

variable {t n : Nat} {w w' : World} {task : Task} {d : Sending}

/-- All sessions stay at their nodes. -/
def KeepsSites (w w' : World) : Prop := ∀ s k, w.site? s = some k → w'.site? s = some k

theorem KeepsSites.eq {s : Nat} (h : w.KeepsSites w') (hs : (w.site? s).isSome = true) :
    w'.site? s = w.site? s := by
  obtain ⟨k, hk⟩ := Option.isSome_iff_exists.1 hs
  rw [h s k hk, hk]

theorem Apart.keepsSites {m : Option Nat} (h : Apart t m w w') : w.KeepsSites w' := by
  have hsite (v : World) (s : Nat) : v.site? s = (v.lasting? s).map (·.node) := by
    rw [site?, lasting?, Option.map_map]
    rfl
  intro s k hk
  rw [hsite] at hk ⊢
  obtain ⟨x, hx, rfl⟩ := Option.map_eq_some_iff.1 hk
  rw [h.sessions s x hx]
  rfl

/-! ### Reports of tasks -/

theorem report?_eq_some_iff {d : Sending} {ok : Bool} : w.report? n t = some (d, ok) ↔
    ∃ task, w.tasks[t]? = some task ∧ task.activity = .sending d ∧
      task.outcome = some (.sent ok) ∧ w.site? d.session = some n := by
  constructor
  · intro h
    unfold report? at h
    split at h
    · next heq =>
      split at h
      · next hsite =>
        cases h
        exact ⟨_, heq, rfl, rfl, hsite⟩
      · cases h
    · cases h
  · rintro ⟨⟨activity, outcome, cancelled⟩, htask, rfl, rfl, hsite⟩
    rw [report?, htask]
    exact if_pos hsite

theorem report?_of_live (htask : w.tasks[t]? = some task) (hlive : task.outcome = none) :
    w.report? n t = none := by
  refine Option.eq_none_iff_forall_ne_some.2 fun r h => ?_
  obtain ⟨d, ok⟩ := r
  obtain ⟨task', htask', -, hended, -⟩ := report?_eq_some_iff.1 h
  cases htask.symm.trans htask'
  cases hlive.symm.trans hended

theorem report?_of_size (h : w.tasks.size ≤ t) : w.report? n t = none := by
  rw [report?, Array.getElem?_eq_none h]

theorem SameSend.report? (h : w.SameSend w' t) (hw : w.TalliedAt t)
    (hsites : w.KeepsSites w') :
    w'.report? n t = w.report? n t := by
  obtain hsame | ⟨hnone, a, htask, -⟩ := h
  · refine Option.ext fun r => ?_
    obtain ⟨d, ok⟩ := r
    rw [report?_eq_some_iff, report?_eq_some_iff]
    refine exists_congr fun task => ⟨?_, ?_⟩
    · rintro ⟨htask, hsending, hended, hsite⟩
      have hold := (hsame task d hsending).1 htask
      obtain ⟨hlive, -⟩ | ⟨-, hsession⟩ := hw task d hold hsending
      · cases hended.symm.trans hlive
      · exact ⟨hold, hsending, hended, (hsites.eq hsession).symm.trans hsite⟩
    · rintro ⟨htask, hsending, hended, hsite⟩
      obtain ⟨hlive, -⟩ | ⟨-, hsession⟩ := hw task d htask hsending
      · cases hended.symm.trans hlive
      · exact ⟨(hsame task d hsending).2 htask, hsending, hended,
          (hsites.eq hsession).trans hsite⟩
  · rw [report?_of_live htask rfl, World.report?, hnone]

theorem SameSend.talliedAt (h : w.SameSend w' t) (hw : w.TalliedAt t)
    (hsites : w.KeepsSites w') : w'.TalliedAt t := by
  intro task d htask hsending
  obtain hsame | ⟨-, a, hnew, hidle⟩ := h
  · refine (hw task d ((hsame task d hsending).1 htask) hsending).imp_right ?_
    rintro ⟨hended, hsession⟩
    exact ⟨hended, (hsites.eq hsession).symm ▸ hsession⟩
  · cases hnew.symm.trans htask
    exact .inl ⟨rfl, rfl, Sending.tallies_of_idle (hidle d hsending)⟩

/-- Past `tasks.size` there is nothing to report. -/
theorem reports_eq {k : Nat} (h : w.tasks.size ≤ k) :
    w.reports n = (List.range k).filterMap (w.report? n) := by
  obtain ⟨more, rfl⟩ := Nat.exists_eq_add_of_le h
  have hnone : ((List.range more).map (w.tasks.size + ·)).filterMap (w.report? n) = [] := by
    refine List.filterMap_eq_nil_iff.2 fun r hr => ?_
    obtain ⟨i, -, rfl⟩ := List.mem_map.1 hr
    exact report?_of_size (Nat.le_add_right ..)
  rw [List.range_add, List.filterMap_append, hnone, List.append_nil]
  rfl

/-- If task `t` had nothing to report and all others report the same, `reports` has grown by what
task `t` reports. -/
theorem reports_perm (hsize : w.tasks.size ≤ w'.tasks.size) (hnone : w.report? n t = none)
    (hsame : ∀ r, r ≠ t → w'.report? n r = w.report? n r) :
    (w'.reports n).Perm ((w'.report? n t).toList ++ w.reports n) := by
  rw [reports_eq hsize]
  cases hnew : w'.report? n t with
  | none =>
    have hall : w'.report? n = w.report? n := by
      funext r
      by_cases heq : r = t
      · rw [heq, hnew, hnone]
      · exact hsame r heq
    rw [World.reports, hall]
    exact .refl _
  | some b =>
    have ht : t ∈ List.range w'.tasks.size := by
      refine List.mem_range.2 (Nat.lt_of_not_le fun hle => ?_)
      rw [report?_of_size hle] at hnew
      cases hnew
    obtain ⟨before, after, hrange⟩ := List.append_of_mem ht
    have hnodup := List.nodup_range (n := w'.tasks.size)
    rw [hrange] at hnodup
    have hrest {l : List Nat} (hnot : t ∉ l) :
        l.filterMap (w'.report? n) = l.filterMap (w.report? n) :=
      List.filterMap_congr fun r hr => hsame r fun heq => hnot (heq ▸ hr)
    rw [World.reports, hrange, List.filterMap_append, List.filterMap_append,
      List.filterMap_cons_some hnew, List.filterMap_cons_none hnone, hrest, hrest]
    · exact List.perm_middle
    · simp only [List.nodup_append, List.nodup_cons] at hnodup
      exact hnodup.2.1.1
    · simp only [List.nodup_append] at hnodup
      exact fun hmem => hnodup.2.2 t hmem t List.mem_cons_self rfl

/-! ### One step of the whole -/

/-- At most one send through a session of node `n` gets an outcome, `new`, and the `outward`
counters grow by its `credit`. -/
structure Counts (n : Nat) (w w' : World) (new : Option (Sending × Bool)) : Prop where
  tallied : w'.Tallied
  reports : (w'.reports n).Perm (new.toList ++ w.reports n)
  outward : w'.outward? n = (new.map fun r => r.1.credit r.2).elim (w.outward? n) fun c =>
    (w.outward? n).map fun m => (m.count c).outward

/-- Where every task is the `SameSend`, there is nothing `new`. -/
theorem counts_none (hw : w.Tallied)
    (hsites : w.KeepsSites w')
    (hsize : w.tasks.size ≤ w'.tasks.size) (hsame : ∀ r, w.SameSend w' r)
    (houtward : w'.outward? n = w.outward? n) : Counts n w w' none where
  tallied r := (hsame r).talliedAt (hw r) hsites
  reports := by
    have hsame (r : Nat) : w'.report? n r = w.report? n r := (hsame r).report? (hw r) hsites
    have hperm := reports_perm hsize (report?_of_size (Nat.le_refl _)) fun r _ => hsame r
    rwa [hsame, report?_of_size (Nat.le_refl _)] at hperm
  outward := houtward

/-- A step of task `t` leaves every other task the `SameSend`. -/
theorem sameSend_of_advances {task : Task} (h : Advances t task.activity w w')
    (htask : w.tasks[t]? = some task) {r : Nat} (hne : r ≠ t) : w.SameSend w' r := by
  have ht := (Array.getElem?_eq_some_iff.1 htask).1
  by_cases hlt : r < w.tasks.size
  · exact .inl fun _ _ _ => by rw [h.old hlt hne]
  · have hnone := Array.getElem?_eq_none (Nat.le_of_not_lt hlt)
    cases hnew : w'.tasks[r]? with
    | none => exact .inl fun _ _ _ => by rw [hnew, hnone]
    | some task' =>
      obtain ⟨b, hspawns, rfl⟩ := h.new ht (Nat.le_of_not_lt hlt) hnew
      refine .inr ⟨hnone, b, hnew, fun d hd => ?_⟩
      obtain ⟨s, rfl, hready⟩ | ⟨l, sender, link, -, rfl⟩ := hspawns
      · cases hd
        rw [hready]
        rfl
      · cases hd

/-- A step of a task that is no send reports nothing `new`. -/
theorem counts_of_other {task : Task} (hw : w.Tallied) (hstep : w.step t = some w')
    (h : Advances t task.activity w w') (htask : w.tasks[t]? = some task)
    (hother : ∀ d, task.activity ≠ .sending d) : Counts n w w' none := by
  refine counts_none hw (step_apart hstep).keepsSites h.size (fun r => ?_) (h.outward hother n)
  by_cases hr : r = t
  · subst hr
    refine .inl fun task' d hd => ⟨fun hafter => ?_, fun hbefore => ?_⟩
    · obtain ⟨b, hrole, hown⟩ | ⟨o, hown⟩ := h.own htask
      · cases hown.symm.trans hafter
        obtain rfl : b = .sending d := hd
        obtain ⟨d', hd', -⟩ := Activity.sending_of_role hrole
        exact absurd hd' (hother d')
      · cases hown.symm.trans hafter
        exact absurd hd (hother d)
    · cases htask.symm.trans hbefore
      exact absurd hd (hother d)
  · exact sameSend_of_advances h htask hr

/-- A step of a send `Counts` it, if it gets its outcome. -/
theorem counts_of_sending {d : Sending} (hw : w.Tallied) (hstep : w.step t = some w')
    (htask : w.tasks[t]? = some { activity := .sending d }) (ht : d.Tallies) :
    ∃ new, Counts n w w' new := by
  obtain ⟨task, htask', -, hadvances, -⟩ := exists_advances hstep
  obtain rfl := Option.some.inj (htask.symm.trans htask')
  have hsites := (step_apart hstep).keepsSites
  -- the step alters no send but its own, so only the report of task `t` is new
  have hsame (r : Nat) (hr : r ≠ t) : w.SameSend w' r := sameSend_of_advances hadvances htask hr
  have hreports := reports_perm (n := n) hadvances.size (report?_of_live htask rfl) fun r hr =>
    (hsame r hr).report? (hw r) hsites
  have htallied (hown : w'.TalliedAt t) : w'.Tallied := fun r =>
    if hr : r = t then hr ▸ hown else (hsame r hr).talliedAt (hw r) hsites
  simp only [step, htask, Option.isSome_none, Bool.false_eq_true, if_false, Activity.step] at hstep
  -- a move that does not end the send leaves the counters as they are
  obtain ⟨x, -, hx, -, ⟨p, v⟩, hmove, hw'⟩ := moves_of_stepSending hstep
  have hkept : v.tasks[t]? = some { activity := .sending d } := hmove.tasks ▸ htask
  cases p with
  | going d' =>
    obtain rfl : w' = v.become t (.sending d') := hw'
    have hown := tasks_become (a := .sending d') hkept
    rw [report?_of_live hown rfl] at hreports
    refine ⟨none, htallied fun task e htask he => ?_, hreports, hmove.outward n⟩
    cases hown.symm.trans htask
    obtain rfl : d' = e := Activity.sending.inj he
    exact .inl ⟨rfl, rfl, hmove.tallies ht⟩
  | ended ok =>
    obtain rfl : w' = v.finish t (.sent ok) := hw'
    have hown := tasks_finish (o := .sent ok) hkept
    have houtward := hmove.credit ht n
    have hsite : (v.finish t (.sent ok)).site? d.session = some x.node :=
      hsites _ _ (by rw [site?, hx]; rfl)
    have htallied := htallied fun task e htask he => by
      cases hown.symm.trans htask
      obtain rfl : d = e := Activity.sending.inj he
      exact .inr ⟨rfl, by rw [hsite]; rfl⟩
    by_cases hn : x.node = n
    · have hreport : (v.finish t (.sent ok)).report? n t = some (d, ok) :=
        report?_eq_some_iff.2 ⟨_, hown, rfl, rfl, hn ▸ hsite⟩
      refine ⟨some (d, ok), htallied, ?_, ?_⟩
      · rwa [hreport] at hreports
      · rwa [if_pos hn] at houtward
    -- a send of another node's session is not reported here
    · have hreport : (v.finish t (.sent ok)).report? n t = none := by
        refine Option.eq_none_iff_forall_ne_some.2 fun r h => hn ?_
        obtain ⟨e, ok'⟩ := r
        obtain ⟨task, htask, he, -, hsite'⟩ := report?_eq_some_iff.1 h
        cases hown.symm.trans htask
        obtain rfl : d = e := Activity.sending.inj he
        exact Option.some.inj (hsite.symm.trans hsite')
      refine ⟨none, htallied, ?_, ?_⟩
      · rwa [hreport] at hreports
      · rwa [if_neg hn] at houtward

theorem counts_of_step (hw : w.Tallied) (hstep : w.step t = some w') :
    ∃ new, Counts n w w' new := by
  obtain ⟨task, htask, hlive, hadvances, -⟩ := exists_advances hstep
  cases hactivity : task.activity with
  | sending d =>
    obtain ⟨-, hkept, ht⟩ | ⟨hended, -⟩ := hw t task d htask hactivity
    · obtain ⟨activity, outcome, cancelled⟩ := task
      dsimp only at hactivity hlive hkept
      subst hactivity hlive hkept
      exact counts_of_sending hw hstep htask ht
    · rw [hlive] at hended
      cases hended
  | _ =>
    refine ⟨none, counts_of_other hw hstep hadvances htask fun d hd => ?_⟩
    cases hactivity.symm.trans hd

/-- What somebody else may do: anything that keeps all sends and the nodes of sessions, and leaves
the `outward` counters of node `n`; an application may be dropped, for one. -/
structure KeepsSends (n : Nat) (w w' : World) : Prop where
  sites : w.KeepsSites w'
  size : w.tasks.size ≤ w'.tasks.size
  sends : ∀ (t : Nat) (task : Task) (d : Sending), task.activity = .sending d →
    (w'.tasks[t]? = some task ↔ w.tasks[t]? = some task)
  outward : w'.outward? n = w.outward? n

theorem counts_of_happens {x : Event} (hw : x.before.Tallied) (h : x.Happens (KeepsSends n)) :
    ∃ new, Counts n x.before x.after new := by
  obtain ⟨cause, before, after⟩ := x
  cases cause with
  | task t => exact counts_of_step hw h
  | removal m a =>
    obtain rfl : after = before.removeBonded m a := h
    have hapart : Apart 0 (some m) before (before.removeBonded m a) := Apart.refl.removeBonded a
    have hsame (r : Nat) : before.SameSend (before.removeBonded m a) r :=
      .inl fun _ _ _ => by rw [tasks_removeBonded]
    have houtward := (before.course_removeBonded m a).outward (fun _ => Activity.noConfusion) n
    exact ⟨none, counts_none hw hapart.keepsSites hapart.size hsame houtward⟩
  | other =>
    have hkeeps : KeepsSends n before after := h
    exact ⟨none, counts_none hw hkeeps.sites hkeeps.size (fun r => .inl (hkeeps.sends r))
      hkeeps.outward⟩

/-! ### Calls -/

/-- What became of a call: a task `t` was begun with the send `d`, or it was refused at once at a
session of the node `site`. -/
inductive Asked where
  | begun (t : Nat) (d : Sending)
  | refused (site : Option Nat) (why : Refusal)

/-- The call was refused at a session of node `n`. -/
def Asked.isRefused (n : Nat) : Asked → Bool
  | .refused (some k) _ => k = n
  | _ => false

/-- The call was refused at a session of node `n` whose application is gone. -/
def Asked.isDropped (n : Nat) : Asked → Bool
  | .refused (some k) .gone => k = n
  | _ => false

/-- What node `n` counts for the call itself: `.sendFailure` if the encryption has failed. -/
def Asked.credit? (n : Nat) : Asked → Option Counted
  | .refused (some k) .unencrypted => if k = n then some .sendFailure else none
  | _ => none

/-- The worlds that come about by calls of `order`, one after the other, and by events of a
`History (KeepsSends n)` in between. -/
inductive Traffic (encrypt : Encryption) (n : Nat) (w : World) : List Asked → World → Prop where
  | start : Traffic encrypt n w [] w
  | event {calls : List Asked} {x : Event} (past : Traffic encrypt n w calls x.before)
      (happens : x.Happens (KeepsSends n)) : Traffic encrypt n w calls x.after
  | begun {calls : List Asked} {v u : World} {s : Nat} {o : Order} {d : Sending}
      (past : Traffic encrypt n w calls v) (ordered : v.order encrypt s o = (.ok d, u)) :
      Traffic encrypt n w (calls ++ [.begun u.tasks.size d]) (u.spawn (.sending d))
  | refused {calls : List Asked} {v u : World} {s : Nat} {o : Order} {why : Refusal}
      (past : Traffic encrypt n w calls v) (ordered : v.order encrypt s o = (.error why, u)) :
      Traffic encrypt n w (calls ++ [.refused (v.site? s) why]) u

variable {encrypt : Encryption} {s : Nat} {o : Order} {u v : World}

theorem Traffic.passes {calls : List Asked} {events : List Event} (h : w.Traffic encrypt n calls v)
    (hevents : History (KeepsSends n) v events u) : w.Traffic encrypt n calls u := by
  induction hevents with
  | start => exact h
  | next _ happens ih => exact ih.event happens

/-- What runs for an encrypted send is `order` with the encryption that applications have by
default. -/
theorem encryptedSending?_eq_order (w : World) (s : Nat) (m : Message) (key : X25519.Key) :
    w.encryptedSending? s m key
      = (w.order (.standard w.suite w.entropy) s (.encrypted m key)).map Except.toOption id := by
  unfold encryptedSending? order Encryption.standard
  cases w.sessions[s]? with
  | none => rfl
  | some x => cases hdetached : x.detached <;> simp only [hdetached] <;> rfl

/-- What `order` returns: a send that is `.ready`, or `.gone` without any change, or `.unencrypted`
with one `.sendFailure` counted. -/
theorem order_cases (encrypt : Encryption) (w : World) (s : Nat) (o : Order) :
    (∃ d k, w.order encrypt s o = (.ok d, { w with draws := k }) ∧ d.stage = .ready) ∨
    w.order encrypt s o = (.error .gone, w) ∨
    ∃ x k, w.sessions[s]? = some x ∧ w.order encrypt s o
      = (.error .unencrypted, { w with draws := k }.count x.node .sendFailure) := by
  cases o with
  | plain m | behind m payload => exact .inl ⟨_, w.draws, rfl, rfl⟩
  | encrypted m key =>
    unfold order
    dsimp only
    split
    · exact .inr (.inl rfl)
    · next x hx =>
      split
      · exact .inr (.inl rfl)
      · split
        · exact .inr (.inr ⟨x, w.draws + 1, hx, rfl⟩)
        · exact .inl ⟨_, w.draws + 1, rfl, rfl⟩

theorem counts_of_begun (hw : w.Tallied) (h : w.order encrypt s o = (.ok d, u)) :
    Counts n w (u.spawn (.sending d)) none := by
  obtain ⟨d', k, heq, hready⟩ | heq | ⟨x, k, -, heq⟩ := order_cases encrypt w s o
  · cases h.symm.trans heq
    refine counts_none hw (fun _ _ hx => hx) (by simp [spawn]) (fun r => ?_) rfl
    have hspawned : ({ w with draws := k }.spawn (.sending d)).tasks[r]?
        = if r = w.tasks.size then some { activity := .sending d } else w.tasks[r]? :=
      Array.getElem?_push
    by_cases hr : r = w.tasks.size
    · refine .inr ⟨?_, _, by rw [hspawned, if_pos hr], fun e he => ?_⟩
      · rw [hr]
        exact Array.getElem?_eq_none (Nat.le_refl _)
      · cases he
        rw [hready]
        rfl
    · exact .inl fun _ _ _ => by rw [hspawned, if_neg hr]
  · cases h.symm.trans heq
  · cases h.symm.trans heq

/-- What is counted for sends that have an outcome, and for calls that were refused. -/
def credits (n : Nat) (reports : List (Sending × Bool)) (calls : List Asked) : List Counted :=
  reports.map (fun r => r.1.credit r.2) ++ calls.filterMap (·.credit? n)

/-- The sends in `new` have got their outcomes besides those in `old`, and the `outward` counters
are those in `m` with their `credits`. -/
structure Booked (n : Nat) (m : Metrics) (old new : List (Sending × Bool)) (calls : List Asked)
    (w : World) : Prop where
  tallied : w.Tallied
  reports : (w.reports n).Perm (new ++ old)
  outward : w.outward? n = some (m + Metrics.total (credits n new calls)).outward

variable {m : Metrics} {old new : List (Sending × Bool)} {calls : List Asked}

theorem outward_next {cs ds : List Counted} {c : Option Counted}
    (h : w.outward? n = some (m + Metrics.total cs).outward)
    (hnext : w'.outward? n = c.elim (w.outward? n) fun c =>
      (w.outward? n).map fun m => (m.count c).outward) (hds : ds.Perm (cs ++ c.toList)) :
    w'.outward? n = some (m + Metrics.total ds).outward := by
  rw [hnext, h, Metrics.total_perm hds]
  cases c with
  | none =>
    rw [Option.toList_none, List.append_nil]
    rfl
  | some c =>
    rw [Option.toList_some, Metrics.total_concat, ← Metrics.count_add, Metrics.outward_count]
    rfl

theorem Booked.next {r : Option (Sending × Bool)} (h : Booked n m old new calls w)
    (hnext : Counts n w w' r) : Booked n m old (r.toList ++ new) calls w' where
  tallied := hnext.tallied
  reports := by
    rw [List.append_assoc]
    exact hnext.reports.trans (h.reports.append_left _)
  outward := by
    refine outward_next h.outward hnext.outward ?_
    rw [credits, List.map_append, List.append_assoc, ← credits]
    cases r <;> exact List.perm_append_comm

/-- A call that was refused is `Booked` with its `credit?`. -/
theorem Booked.refused {why : Refusal} (h : Booked n m old new calls w)
    (hrefused : w.order encrypt s o = (.error why, u)) :
    Booked n m old new (calls ++ [.refused (w.site? s) why]) u := by
  have hcredits (c : Asked) :
      credits n new (calls ++ [c]) = credits n new calls ++ (c.credit? n).toList := by
    rw [credits, List.filterMap_append, ← List.append_assoc]
    rfl
  obtain ⟨d, k, heq, -⟩ | heq | ⟨x, k, hx, heq⟩ := order_cases encrypt w s o
  · cases hrefused.symm.trans heq
  · cases hrefused.symm.trans heq
    have hnone : Asked.credit? n (.refused (w.site? s) .gone) = none := by cases w.site? s <;> rfl
    refine ⟨h.tallied, h.reports, ?_⟩
    rw [hcredits, hnone, Option.toList_none, List.append_nil]
    exact h.outward
  · cases hrefused.symm.trans heq
    have hsite : w.site? s = some x.node := by rw [site?, hx]; rfl
    refine ⟨h.tallied, h.reports, outward_next h.outward ?_ (.of_eq (hcredits _))⟩
    rw [hsite, outward?_count, Asked.credit?]
    split <;> rfl

theorem Traffic.booked (hw : Booked n m old [] [] w) (h : w.Traffic encrypt n calls w') :
    ∃ new, Booked n m old new calls w' := by
  induction h with
  | start => exact ⟨[], hw⟩
  | event _ happens ih =>
    obtain ⟨new, hbooked⟩ := ih
    obtain ⟨r, hnext⟩ := counts_of_happens hbooked.tallied happens
    exact ⟨_, hbooked.next hnext⟩
  | begun _ ordered ih =>
    obtain ⟨new, hbooked⟩ := ih
    have hnext := hbooked.next (counts_of_begun hbooked.tallied ordered)
    refine ⟨new, hnext.tallied, hnext.reports, ?_⟩
    rw [credits, List.filterMap_append]
    exact (List.append_nil _).symm ▸ hnext.outward
  | refused _ ordered ih =>
    obtain ⟨new, hbooked⟩ := ih
    exact ⟨new, hbooked.refused ordered⟩

/-- After every event a send through `s` remains one, of the same `frame`. -/
theorem Sends.happens {x : Event} (hd : x.before.Sends s t d) (h : x.Happens (KeepsSends n)) :
    ∃ d', x.after.Sends s t d' ∧ d'.frame = d.frame := by
  obtain ⟨cause, before, after⟩ := x
  cases cause with
  | task r =>
    obtain ⟨task, htask, -, hadvances, -⟩ := exists_advances h
    exact hd.advances hadvances htask
  | removal k a =>
    obtain rfl : after = before.removeBonded k a := h
    obtain ⟨hsession, task, htask, hsending⟩ := hd
    exact ⟨d, ⟨hsession, task, by rwa [tasks_removeBonded], hsending⟩, rfl⟩
  | other =>
    obtain ⟨hsession, task, htask, hsending⟩ := hd
    have hkeeps : KeepsSends n before after := h
    exact ⟨d, ⟨hsession, task, (hkeeps.sends t task d hsending).2 htask, hsending⟩, rfl⟩

theorem tasks_order (encrypt : Encryption) (w : World) (s : Nat) (o : Order) :
    (w.order encrypt s o).2.tasks = w.tasks := by
  obtain ⟨d, k, heq, -⟩ | heq | ⟨x, k, -, heq⟩ := order_cases encrypt w s o
  · rw [heq]
  · rw [heq]
  · rw [heq, tasks_count]

/-- A task that was begun for a call is a send through the same session, of the same `frame`, from
then on. -/
theorem Traffic.sends (h : w.Traffic encrypt n calls w') (hmem : .begun t d ∈ calls) :
    ∃ d', w'.Sends d.session t d' ∧ d'.frame = d.frame := by
  have hkept {v u : World} (htasks : v.tasks[t]? = u.tasks[t]?)
      (h : ∃ d', v.Sends d.session t d' ∧ d'.frame = d.frame) :
      ∃ d', u.Sends d.session t d' ∧ d'.frame = d.frame := by
    obtain ⟨d', ⟨hsession, task, htask, hsending⟩, hframe⟩ := h
    exact ⟨d', ⟨hsession, task, htasks.symm.trans htask, hsending⟩, hframe⟩
  induction h with
  | start => cases hmem
  | event _ happens ih =>
    obtain ⟨d', hsends, hframe⟩ := ih hmem
    obtain ⟨d'', hsends', hframe'⟩ := hsends.happens happens
    exact ⟨d'', hsends', hframe'.trans hframe⟩
  | @begun calls v u s o _ _ ordered ih =>
    obtain hmem | hnew := List.mem_append.1 hmem
    · obtain ⟨d', hsends, hframe⟩ := ih hmem
      have htasks : v.tasks = u.tasks := by rw [← tasks_order encrypt v s o, ordered]
      obtain ⟨-, task, htask, -⟩ := hsends
      have hlt := (Array.getElem?_eq_some_iff.1 htask).1
      refine hkept ?_ (ih hmem)
      rw [spawn, Array.getElem?_push, if_neg (Nat.ne_of_lt (htasks ▸ hlt)), htasks]
    · cases List.mem_singleton.1 hnew
      refine ⟨d, ⟨rfl, { activity := .sending d }, ?_, rfl⟩, rfl⟩
      rw [spawn, Array.getElem?_push, if_pos rfl]
  | @refused calls v u s o why _ ordered ih =>
    obtain hmem | hnew := List.mem_append.1 hmem
    · have htasks : v.tasks = u.tasks := by rw [← tasks_order encrypt v s o, ordered]
      exact hkept (congrArg (·[t]?) htasks) (ih hmem)
    · cases List.mem_singleton.1 hnew

/-! ### What it adds up to -/

/-- The sends among the `reports` whose callers were told `ok`. -/
def told (reports : List (Sending × Bool)) (ok : Bool) : List Sending :=
  (reports.filter (·.2 = ok)).map (·.1)

theorem total_reports (reports : List (Sending × Bool)) :
    let all := Metrics.total (reports.map fun r => r.1.credit r.2)
    all.framesSent = .ofNat (told reports true).length ∧
    all.bytesSent = .ofNat ((told reports true).map (·.frame.length)).sum ∧
    all.sendFailures = .ofNat (told reports false).length := by
  induction reports with
  | nil => exact ⟨rfl, rfl, rfl⟩
  | cons r reports ih =>
    obtain ⟨d, ok⟩ := r
    obtain ⟨hframes, hbytes, hfailures⟩ := ih
    dsimp only at hframes hbytes hfailures ⊢
    rw [List.map_cons, Metrics.total_cons]
    cases ok with
    | true =>
      have htold : told ((d, true) :: reports) true = d :: told reports true := rfl
      have hothers : told ((d, true) :: reports) false = told reports false := rfl
      rw [htold, hothers, List.length_cons, List.map_cons, List.sum_cons,
        Nat.add_comm d.frame.length,
        UInt64.ofNat_add, UInt64.ofNat_add, ← hframes, ← hbytes, ← hfailures]
      exact ⟨rfl, rfl, rfl⟩
    | false =>
      have htold : told ((d, false) :: reports) true = told reports true := rfl
      have hothers : told ((d, false) :: reports) false = d :: told reports false := rfl
      rw [htold, hothers, List.length_cons, UInt64.ofNat_add, ← hframes, ← hbytes, ← hfailures]
      exact ⟨rfl, rfl, rfl⟩

/-- A call that was refused is counted as one of `sendFailures`, or `isDropped`. -/
theorem Asked.total_credit (n : Nat) (c : Asked) :
    let one := Metrics.total (c.credit? n).toList
    one.framesSent = 0 ∧ one.bytesSent = 0 ∧
    one.sendFailures + .ofNat (if c.isDropped n then 1 else 0)
      = .ofNat (if c.isRefused n then 1 else 0) := by
  rcases c with _ | ⟨_ | k, why⟩
  · exact ⟨rfl, rfl, rfl⟩
  · exact ⟨rfl, rfl, rfl⟩
  · cases why with
    | gone => exact ⟨rfl, rfl, UInt64.zero_add _⟩
    | unencrypted => by_cases hk : k = n <;> simp [Asked.credit?, isDropped, isRefused, hk] <;>
        exact ⟨rfl, rfl, rfl⟩

theorem total_calls (n : Nat) (calls : List Asked) :
    let all := Metrics.total (calls.filterMap (·.credit? n))
    all.framesSent = 0 ∧ all.bytesSent = 0 ∧ all.sendFailures
      + .ofNat (calls.countP (·.isDropped n)) = .ofNat (calls.countP (·.isRefused n)) := by
  induction calls with
  | nil => exact ⟨rfl, rfl, rfl⟩
  | cons c calls ih =>
    obtain ⟨hframes, hbytes, hfailures⟩ := ih
    obtain ⟨hframe, hbyte, hfailure⟩ := c.total_credit n
    have hsplit : (c :: calls).filterMap (·.credit? n)
        = (c.credit? n).toList ++ calls.filterMap (·.credit? n) := by
      rw [List.filterMap_cons]
      cases c.credit? n <;> rfl
    dsimp only
    rw [hsplit, Metrics.total_append, Metrics.framesSent_add, Metrics.bytesSent_add,
      Metrics.sendFailures_add, hframe, hbyte, hframes, hbytes, List.countP_cons, List.countP_cons,
      UInt64.ofNat_add, UInt64.ofNat_add, ← hfailure, ← hfailures]
    refine ⟨rfl, rfl, ?_⟩
    ac_rfl

/-- A world without sends is `Tallied`. -/
theorem tallied_of_idle (h : ∀ (t : Nat) (task : Task) (d : Sending), w.tasks[t]? = some task →
    task.activity ≠ .sending d) : w.Tallied :=
  fun t task d htask hsending => absurd hsending (h t task d htask)

/-- **Sends are counted as they are reported.** Whatever sends the sessions of node `n` are asked
for in the course of `h`, its `framesSent` grows by the number of callers that are told true,
`bytesSent` by the lengths of those frames, and `sendFailures` by the number of callers that are
told false, except those whose application is gone. A send that is begun is among the `reports` when
it has an outcome, with the frame that was asked for. -/
theorem sends_counted {node : Node} (hw : w.Tallied) (hnode : w.nodes[n]? = some node)
    (h : w.Traffic encrypt n calls w') :
    (∃ new node', (w'.reports n).Perm (new ++ w.reports n) ∧ w'.nodes[n]? = some node' ∧
      node'.metrics.framesSent = node.metrics.framesSent + .ofNat (told new true).length ∧
      node'.metrics.bytesSent
        = node.metrics.bytesSent + .ofNat ((told new true).map (·.frame.length)).sum ∧
      node'.metrics.sendFailures + .ofNat (calls.countP (·.isDropped n))
        = node.metrics.sendFailures
          + .ofNat ((told new false).length + calls.countP (·.isRefused n))) ∧
    ∀ t d ok, .begun t d ∈ calls → w'.outcome? t = some (.sent ok) → w'.site? d.session = some n →
      ∃ d', w'.report? n t = some (d', ok) ∧ d'.session = d.session ∧ d'.frame = d.frame := by
  refine ⟨?counted, fun t d ok hbegun hover hsite => ?reported⟩
  case counted =>
    have hstart : Booked n node.metrics (w.reports n) [] [] w := by
      refine ⟨hw, .refl _, ?_⟩
      rw [outward?, hnode]
      exact congrArg (fun m => some m.outward) (Metrics.add_empty node.metrics).symm
    obtain ⟨new, -, hreports, houtward⟩ := h.booked hstart
    obtain ⟨node', hnode', houtward⟩ := Option.map_eq_some_iff.1 houtward
    obtain ⟨hframes, hbytes, hfailures⟩ := total_reports new
    obtain ⟨hframes', hbytes', hfailures'⟩ := total_calls n calls
    rw [credits, Metrics.total_append] at houtward
    refine ⟨new, node', hreports, hnode', ?_, ?_, ?_⟩
    · refine (congrArg Metrics.framesSent houtward).trans ?_
      show (_ + (_ + _) : Metrics).framesSent = _
      rw [Metrics.framesSent_add, Metrics.framesSent_add, hframes, hframes', UInt64.add_zero]
    · refine (congrArg Metrics.bytesSent houtward).trans ?_
      show (_ + (_ + _) : Metrics).bytesSent = _
      rw [Metrics.bytesSent_add, Metrics.bytesSent_add, hbytes, hbytes', UInt64.add_zero]
    · -- what is refused by a gone application is added on both sides
      refine (congrArg (Metrics.sendFailures · + _) houtward).trans ?_
      show (_ + (_ + _) : Metrics).sendFailures + _ = _
      rw [Metrics.sendFailures_add, Metrics.sendFailures_add, UInt64.ofNat_add, ← hfailures',
        hfailures, UInt64.add_assoc, UInt64.add_assoc]
  case reported =>
    obtain ⟨d', ⟨hsession, task, htask, hsending⟩, hframe⟩ := h.sends hbegun
    rw [outcome?, htask] at hover
    refine ⟨d', report?_eq_some_iff.2 ⟨task, htask, hsending, hover, ?_⟩, hsession, hframe⟩
    rw [hsession, hsite]

/-- A message goes out, one is not encrypted, and for one there is no application. -/
theorem sends_counted_three :
    let a : Address := ⟨#v[2, 0, 0, 0, 0, 1]⟩
    let b : Address := ⟨#v[2, 0, 0, 0, 0, 2]⟩
    let service : Endpoint := .service ({} : LinkConfig).service.uuid
    let m : Message := .ofKind 5 (.ofName "x")
    let d : Sending := .ofMessage 0 m
    let w : World :=
      { nodes := #[{ address := a, config := {},
                     app := { deviceId := "p", secret := Vector.replicate 32 0,
                              announcement := .ofKind 1 .identity } }]
        sessions := #[{ node := 0, peer := ⟨b, none⟩, held := some ⟨0, .caller⟩ },
          { node := 0, peer := ⟨b, none⟩, detached := true }]
        air := [.switchOn a, .switchOn b, .listen b service, .connect a b service, .accept 1].foldl
          Air.perform {} }
    ∃ w' node', w.Traffic (fun _ _ _ => none) 0
        [.begun 0 d, .refused (some 0) .unencrypted, .refused (some 0) .gone] w' ∧
      w'.nodes[0]? = some node' ∧ node'.metrics.framesSent = 1 ∧
      node'.metrics.bytesSent = .ofNat d.frame.length ∧ node'.metrics.sendFailures + 1 = 2 := by
  intro a b service m d w
  let key : X25519.Key := Vector.replicate 32 1
  let asked : World := ((w.spawn (.sending d)).order (fun _ _ _ => none) 0 (.encrypted m key)).2
  have hrun : (asked.replay? (List.replicate 6 (.task 0))).map (fun r =>
      decide (r.2.outcome? 0 = some (.sent true) ∧ r.2.site? 0 = some 0 ∧ r.2.tasks.size = 1))
      = some true := by decide +kernel
  obtain ⟨⟨events, w'⟩, hreplay, hend⟩ := Option.map_eq_some_iff.1 hrun
  obtain ⟨hover, hsite, hsize⟩ := of_decide_eq_true hend
  have hbegun : w.Traffic (fun _ _ _ => none) 0 [.begun 0 d] (w.spawn (.sending d)) :=
    Traffic.start.begun (s := 0) (o := .plain m) rfl
  have hasked := (hbegun.refused (s := 0) (o := .encrypted m key) (u := asked) rfl).refused
    (s := 1) (o := .encrypted m key) (u := asked) rfl
  have htraffic := hasked.passes (History.start.append_replay hreplay)
  have hidle : w.Tallied := tallied_of_idle fun t task d htask => by cases t <;> cases htask
  obtain ⟨⟨new, node', hperm, hnode', hframes, hbytes, hfailures⟩, hreported⟩ :=
    sends_counted hidle rfl htraffic
  obtain ⟨d', hreport, -, hframe⟩ := hreported 0 d true List.mem_cons_self hover hsite
  have hreports : w'.reports 0 = [(d', true)] := by
    rw [reports, hsize, List.range_one, List.filterMap_cons_some hreport, List.filterMap_nil]
  rw [hreports] at hperm
  obtain rfl : new = [(d', true)] :=
    (List.append_nil new).symm.trans (List.perm_singleton.1 hperm.symm)
  refine ⟨w', node', htraffic, hnode', hframes, hbytes.trans ?_, hfailures⟩
  show 0 + UInt64.ofNat (d'.frame.length + 0) = _
  rw [hframe, UInt64.zero_add, Nat.add_zero]

/-- Whoever asks for an encrypted send when the application is gone is told false, and
`sendFailures` stays as it was. -/
theorem dropped_uncounted :
    let b : Address := ⟨#v[2, 0, 0, 0, 0, 2]⟩
    let w : World :=
      { nodes := #[{ address := ⟨#v[2, 0, 0, 0, 0, 1]⟩, config := {},
                     app := { deviceId := "p", secret := Vector.replicate 32 0,
                              announcement := .ofKind 1 .identity } }]
        sessions := #[{ node := 0, peer := ⟨b, none⟩, detached := true }] }
    ∃ w' node', w.Traffic (.standard w.suite w.entropy) 0 [.refused (some 0) .gone] w' ∧
      w'.nodes[0]? = some node' ∧ node'.metrics.sendFailures = 0 := by
  intro b w
  have hgone : w.order (.standard w.suite w.entropy) 0
      (.encrypted (.ofKind 5 (.ofName "x")) (Vector.replicate 32 1)) = (.error .gone, w) := rfl
  exact ⟨w, _, Traffic.start.refused hgone, rfl, rfl⟩

end World
end RadioLink
