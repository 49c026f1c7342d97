import RadioLink.Proofs.Air.Ends
import RadioLink.Proofs.World.Course

/-!
# The turns of a message that is handled

`Handling.Turn` has one constructor for each way through `Handling.step`, with what the step finds
and what it makes of the world. A message with a transfer is called for (`calls`), answered
(`begins`), and read piece by piece (`takes`, up to `full`). On the ways out that fail, from
`unreachable` to `tooSlow`, the message is delivered as it is; only `aborted` ends the task without
delivering it.
-/

namespace RadioLink

open World (Aside)

/-! ### Calls -/

namespace World

variable {w v : World} {c : Call}

/-- What `World.call` does is `Air.connect`; only if that returns a link the caller gets a `Call`,
with `limit` for its deadline. -/
theorem call_cases (w : World) (caller target : Address) (e : Endpoint) (limit : Nat) :
    (∃ fault v, w.call caller target e limit = (.error fault, v) ∧
      (w.air.connect caller target e).1 = .error fault ∧ w.Aside v ∧
      v.air = w.air.perform (.connect caller target e)) ∨
    ∃ link v, w.call caller target e limit = (.ok ⟨link, w.timer limit⟩, v) ∧
      (w.air.connect caller target e).1 = .ok link ∧ w.Aside v ∧
      v.air = w.air.perform (.connect caller target e) := by
  have hair : (w.air.connect caller target e).2 = w.air.perform (.connect caller target e) := rfl
  unfold call
  generalize w.air.connect caller target e = r at hair
  obtain ⟨fault | link, air⟩ := r
  · exact .inl ⟨fault, _, rfl, rfl, Aside.refl.air _, hair⟩
  · exact .inr ⟨link, _, rfl, rfl, (Aside.refl.air _).withTimer, hair⟩

/-- Where `World.answer?` gives an answer, it is the one of the air, or there is none by the
deadline and the call is abandoned with `.timeout`. -/
theorem answer?_eq_some {r : Except LinkError LinkEnd} (h : w.answer? c = some (r, v)) :
    (w.air.answer? c.link = some r ∧ v = w) ∨
      w.air.answer? c.link = none ∧ w.isDue c.deadline = true ∧ r = .error .timeout ∧
        v = { w with air := w.air.perform (.abandon c.link) } := by
  unfold answer? at h
  split at h
  · next heq =>
    cases h
    exact .inl ⟨heq, rfl⟩
  · next heq =>
    split at h
    · next hdue =>
      cases h
      exact .inr ⟨heq, hdue, rfl, rfl⟩
    · cases h

end World

/-- The link of a call that `Air.connect` accepts is a new one. -/
theorem Air.size_of_call {air : Air} {a caller callee : Address} {e : Endpoint} {link : Nat}
    (h : (air.connect caller callee e).1 = .ok link) : air.links.size ≤ link ∧
      link < ([.cancelDiscovery a, .connect caller callee e].foldl perform air).links.size := by
  rw [eq_size_of_connect h]
  refine ⟨Nat.le_refl _, ?_⟩
  rw [← air.fst_connect_cancelDiscovery a] at h
  show _ < ((air.cancelDiscovery a).connect caller callee e).2.links.size
  unfold connect at h ⊢
  dsimp only at h ⊢
  split at h
  · cases h
  · rw [Array.size_push]
    exact Nat.lt_succ_self _

/-- An answer that is not an error is the caller's end of the link. -/
theorem Air.eq_of_answer? {air : Air} {link : Nat} {stream : LinkEnd}
    (h : air.answer? link = some (.ok stream)) : stream = ⟨link, .caller⟩ := by
  rw [answer?_eq] at h
  split at h <;> cases h
  rfl

/-! ### Turns -/

namespace Handling

/-- How many bytes of a channel complete a message: just `payloadSize` of them, or without one all
there are up to the `limit` on frames. -/
def Wants (m : Message) (limit size : Nat) (sized : Bool) : Prop :=
  match m.payloadSize with
  | some s => s.toNat ≤ limit ∧ size = s.toNat ∧ sized = true
  | none => size = limit ∧ sized = false

/-- What one step of `d` can be, for the session `x` it belongs to and the `node` of that. -/
inductive Turn (d : Handling) (x : Session) (node : Node) (w : World) : Progress × World →
    Prop where
  | detached (stage : d.stage = .ready) (gone : x.detached = true) : Turn d x node w (.done, w)
  | undecipherable {e : LinkError} (stage : d.stage = .ready) (attached : x.detached = false)
      (opened : opened node.app.decrypt d.message = .error e) :
      Turn d x node w (.done, w.count x.node .decryptionFailure)
  /-- There is nothing to fetch: `needsTransfer` is false of the message as it was `opened`. -/
  | plain {m : Message} (stage : d.stage = .ready) (attached : x.detached = false)
      (opened : opened node.app.decrypt d.message = .ok m)
      (complete : m.needsTransfer = false) : Turn d x node w (deliver m x.node node w)
  | unreachable {m : Message} {transfer : Transfer} {fault : LinkError} {v : World}
      (stage : d.stage = .ready) (attached : x.detached = false)
      (opened : opened node.app.decrypt d.message = .ok m) (payload : m.payload = none)
      (channel : m.transfer = some transfer)
      (connect : (w.air.connect node.address x.peer.address
        (.channel transfer.channel.toNat)).1 = .error fault) (aside : w.Aside v)
      (air : v.air = [.cancelDiscovery node.address, .connect node.address x.peer.address
        (.channel transfer.channel.toNat)].foldl Air.perform w.air) :
      Turn d x node w (deliver m x.node node v)
  | calls {m : Message} {transfer : Transfer} {call : Call} {v : World} (stage : d.stage = .ready)
      (attached : x.detached = false)
      (opened : opened node.app.decrypt d.message = .ok m) (payload : m.payload = none)
      (channel : m.transfer = some transfer)
      (connect : (w.air.connect node.address x.peer.address
        (.channel transfer.channel.toNat)).1 = .ok call.link)
      (due : call.deadline.due = w.now + node.config.session.connectTimeout) (aside : w.Aside v)
      (air : v.air = [.cancelDiscovery node.address, .connect node.address x.peer.address
        (.channel transfer.channel.toNat)].foldl Air.perform w.air) :
      Turn d x node w (.going { d with message := m, stage := .calling call }, v)
  | declined {call : Call} {e : LinkError} (stage : d.stage = .calling call)
      (answer : w.air.answer? call.link = some (.error e)) :
      Turn d x node w (deliver d.message x.node node w)
  | unanswered {call : Call} {v : World} (stage : d.stage = .calling call)
      (answer : w.air.answer? call.link = none) (due : call.deadline.due ≤ w.now)
      (aside : w.Aside v) (air : v.air = w.air.perform (.abandon call.link)) :
      Turn d x node w (deliver d.message x.node node v)
  | tooLarge {call : Call} {size : UInt64} (stage : d.stage = .calling call)
      (answer : w.air.answer? call.link = some (.ok ⟨call.link, .caller⟩))
      (declared : d.message.payloadSize = some size)
      (large : node.config.service.maxFrameSize < size.toNat) :
      Turn d x node w (deliver d.message x.node node (w.drop ⟨call.link, .caller⟩))
  | begins {call : Call} {size : Nat} {sized : Bool} {deadline : Timer} {v : World}
      (stage : d.stage = .calling call)
      (answer : w.air.answer? call.link = some (.ok ⟨call.link, .caller⟩))
      (wants : Wants d.message node.config.service.maxFrameSize size sized)
      (due : deadline.due = w.now + node.config.session.payloadTimeout) (aside : w.Aside v)
      (air : v.air = w.air) :
      Turn d x node w
        (.going { d with stage := .fetching ⟨⟨call.link, .caller⟩, size, sized, [], 0, deadline⟩ },
          v)
  | full {f : Fetch} (stage : d.stage = .fetching f) (full : f.received = f.size) :
      Turn d x node w
        (deliver (d.message.setPayload f.pieces.reverse.flatten) x.node node (w.drop f.stream))
  | takes {f : Fetch} {bytes : Bytes} {v : World} (stage : d.stage = .fetching f)
      (lacks : f.received ≠ f.size)
      (read : (w.air.read f.stream (f.size - f.received)).1 = .data bytes) (aside : w.Aside v)
      (air : v.air = w.air.perform (.read f.stream (f.size - f.received))) :
      Turn d x node w (.going { d with stage := .fetching { f with
        pieces := bytes :: f.pieces, received := f.received + bytes.length } }, v)
  | cutOff {f : Fetch} {v : World} (stage : d.stage = .fetching f) (lacks : f.received ≠ f.size)
      (sized : f.exact = true) (read : (w.air.read f.stream (f.size - f.received)).1 = .ended)
      (aside : w.Aside v) (air : v.air = [.read f.stream (f.size - f.received),
        .drop f.stream].foldl Air.perform w.air) :
      Turn d x node w (deliver d.message x.node node v)
  | ended {f : Fetch} {v : World} (stage : d.stage = .fetching f) (lacks : f.received ≠ f.size)
      (unsized : f.exact = false) (read : (w.air.read f.stream (f.size - f.received)).1 = .ended)
      (aside : w.Aside v) (air : v.air = [.read f.stream (f.size - f.received),
        .drop f.stream].foldl Air.perform w.air) :
      Turn d x node w (deliver (d.message.setPayload f.pieces.reverse.flatten) x.node node v)
  | disrupted {f : Fetch} {fault : StreamFault} {v : World} (stage : d.stage = .fetching f)
      (lacks : f.received ≠ f.size)
      (read : (w.air.read f.stream (f.size - f.received)).1 = .fault fault) (aside : w.Aside v)
      (air : v.air = [.read f.stream (f.size - f.received),
        .drop f.stream].foldl Air.perform w.air) :
      Turn d x node w (deliver d.message x.node node v)
  | aborted {f : Fetch} {v : World} (stage : d.stage = .fetching f) (lacks : f.received ≠ f.size)
      (read : (w.air.read f.stream (f.size - f.received)).1 = .abort) (aside : w.Aside v)
      (air : v.air = [.read f.stream (f.size - f.received),
        .drop f.stream].foldl Air.perform w.air) : Turn d x node w (.abort, v)
  | tooSlow {f : Fetch} (stage : d.stage = .fetching f) (lacks : f.received ≠ f.size)
      (read : (w.air.read f.stream (f.size - f.received)).1 = .pending)
      (due : f.deadline.due ≤ w.now) :
      Turn d x node w (deliver d.message x.node node (w.drop f.stream))

variable {d : Handling} {x : Session} {node : Node} {w v : World} {q : Progress × World}

theorem turn_begin (hd : d.stage = .ready) : d.Turn x node w (d.begin x node w) := by
  unfold begin
  split
  · next hx => exact .detached hd hx
  · next hx =>
    have hx : x.detached = false := by simpa using hx
    split
    · next hopened => exact .undecipherable hd hx hopened
    · next m hopened =>
      split
      · next transfer hpayload htransfer =>
        have haside : w.Aside (w.cancelDiscovery node) := Aside.refl.cancelDiscovery node
        have hconnect : ((w.cancelDiscovery node).air.connect node.address x.peer.address
            (.channel transfer.channel.toNat)).1 = (w.air.connect node.address x.peer.address
              (.channel transfer.channel.toNat)).1 := w.air.fst_connect_cancelDiscovery ..
        dsimp only
        obtain ⟨fault, v, heq, hfault, hv, hair⟩ | ⟨link, v, heq, hlink, hv, hair⟩ :=
          (w.cancelDiscovery node).call_cases node.address x.peer.address
            (.channel transfer.channel.toNat) node.config.session.connectTimeout
        · rw [heq]
          exact .unreachable hd hx hopened hpayload htransfer (hconnect ▸ hfault)
            (haside.trans hv) hair
        · rw [heq]
          exact .calls hd hx hopened hpayload htransfer (hconnect ▸ hlink) rfl
            (haside.trans hv) hair
      · next hother =>
        refine .plain hd hx hopened ?_
        cases hpayload : m.payload with
        | some p => simp [Message.needsTransfer, hpayload]
        | none =>
          cases htransfer : m.transfer with
          | none => simp [Message.needsTransfer, htransfer]
          | some transfer => exact absurd htransfer (hother transfer hpayload)

theorem turn_beginFetch {call : Call} (hd : d.stage = .calling call)
    (answer : w.air.answer? call.link = some (.ok ⟨call.link, .caller⟩)) :
    d.Turn x node w (d.beginFetch x.node node ⟨call.link, .caller⟩ w) := by
  unfold beginFetch
  dsimp only
  split
  · next hsize =>
    refine .begins hd answer ?_ rfl Aside.refl.withTimer rfl
    rw [Wants, hsize]
    exact ⟨rfl, rfl⟩
  · next size hsize =>
    unfold Frame.checkPayloadSize
    split
    · next hle =>
      split at hle
      · cases hle
      · next hlt => exact .tooLarge hd answer hsize (Nat.lt_of_not_le hlt)
    · next hle =>
      split at hle
      · next hle' =>
        cases hle
        refine .begins hd answer ?_ rfl Aside.refl.withTimer rfl
        rw [Wants, hsize]
        exact ⟨hle', rfl, rfl⟩
      · cases hle

theorem turn_stepFetch {f : Fetch} (hd : d.stage = .fetching f)
    (h : d.stepFetch x.node node f w = some q) : d.Turn x node w q := by
  unfold stepFetch at h
  dsimp only at h
  split at h
  · next hfull =>
    obtain rfl := Option.some.inj h
    exact .full hd hfull
  · next hlacks =>
    have hair : (w.air.read f.stream (f.size - f.received)).2
        = w.air.perform (.read f.stream (f.size - f.received)) := rfl
    split at h
    · next heq =>
      obtain rfl := Option.some.inj h
      rw [heq] at hair
      exact .takes hd hlacks (congrArg Prod.fst heq) (Aside.refl.air _) hair
    · next heq =>
      obtain rfl := Option.some.inj h
      rw [heq] at hair
      have hdrop := congrArg (Air.drop · f.stream) hair
      split
      · next hsized =>
        exact .cutOff hd hlacks hsized (congrArg Prod.fst heq) ((Aside.refl.air _).drop _) hdrop
      · next hsized =>
        exact .ended hd hlacks (by simpa using hsized) (congrArg Prod.fst heq)
          ((Aside.refl.air _).drop _) hdrop
    · next heq =>
      obtain rfl := Option.some.inj h
      rw [heq] at hair
      exact .disrupted hd hlacks (congrArg Prod.fst heq) ((Aside.refl.air _).drop _)
        (congrArg (Air.drop · f.stream) hair)
    · next heq =>
      obtain rfl := Option.some.inj h
      rw [heq] at hair
      exact .aborted hd hlacks (congrArg Prod.fst heq) ((Aside.refl.air _).drop _)
        (congrArg (Air.drop · f.stream) hair)
    · next heq =>
      split at h
      · next hdue =>
        obtain rfl := Option.some.inj h
        exact .tooSlow hd hlacks (congrArg Prod.fst heq) (of_decide_eq_true hdue)
      · cases h

/-- Whatever `Handling.step` returns is one of the `Turn`s. -/
theorem turn_of_step (h : d.step w = some q) :
    ∃ x node, w.sessions[d.session]? = some x ∧ w.nodes[x.node]? = some node ∧
      d.Turn x node w q := by
  unfold step at h
  split at h
  · cases h
  · next x hx =>
    split at h
    · cases h
    · next node hnode =>
      refine ⟨x, node, hx, hnode, ?_⟩
      split at h
      · next hd =>
        obtain rfl := Option.some.inj h
        exact turn_begin hd
      · next call hd =>
        split at h
        · cases h
        · next heq =>
          obtain rfl := Option.some.inj h
          obtain ⟨hanswer, rfl⟩ | ⟨hnone, hdue, -, rfl⟩ := World.answer?_eq_some heq
          · exact .declined hd hanswer
          · exact .unanswered hd hnone (of_decide_eq_true hdue) (Aside.refl.air _) rfl
        · next stream v heq =>
          obtain rfl := Option.some.inj h
          obtain ⟨hanswer, rfl⟩ | ⟨-, -, hr, -⟩ := World.answer?_eq_some heq
          · obtain rfl := Air.eq_of_answer? hanswer
            exact turn_beginFetch hd hanswer
          · cases hr
      · next hd => exact turn_stepFetch hd h

/-! ### Where it is completed from -/

/-- The ends of links that a `Handling` may read from after a step. -/
def Progress.draws : Progress → List LinkEnd
  | .going next => next.stage.draws
  | .done | .abort => []

theorem draws_deliver (m : Message) (n : Nat) (node : Node) (w : World) :
    (deliver m n node w).1.draws = [] := by
  unfold deliver
  split <;> rfl

/-- A step draws only from the ends it drew from before, or from links that it has made itself. -/
theorem draws_step (h : d.step w = some q) :
    ∀ e ∈ q.1.draws, e ∈ d.stage.draws ∨
      w.air.links.size ≤ e.link ∧ e.link < q.2.air.links.size := by
  have hnone {q : Progress × World} (h : q.1.draws = []) : ∀ e ∈ q.1.draws,
      e ∈ d.stage.draws ∨ w.air.links.size ≤ e.link ∧ e.link < q.2.air.links.size := by
    rw [h]
    exact fun _ he => nomatch he
  obtain ⟨x, node, -, -, hturn⟩ := turn_of_step h
  cases hturn with
  | detached | undecipherable | aborted => exact hnone rfl
  | plain | unreachable | declined | unanswered | tooLarge | full | cutOff | ended | disrupted
  | tooSlow => exact hnone (draws_deliver ..)
  | @calls _ transfer call v _ _ _ _ _ connect _ _ air =>
    intro e he
    rw [List.mem_singleton.1 he, air]
    exact .inr (w.air.size_of_call connect)
  | begins stage | takes stage =>
    rw [stage]
    exact fun e he => .inl he

/-- Where `Handling.step` returns `none`, the task is in `.calling` without an answer or in
`.fetching` with nothing to read, and the deadline is yet to come. -/
theorem step_eq_none (hx : w.sessions[d.session]? = some x) (hnode : w.nodes[x.node]? = some node)
    (h : d.step w = none) :
    (∃ call, d.stage = .calling call ∧ w.air.answer? call.link = none ∧
      w.now < call.deadline.due) ∨
    ∃ f, d.stage = .fetching f ∧ (w.air.read f.stream (f.size - f.received)).1 = .pending ∧
      w.now < f.deadline.due := by
  simp only [step, hx, hnode] at h
  split at h
  · cases h
  · next call hd =>
    unfold World.answer? at h
    cases hanswer : w.air.answer? call.link with
    | some r => cases r <;> simp [hanswer] at h
    | none =>
      by_cases hdue : w.isDue call.deadline = true
      · simp [hanswer, hdue] at h
      · exact .inl ⟨call, hd, hanswer, by simpa [World.isDue] using hdue⟩
  · next f hd =>
    unfold stepFetch at h
    dsimp only at h
    split at h
    · cases h
    · split at h
      · cases h
      · cases h
      · cases h
      · cases h
      · next heq =>
        split at h
        · cases h
        · next hdue =>
          exact .inr ⟨f, hd, congrArg Prod.fst heq, by simpa [World.isDue] using hdue⟩

end Handling
end RadioLink
