import RadioLink.Air.Basic

/-!
# Connecting and accepting

A link comes about in two steps. The caller connects: if `reach` finds a listener at the callee, the
link joins its queue. The listener accepts: it takes the oldest link whose caller has not given up.
Only then does `answer?` give the caller a connection.
-/

namespace RadioLink.Air

/-! ### Listeners -/

/-- Opens a listener at the endpoint `e` of the radio `owner`, in place of any other there. Even an
attempt that fails uses up a number. -/
def listen (air : Air) (owner : Address) (e : Endpoint) : Except LinkError Nat × Air :=
  let id := air.opened + 1
  let air := { air with opened := id }
  if (air.radio owner).enabled then
    (.ok id,
      { air.updateRadio owner fun r =>
          { r with endpoints := (e, id) :: r.endpoints.filter (·.1 ≠ e) } with
        listeners := air.listeners.insert id ⟨owner, e, []⟩ })
  else (.error .radioDisabled, air)

/-- Whether the endpoint of `l` still leads to the listener `id`. -/
def isRegistered (air : Air) (id : Nat) (l : Listener) : Bool :=
  (air.radio l.owner).endpoints.contains (l.endpoint, id)

/-- A link whose listener goes away is refused, unless its caller has given up. -/
def refuse (l : Link) : Link :=
  match l.phase with
  | .waiting => { l with phase := .refused }
  | _ => l

/-- Closes the listener `id`. The links in its queue are refused. -/
def closeListener (air : Air) (id : Nat) : Air :=
  match air.listeners.get? id with
  | none => air
  | some l =>
    let air :=
      { air with
        listeners := air.listeners.erase id
        links := l.queue.foldl (fun links i => links.modify i refuse) air.links }
    air.updateRadio l.owner fun r =>
      { r with endpoints := r.endpoints.filter (· ≠ (l.endpoint, id)) }

/-! ### Connecting -/

/-- The listener that an attempt reaches, or why the attempt fails at once. -/
def reach (air : Air) (caller callee : Address) (e : Endpoint) :
    Except LinkError (Nat × Listener) :=
  if ¬ (air.radio caller).enabled then .error .radioDisabled
  else if (air.radio caller).faults > 0 then .error (.connectFailed .injected)
  else if ¬ (air.radio callee).enabled then .error (.connectFailed .outOfRange)
  else
    match (air.radio callee).endpoints.find? (·.1 = e) with
    | none => .error (.connectFailed .noListener)
    | some (_, id) =>
      match air.listeners.get? id with
      | none => .error (.connectFailed .listenerClosed)
      | some l =>
        if l.queue.length < backlog then .ok (id, l)
        else .error (.connectFailed .listenerClosed)

/-- Makes an attempt to connect. It is recorded in any case, and uses up a fault if there is one. -/
def connect (air : Air) (caller callee : Address) (e : Endpoint) : Except LinkError Nat × Air :=
  let recorded := air.updateRadio caller fun r =>
    { r with
      attempts := r.attempts ++ [(callee, e)]
      faults := if r.enabled then r.faults - 1 else r.faults }
  match air.reach caller callee e with
  | .error fault => (.error fault, recorded)
  | .ok (id, l) =>
    let link := air.links.size
    (.ok link,
      { recorded with
        links := air.links.push { caller := { address := caller }, callee := { address := callee } }
        listeners := air.listeners.insert id { l with queue := l.queue ++ [link] } })

/-- What has become of the attempt that is `link`, unless it is still waiting. -/
def answer? (air : Air) (link : Nat) : Option (Except LinkError LinkEnd) :=
  match air.links[link]? with
  | some ⟨_, _, .waiting⟩ => none
  | some ⟨_, _, .accepted⟩ => some (.ok ⟨link, .caller⟩)
  | _ => some (.error (.connectFailed .listenerClosed))

/-! ### Accepting -/

/-- What accepting brings. -/
inductive Accepted where
  /-- The end of a link at the listener's side. -/
  | connected (stream : LinkEnd)
  /-- Nothing yet. -/
  | pending
  | error (error : LinkError)

/-- The links in `queue` from the first whose caller has not given up. -/
def skipAbandoned (air : Air) (queue : List Nat) : List Nat :=
  queue.dropWhile fun i => (air.links[i]?).all (·.phase = .abandoned)

/-- Accepts the oldest link in the queue of `id` whose caller has not given up. When there is none,
another can come only as long as the endpoint is registered: the listener is `pending`, or fails
with `listenerClosed`. -/
def accept (air : Air) (id : Nat) : Accepted × Air :=
  match air.listeners.get? id with
  | none => (.error (.connectFailed .listenerClosed), air)
  | some l =>
    match air.skipAbandoned l.queue with
    | [] =>
      let rest := { air with listeners := air.listeners.insert id { l with queue := [] } }
      if air.isRegistered id l then (.pending, rest)
      else (.error (.connectFailed .listenerClosed), rest)
    | i :: queue =>
      (.connected ⟨i, .callee⟩,
        { air.updateLink i fun link => { link with phase := .accepted } with
          listeners := air.listeners.insert id { l with queue } })

end RadioLink.Air
