import RadioLink.Frame.Outflow
import RadioLink.Proofs.Frame.Intake
import RadioLink.Proofs.Frame.Wire

/-!
# What is left of a frame

While a frame goes out, what has been written and what is left of it make up the frame. What is left
of a payload that comes from a stream only the stream knows: `Outflow.remaining?` goes without it,
and `Outflow.remaining` counts what the stream will yield up to its end.
-/

namespace RadioLink.Outflow

/-- What is left to be written, unless the payload comes from a stream. -/
def remaining? (o : Outflow) : Option Bytes :=
  match o.stage with
  | .source _ => none
  | .delimiter => some (o.pending ++ (Delimiter.bytes ++ o.message))
  | .message => some (o.pending ++ o.message)
  | .flush | .shutdown | .done => some o.pending

variable {o o' : Outflow} {left : Bytes}

/-- What is left at first, for a payload at hand, is the encoded frame. -/
theorem remaining?_start {m : Message} {p : Option Bytes} (h : start m (p.map .bytes) = .ok o) :
    o.written = 0 ∧ ∃ frame, Frame.encode m p = .ok frame ∧ o.remaining? = some frame := by
  cases p with
  | none =>
    cases h
    exact ⟨rfl, m.wire, rfl, rfl⟩
  | some q =>
    simp only [Option.map_some, start] at h
    split at h
    · cases h
    · next hcheck =>
      cases h
      refine ⟨rfl, q ++ (Delimiter.bytes ++ m.wire), ?_, rfl⟩
      exact Frame.encode_some m (Frame.checkPayload_eq_ok_iff.1 hcheck)

theorem remaining?_take {count : Nat} (hcount : count ≤ o.pending.length)
    (h : o.remaining? = some left) : (o.take count).remaining? = some (left.drop count) := by
  obtain ⟨message, pending, stage, written⟩ := o
  cases stage with
  | source source => cases h
  | delimiter | message =>
    cases h
    exact congrArg some (List.drop_append_of_le_length hcount).symm
  | flush | shutdown | done =>
    cases h
    rfl

theorem prefix_of_remaining? (h : o.remaining? = some left) : o.pending <+: left := by
  obtain ⟨message, pending, stage, written⟩ := o
  cases stage with
  | source source => cases h
  | delimiter | message =>
    cases h
    exact List.prefix_append ..
  | flush | shutdown | done =>
    cases h
    exact List.prefix_refl _

/-- `next` changes neither what is left nor what was counted as written. -/
theorem remaining?_next (hnext : o.next = .load o' ∨ o.next = .flush o' ∨ o.next = .shutdown o')
    (h : o.remaining? = some left) : o'.remaining? = some left ∧ o'.written = o.written := by
  obtain ⟨message, pending, stage, written⟩ := o
  by_cases hpending : pending = []
  · subst hpending
    cases stage with
    | source source => cases h
    | delimiter | message | flush | shutdown | done =>
      cases h
      simp only [next, ne_eq, not_true_eq_false, if_false] at hnext
      rcases hnext with hnext | hnext | hnext <;> cases hnext <;> exact ⟨rfl, rfl⟩
  · simp [next, hpending] at hnext

/-- When `next` is `done`, nothing is left. -/
theorem remaining?_of_done (h : o.next = .done) : o.remaining? = some [] := by
  obtain ⟨message, pending, stage, written⟩ := o
  by_cases hpending : pending = []
  · subst hpending
    cases stage with
    | source source =>
      simp only [next, ne_eq, not_true_eq_false, if_false] at h
      split at h <;> cases h
    | delimiter | message | flush | shutdown =>
      simp [next] at h
    | done => rfl
  · simp [next, hpending] at h

/-! ### Streamed payloads -/

end RadioLink.Outflow

namespace RadioLink

/-- All the bytes of a payload, up to where its stream ends. -/
def Payload.content : Payload → Bytes
  | .bytes content => content
  | .stream source => source.content

/-- The bytes of the frame of `m` and `p`. -/
def Outflow.frame (m : Message) (p : Option Payload) : Bytes :=
  Frame.lead (p.map (·.content)) ++ m.wire

/-- The bytes of the frame of `m` with the payload that it carries itself. -/
def Message.frame (m : Message) : Bytes := Frame.lead m.payload ++ m.wire

theorem Outflow.frame_withoutPayload (m : Message) :
    Outflow.frame m.withoutPayload (m.payload.map .bytes) = m.frame := by
  rw [frame, Message.frame]
  cases m.payload <;> rfl

namespace Outflow

/-- What is left once the piece being written is out. -/
def Stage.remaining (message : Bytes) : Stage → Bytes
  | .source script => script.content ++ (Delimiter.bytes ++ message)
  | .delimiter => Delimiter.bytes ++ message
  | .message => message
  | .flush | .shutdown | .done => []

/-- What is left to be written: what is pending, and what follows it. -/
def remaining (o : Outflow) : Bytes := o.pending ++ o.stage.remaining o.message

variable {o o' : Outflow}

/-- `start` leaves all bytes of the frame to be written. -/
theorem remaining_start {m : Message} {p : Option Payload} (h : start m p = .ok o) :
    o.remaining = frame m p ∧ o.stage ≠ .done := by
  cases p with
  | none =>
    cases h
    exact ⟨rfl, nofun⟩
  | some p =>
    cases p with
    | bytes content =>
      simp only [start] at h
      split at h
      · cases h
      · cases h
        exact ⟨(List.append_assoc ..).symm, nofun⟩
    | stream source =>
      cases h
      exact ⟨(List.append_assoc source.content Delimiter.bytes m.wire).symm, nofun⟩

theorem written_start {m : Message} {p : Option Payload} (h : start m p = .ok o) :
    o.written = 0 := by
  unfold start at h
  split at h
  · cases h
    rfl
  · cases h
    rfl
  · split at h <;> cases h
    rfl

theorem remaining_take (o : Outflow) (count : Nat) :
    o.pending.take count ++ (o.take count).remaining = o.remaining := by
  show o.pending.take count ++ (o.pending.drop count ++ _) = _
  rw [← List.append_assoc, List.take_append_drop]
  rfl

/-- What `next` can be, with what it does to `remaining`. -/
inductive Turn (o : Outflow) : Step → Prop where
  | write : Turn o .write
  /-- The next piece is what is left anyway. -/
  | load {o' : Outflow} (remaining : o'.remaining = o.remaining) (stage : o'.stage ≠ .done) :
      Turn o (.load o')
  | flush {o' : Outflow} (remaining : o'.remaining = o.remaining) (stage : o'.stage ≠ .done) :
      Turn o (.flush o')
  /-- Nothing is left when the writer is shut down. -/
  | shutdown {o' : Outflow} (remaining : o.remaining = []) (remaining' : o'.remaining = []) :
      Turn o (.shutdown o')
  | wait : Turn o .wait
  | abort : Turn o .abort
  | fault (f : StreamFault) : Turn o (.fault f)
  | done (remaining : o.remaining = []) (stage : o.stage = .done) : Turn o .done

theorem turn_next (o : Outflow) : o.Turn o.next := by
  obtain ⟨message, pending, stage, written⟩ := o
  unfold next
  split
  · exact .write
  · next hpending =>
    obtain rfl : pending = [] := Classical.not_not.1 hpending
    cases stage with
    | source source =>
      have hread : source.Reading (source.read chunk) := source.reading_read (by decide)
      dsimp only
      generalize source.read chunk = q at hread
      cases hread with
      | @data bytes source' _ content =>
        refine .load ?_ nofun
        show bytes ++ (source'.content ++ _) = source.content ++ _
        rw [content, List.append_assoc]
      | @ended r _ isEnd content =>
        cases r with
        | ended =>
          refine .flush ?_ nofun
          show Delimiter.bytes ++ message = source.content ++ (Delimiter.bytes ++ message)
          rw [content, List.nil_append]
        | fault f => exact .fault f
        | data | pending | abort => cases isEnd
      | pending => exact .wait
      | abort => exact .abort
    | delimiter => exact .load rfl nofun
    | message => exact .load (List.append_nil message) nofun
    | flush => exact .flush rfl nofun
    | shutdown => exact .shutdown rfl rfl
    | done => exact .done rfl rfl

/-- `next` changes neither `remaining` nor `written`: only a write does. -/
theorem remaining_next (h : o.next = .load o' ∨ o.next = .flush o' ∨ o.next = .shutdown o') :
    o'.remaining = o.remaining ∧ o'.written = o.written := by
  constructor
  · have hturn := o.turn_next
    rcases h with h | h | h <;> rw [h] at hturn
    · cases hturn with
      | load remaining => exact remaining
    · cases hturn with
      | flush remaining => exact remaining
    · cases hturn with
      | shutdown remaining remaining' => rw [remaining, remaining']
  · obtain ⟨message, pending, stage, written⟩ := o
    unfold next at h
    split at h
    · rcases h with h | h | h <;> cases h
    · cases stage with
      | source source =>
        dsimp only at h
        split at h <;> rcases h with h | h | h <;> cases h <;> rfl
      | _ => rcases h with h | h | h <;> cases h <;> rfl

end Outflow
end RadioLink
