import RadioLink.Frame.Codec
import RadioLink.Proofs.Frame.Wire

/-!
# Frames through a buffer

Whatever is done with a buffer, one step after the other, follows from what the bytes of a frame are
(`Frame.encode`) and which frame some bytes are (`Frame.decode`), and from the limit:
`Codec.Does` says what each step answers and leaves in the buffer, in these terms alone, and
`Codec.run_eq_iff` that a run is a chain of such steps, and of no others.
-/

namespace RadioLink.Codec

variable {c : Codec} {limit : Nat} {frame : Frame} {buffer buffer' bytes : Bytes}

/-! ### Steps -/

/-- A method of the codec, on its buffer. -/
inductive Act where
  /-- `bytes` come in. -/
  | feed (bytes : Bytes)
  | decode
  | decodeEnd
  | append (frame : Frame)
  | clear

/-- What a step answers. -/
inductive Reply where
  | done
  | decoded (result : Except LinkError (Option Frame))
  | appended (result : Except LinkError Unit)

/-- The answer to an act, and the buffer afterwards. -/
def perform (c : Codec) (buffer : Bytes) : Act → Reply × Bytes
  | .feed bytes => (.done, buffer ++ bytes)
  | .decode => (.decoded (c.decode buffer), buffer)
  | .decodeEnd =>
    let (result, buffer) := c.decodeEnd buffer
    (.decoded result, buffer)
  | .append frame =>
    let (result, buffer) := c.append frame buffer
    (.appended result, buffer)
  | .clear => (.done, [])

/-- The answers to one act after the other, and the buffer in the end. -/
def run (c : Codec) (buffer : Bytes) : List Act → List Reply × Bytes
  | [] => ([], buffer)
  | act :: acts =>
    let (reply, buffer) := c.perform buffer act
    let (replies, buffer) := c.run buffer acts
    (reply :: replies, buffer)

/-! ### What they come to -/

/-- What a step is to answer, and to leave in the buffer, by `Frame.encode`, `Frame.decode` and the
limit. -/
inductive Does (limit : Nat) (buffer : Bytes) : Act → Reply → Bytes → Prop where
  | feed (bytes : Bytes) : Does limit buffer (.feed bytes) .done (buffer ++ bytes)
  | clear : Does limit buffer .clear .done []
  /-- There is no frame as long as more may come. -/
  | waits (fits : buffer.length ≤ limit) : Does limit buffer .decode (.decoded (.ok none)) buffer
  | decodeOversized (long : limit < buffer.length) :
      Does limit buffer .decode (.decoded (.error (.oversizedFrame buffer.length))) buffer
  | nothing (empty : buffer = []) : Does limit buffer .decodeEnd (.decoded (.ok none)) []
  | endOversized (long : limit < buffer.length) :
      Does limit buffer .decodeEnd (.decoded (.error (.oversizedFrame buffer.length))) buffer
  /-- All that is in the buffer is used up, also if it is no frame. -/
  | ends (some : buffer ≠ []) (fits : buffer.length ≤ limit) :
      Does limit buffer .decodeEnd (.decoded ((Frame.decode buffer).map Option.some)) []
  | refused {frame : Frame} {e : LinkError}
      (fault : Frame.encode frame.message frame.payload = .error e) :
      Does limit buffer (.append frame) (.appended (.error e)) buffer
  | appendOversized {frame : Frame} {bytes : Bytes}
      (encoded : Frame.encode frame.message frame.payload = .ok bytes)
      (long : limit < bytes.length) :
      Does limit buffer (.append frame) (.appended (.error (.oversizedFrame bytes.length))) buffer
  | appended {frame : Frame} {bytes : Bytes}
      (encoded : Frame.encode frame.message frame.payload = .ok bytes)
      (fits : bytes.length ≤ limit) :
      Does limit buffer (.append frame) (.appended (.ok ())) (buffer ++ bytes)

/-- A chain of steps, each of which `Does` what it is to do. -/
inductive Conforms (limit : Nat) : Bytes → List Act → List Reply → Bytes → Prop where
  | nil (buffer : Bytes) : Conforms limit buffer [] [] buffer
  | cons {buffer next last : Bytes} {act : Act} {acts : List Act} {reply : Reply}
      {replies : List Reply} (first : Does limit buffer act reply next)
      (rest : Conforms limit next acts replies last) :
      Conforms limit buffer (act :: acts) (reply :: replies) last

/-! ### Each step -/

theorem checkSize_of_le {size : Nat} (h : size ≤ c.limit) : c.checkSize size = .ok () :=
  if_neg (Nat.not_lt.2 h)

theorem checkSize_of_lt {size : Nat} (h : c.limit < size) :
    c.checkSize size = .error (.oversizedFrame size) :=
  if_pos h

theorem leadSize_eq (payload : Option Bytes) : leadSize payload = (Frame.lead payload).length := by
  cases payload with
  | none => rfl
  | some p => rw [leadSize, Frame.lead, List.length_append, Delimiter.length_bytes]

/-- `append` adds the encoded frame, if that is not too long. -/
theorem append_eq (c : Codec) (frame : Frame) (buffer : Bytes) : c.append frame buffer =
    match Frame.encode frame.message frame.payload with
    | .error e => (.error e, buffer)
    | .ok bytes =>
      if bytes.length ≤ c.limit then (.ok (), buffer ++ bytes)
      else (.error (.oversizedFrame bytes.length), buffer) := by
  obtain ⟨payload, message⟩ := frame
  -- once the payload is admitted, only the size matters
  have hsized (hpayload : payload.elim (.ok ()) Frame.checkPayload = .ok ()) :
      c.append ⟨payload, message⟩ buffer =
        if (Frame.lead payload ++ message.wire).length ≤ c.limit then
          (.ok (), buffer ++ (Frame.lead payload ++ message.wire))
        else (.error (.oversizedFrame (Frame.lead payload ++ message.wire).length), buffer) := by
    rw [append, hpayload, leadSize_eq]
    dsimp only
    rw [← List.length_append]
    by_cases hle : (Frame.lead payload ++ message.wire).length ≤ c.limit
    · rw [checkSize_of_le hle, if_pos hle]
      cases payload <;> simp [Frame.lead]
    · rw [checkSize_of_lt (Nat.lt_of_not_le hle), if_neg hle]
  cases payload with
  | none => exact hsized rfl
  | some p =>
    rw [Frame.encode]
    cases hpayload : Frame.checkPayload p with
    | ok _ => exact hsized hpayload
    | error e =>
      rw [append]
      simp only [Option.elim_some, hpayload]

theorem does_append (c : Codec) (frame : Frame) (buffer : Bytes) :
    Does c.limit buffer (.append frame) (.appended (c.append frame buffer).1)
      (c.append frame buffer).2 := by
  rw [append_eq]
  cases hencode : Frame.encode frame.message frame.payload with
  | error e => exact .refused hencode
  | ok bytes =>
    dsimp only
    split
    · next hle => exact .appended hencode hle
    · next hlt => exact .appendOversized hencode (Nat.lt_of_not_le hlt)

theorem does_decode (c : Codec) (buffer : Bytes) :
    Does c.limit buffer .decode (.decoded (c.decode buffer)) buffer := by
  rw [decode]
  by_cases hle : buffer.length ≤ c.limit
  · rw [checkSize_of_le hle]
    exact .waits hle
  · rw [checkSize_of_lt (Nat.lt_of_not_le hle)]
    exact .decodeOversized (Nat.lt_of_not_le hle)

theorem decodeEnd_of_le (hne : buffer ≠ []) (hle : buffer.length ≤ c.limit) :
    c.decodeEnd buffer = ((Frame.decode buffer).map some, []) := by
  rw [decodeEnd, if_neg hne, checkSize_of_le hle]
  cases Frame.decode buffer <;> rfl

theorem decodeEnd_of_lt (hlt : c.limit < buffer.length) :
    c.decodeEnd buffer = (.error (.oversizedFrame buffer.length), buffer) := by
  have hne : buffer ≠ [] := List.ne_nil_of_length_pos (Nat.zero_lt_of_lt hlt)
  rw [decodeEnd, if_neg hne, checkSize_of_lt hlt]

theorem does_decodeEnd (c : Codec) (buffer : Bytes) :
    Does c.limit buffer .decodeEnd (.decoded (c.decodeEnd buffer).1) (c.decodeEnd buffer).2 := by
  by_cases hnil : buffer = []
  · rw [decodeEnd, if_pos hnil]
    exact .nothing hnil
  · by_cases hle : buffer.length ≤ c.limit
    · rw [decodeEnd_of_le hnil hle]
      exact .ends hnil hle
    · rw [decodeEnd_of_lt (Nat.lt_of_not_le hle)]
      exact .endOversized (Nat.lt_of_not_le hle)

theorem does_perform (c : Codec) (buffer : Bytes) (act : Act) :
    Does c.limit buffer act (c.perform buffer act).1 (c.perform buffer act).2 := by
  cases act with
  | feed bytes => exact .feed bytes
  | decode => exact c.does_decode buffer
  | decodeEnd => exact c.does_decodeEnd buffer
  | append frame => exact c.does_append frame buffer
  | clear => exact .clear

/-- `perform` answers and leaves what `Does` says. -/
theorem Does.perform_eq {act : Act} {reply : Reply} (h : Does c.limit buffer act reply buffer') :
    c.perform buffer act = (reply, buffer') := by
  cases h with
  | feed bytes => rfl
  | clear => rfl
  | waits fits => simp only [perform, decode, checkSize_of_le fits]
  | decodeOversized long => simp only [perform, decode, checkSize_of_lt long]
  | nothing empty => simp only [perform, decodeEnd, if_pos empty]
  | endOversized long => simp only [perform, decodeEnd_of_lt long]
  | ends some fits => simp only [perform, decodeEnd_of_le some fits]
  | refused fault => simp only [perform, append_eq, fault]
  | appendOversized encoded long =>
    simp only [perform, append_eq, encoded, if_neg (Nat.not_le.2 long)]
  | appended encoded fits => simp only [perform, append_eq, encoded, if_pos fits]

/-! ### Runs -/

theorem run_eq_iff {acts : List Act} {replies : List Reply} :
    c.run buffer acts = (replies, buffer') ↔ Conforms c.limit buffer acts replies buffer' := by
  constructor
  · intro h
    induction acts generalizing buffer replies with
    | nil =>
      cases h
      exact .nil _
    | cons act acts ih =>
      cases h
      exact .cons (c.does_perform buffer act) (ih rfl)
  · intro h
    induction h with
    | nil buffer => rfl
    | cons first _ ih => simp only [run, first.perform_eq, ih]

/-! ### What was appended is decoded -/

/-- `append` succeeds exactly if the payload holds no delimiter and the frame is not too long. -/
theorem append_ok_iff : (c.append frame buffer).1 = .ok () ↔
    (∀ p, frame.payload = some p → ¬ Delimiter.bytes <:+: p) ∧
      ∀ bytes, Frame.encode frame.message frame.payload = .ok bytes → bytes.length ≤ c.limit := by
  rw [append_eq]
  cases hencode : Frame.encode frame.message frame.payload with
  | error e =>
    simp only [reduceCtorEq, false_iff]
    rintro ⟨hpayload, -⟩
    cases hencode.symm.trans (Frame.encode_eq_ok_iff.2 ⟨hpayload, rfl⟩)
  | ok bytes =>
    have hpayload := (Frame.encode_eq_ok_iff.1 hencode).1
    dsimp only
    constructor
    · intro h
      split at h
      · next hle =>
        refine ⟨hpayload, fun bytes' hbytes => ?_⟩
        cases hbytes
        exact hle
      · cases h
    · rintro ⟨-, hle⟩
      rw [if_pos (hle bytes rfl)]

theorem append_ok (h : (c.append frame []).1 = .ok ()) :
    Frame.encode frame.message frame.payload = .ok (c.append frame []).2 ∧
      (c.append frame []).2.length ≤ c.limit := by
  rw [append_eq] at h ⊢
  cases hencode : Frame.encode frame.message frame.payload with
  | error e =>
    rw [hencode] at h
    cases h
  | ok bytes =>
    rw [hencode] at h
    dsimp only at h ⊢
    split at h
    · next hle =>
      rw [if_pos hle]
      exact ⟨rfl, hle⟩
    · cases h

/-- What has been appended to an empty buffer is decoded, once it has ended, as the frame that was
encoded, with its payload and whatever its message is read as. -/
theorem decodeEnd_append (h : (c.append frame []).1 = .ok ()) :
    c.decode (c.append frame []).2 = .ok none ∧
      c.decodeEnd (c.append frame []).2 =
        (((Message.ofBytes frame.message.wire).map (Frame.mk frame.payload)).map some, []) := by
  obtain ⟨hencode, hle⟩ := append_ok h
  obtain ⟨hpayload, hbytes⟩ := Frame.encode_eq_ok_iff.1 hencode
  have hne : (c.append frame []).2 ≠ [] := by
    rw [hbytes]
    exact List.append_ne_nil_of_right_ne_nil _ frame.message.wire_ne_nil
  refine ⟨?_, ?_⟩
  · rw [decode, checkSize_of_le hle]
  · rw [decodeEnd_of_le hne hle, hbytes, Frame.decode_lead_append_wire hpayload]

/-- `Message.ofBytes` does not fail with `oversizedFrame`. -/
theorem ofBytes_ne_oversized (bytes : Bytes) (size : Nat) :
    Message.ofBytes bytes ≠ .error (.oversizedFrame size) := by
  intro h
  unfold Message.ofBytes at h
  split at h
  · cases h
  · split at h <;> cases h

/-- Whatever is done with a buffer, each step is answered, and leaves the buffer, as it follows from
the limit and from what `Frame.encode` and `Frame.decode` say of the frame or the bytes at hand. -/
structure FollowsFrames (c : Codec) : Prop where
  /-- Runs are the chains that `Conforms` allows. -/
  run : ∀ buffer acts replies buffer',
    c.run buffer acts = (replies, buffer') ↔ Conforms c.limit buffer acts replies buffer'
  /-- A frame is appended exactly if its payload holds no delimiter and it is not too long. -/
  append : ∀ frame buffer, (c.append frame buffer).1 = .ok () ↔
    (∀ p, frame.payload = some p → ¬ Delimiter.bytes <:+: p) ∧
      ∀ bytes, Frame.encode frame.message frame.payload = .ok bytes → bytes.length ≤ c.limit
  /-- A frame that was appended to an empty buffer is not too long to be decoded. -/
  admitted : ∀ frame size, (c.append frame []).1 = .ok () →
    c.decode (c.append frame []).2 ≠ .error (.oversizedFrame size) ∧
      (c.decodeEnd (c.append frame []).2).1 ≠ .error (.oversizedFrame size)

theorem follows_frames (c : Codec) : c.FollowsFrames where
  run _ _ _ _ := run_eq_iff
  append _ _ := append_ok_iff
  admitted frame size h := by
    obtain ⟨hdecode, hend⟩ := decodeEnd_append h
    refine ⟨?_, ?_⟩
    · rw [hdecode]
      exact nofun
    · rw [hend]
      have hmessage := ofBytes_ne_oversized frame.message.wire size
      cases hread : Message.ofBytes frame.message.wire with
      | ok m => exact nofun
      | error e =>
        intro heq
        rw [hread] at hmessage
        exact hmessage (congrArg Except.error (Except.error.inj heq))

end RadioLink.Codec
