import RadioLink.Proofs.Frame.Outflow

/-!
# Writing does not depend on the sizes of the pieces

However a frame is cut into pieces, and wherever the writer fails, the writer has seen the beginning
of

    payload ++ delimiter ++ message

and all of it exactly if the writing succeeds. While a frame goes out, what the sink has taken and
what is left of the frame make it up (`Outflow.taken_run`); `Sink.Receives` says what becomes of a
sink that is given the rest, in terms of the bytes alone. Whether the payload is at hand or comes
from a stream, and in which chunks, is not seen afterwards.
-/

namespace RadioLink

/-! ### Streams that end -/

namespace Script

/-- Whether the stream comes to its end without a fault. An empty chunk reads as the end. -/
def endsCleanly (s : Script) : Bool := s.chunks.contains [] || decide (s.ending = .ended)

/-- The results of one `read` of a stream that `endsCleanly`. -/
inductive CleanReading (s : Script) : ReadResult × Script → Prop where
  | data {bytes : Bytes} {s' : Script} (some : bytes ≠ []) (ends : s'.endsCleanly = true)
      (fuel : s'.fuel < s.fuel) : CleanReading s (.data bytes, s')
  | ended {s' : Script} : CleanReading s (.ended, s')

theorem endsCleanly_of_data {s s' : Script} {room : Nat} {bytes : Bytes}
    (h : s.read room = (.data bytes, s')) : s'.endsCleanly = s.endsCleanly := by
  obtain ⟨chunks, ending⟩ := s
  match chunks with
  | [] => cases ending <;> cases h
  | [] :: rest => cases h
  | (b :: bs) :: rest =>
    simp only [read] at h
    split at h
    · cases h
      simp [endsCleanly]
    · next hlong =>
      have hdrop : (b :: bs).drop room ≠ [] := by
        simp at hlong ⊢
        omega
      cases h
      simp [endsCleanly, Ne.symm hdrop]

theorem cleanReading_read {s : Script} (h : s.endsCleanly = true) {room : Nat} (hroom : 0 < room) :
    s.CleanReading (s.read room) := by
  have hends : s.ends = true := by
    obtain ⟨chunks, ending⟩ := s
    obtain hmem | rfl : [] ∈ chunks ∨ ending = .ended := by simpa [endsCleanly] using h
    · simp [ends, hmem]
    · simp [ends]
  have hreading := s.reading_read hroom
  generalize hread : s.read room = q at hreading
  cases hreading with
  | data some _ _ fuel => exact .data some ((endsCleanly_of_data hread).trans h) fuel
  | @ended r _ isEnd =>
    cases r with
    | ended => exact .ended
    | fault f =>
      obtain ⟨chunks, ending⟩ := s
      rcases chunks with _ | ⟨_ | ⟨b, bs⟩, rest⟩
      · obtain rfl : ending = .ended := by simpa [endsCleanly] using h
        cases hread
      · cases hread
      · simp only [read] at hread
        split at hread <;> cases hread
    | data | pending | abort => cases isEnd
  | pending hnot | abort hnot => cases hnot.symm.trans hends

end Script

/-! ### Sinks -/

namespace Sink

variable {s s₁ : Sink} {bytes left : Bytes} {written : Nat} {q : WriteOutcome × Sink}

/-- The sink has room for `size` more bytes. -/
def Fits (s : Sink) (size : Nat) : Prop := ∀ room, s.room = some room → size ≤ room

/-- The results of a write of `bytes` to `s`: all of them fit, or as many as there is room for are
taken. -/
inductive Wrote (s : Sink) (bytes : Bytes) : Except StreamFault Unit × Sink → Prop where
  | whole {s₁ : Sink} (fits : s.Fits bytes.length) (taken : s₁.taken = s.taken ++ bytes)
      (room : s₁.room = s.room.map (· - bytes.length))
      (rest : { s₁ with pieces := s.pieces, room := s.room } = s) : Wrote s bytes (.ok (), s₁)
  | cut {s₁ : Sink} {room : Nat} (full : s.room = some room) (lacks : room < bytes.length)
      (taken : s₁.taken = s.taken ++ bytes.take room) (shut : s₁.shut = s.shut) :
      Wrote s bytes (.error s.fault, s₁)

theorem wrote_write (s : Sink) (bytes : Bytes) : s.Wrote bytes (s.write bytes) := by
  obtain ⟨room, fault, shutdownFault, pieces, flushed, shut⟩ := s
  have htaken (piece : Bytes) :
      (piece :: pieces).reverse.flatten = pieces.reverse.flatten ++ piece := by simp
  cases room with
  | none => exact .whole nofun (htaken bytes) rfl rfl
  | some room =>
    simp only [write]
    split
    · next hle =>
      refine .whole (fun _ heq => ?_) (htaken bytes) rfl rfl
      cases heq
      exact hle
    · next hlt => exact .cut rfl (Nat.lt_of_not_le hlt) (htaken (bytes.take room)) rfl

/-- What comes of the sink `s` that is given `left`, flushed and shut down, when `written` bytes
went before. -/
inductive Receives (s : Sink) (left : Bytes) (written : Nat) : WriteOutcome × Sink → Prop where
  | whole {s' : Sink} (fits : s.Fits left.length) (sound : s.shutdownFault = none)
      (taken : s'.taken = s.taken ++ left) (flushed : s'.flushed = true) (shut : s'.shut = true) :
      Receives s left written (.written (written + left.length), s')
  /-- All is taken, but the sink does not shut down. -/
  | unshut {s' : Sink} {fault : StreamFault} (fits : s.Fits left.length)
      (unsound : s.shutdownFault = some fault) (taken : s'.taken = s.taken ++ left)
      (shut : s'.shut = s.shut) : Receives s left written (.error (.stream fault), s')
  | cut {s' : Sink} {room : Nat} (full : s.room = some room) (lacks : room < left.length)
      (taken : s'.taken = s.taken ++ left.take room) (shut : s'.shut = s.shut) :
      Receives s left written (.error (.stream s.fault), s')

/-- `flush` in between makes no difference to what the sink `Receives`. -/
theorem Receives.of_flush (h : s.flush.Receives left written q) : s.Receives left written q := by
  cases h with
  | whole fits sound taken flushed shut => exact .whole fits sound taken flushed shut
  | unshut fits unsound taken shut => exact .unshut fits unsound taken shut
  | cut full lacks taken shut => exact .cut full lacks taken shut

theorem Receives.of_write (hw : s.write bytes = (.ok (), s₁))
    (h : s₁.Receives left (written + bytes.length) q) : s.Receives (bytes ++ left) written q := by
  have hwrote := s.wrote_write bytes
  rw [hw] at hwrote
  cases hwrote with
  | whole fits taken room rest =>
    have hfits (hfits : s₁.Fits left.length) : s.Fits (bytes ++ left).length := by
      intro n hn
      have hle := fits n hn
      have hle' := hfits (n - bytes.length) (by rw [room, hn]; rfl)
      rw [List.length_append]
      omega
    rw [← rest]
    cases h with
    | whole fits' sound taken' flushed shut =>
      rw [Nat.add_assoc, ← List.length_append]
      refine .whole (rest ▸ hfits fits') sound ?_ flushed shut
      rw [taken', taken, ← List.append_assoc]
      rfl
    | unshut fits' unsound taken' shut =>
      refine .unshut (rest ▸ hfits fits') unsound ?_ shut
      rw [taken', taken, ← List.append_assoc]
      rfl
    | @cut _ n full lacks taken' shut =>
      rw [room] at full
      obtain ⟨n', hn', rfl⟩ := Option.map_eq_some_iff.1 full
      have hle := fits n' hn'
      refine .cut hn' ?_ ?_ shut
      · rw [List.length_append]
        omega
      · rw [taken', taken, List.take_append, List.take_of_length_le hle, ← List.append_assoc]
        rfl

end Sink

/-! ### What a sink has seen -/

namespace Outflow

variable {o o' : Outflow} {s : Sink}

theorem remaining_take_length (o : Outflow) :
    o.pending ++ (o.take o.pending.length).remaining = o.remaining := by
  have h := o.remaining_take o.pending.length
  rwa [List.take_length] at h

/-- What a sink has taken after any number of steps is what it had taken and the beginning of
`o.remaining`. -/
theorem taken_run (fuel : Nat) (o : Outflow) (s : Sink) :
    ∃ part, part <+: o.remaining ∧ (o.run fuel s).2.taken = s.taken ++ part := by
  induction fuel generalizing o s with
  | zero => exact ⟨[], List.nil_prefix, (List.append_nil _).symm⟩
  | succ fuel ih =>
    have hstays : ∃ part, part <+: o.remaining ∧ s.taken = s.taken ++ part :=
      ⟨[], List.nil_prefix, (List.append_nil _).symm⟩
    -- a step that takes nothing and leaves `remaining` is passed over
    have hgoes {o' : Outflow} {s' : Sink} (hremaining : o'.remaining = o.remaining)
        (htaken : s'.taken = s.taken) : ∃ part, part <+: o.remaining ∧
          (o'.run fuel s').2.taken = s.taken ++ part := by
      rw [← hremaining, ← htaken]
      exact ih o' s'
    unfold run
    split
    · -- what the sink takes of the piece is the beginning of what is left
      have hwrote := s.wrote_write o.pending
      split
      · next hwrite =>
        rw [hwrite] at hwrote
        cases hwrote with
        | whole _ taken =>
          obtain ⟨part, hpart, heq⟩ := ih (o.take o.pending.length) _
          refine ⟨o.pending ++ part, ?_, ?_⟩
          · rw [← remaining_take_length]
            exact (List.prefix_append_right_inj o.pending).2 hpart
          · rw [heq, taken, List.append_assoc]
      · next hwrite =>
        rw [hwrite] at hwrote
        cases hwrote with
        | @cut _ room _ _ taken =>
          exact ⟨o.pending.take room, (List.take_prefix ..).trans (List.prefix_append ..), taken⟩
    · next hnext => exact hgoes (remaining_next (.inl hnext)).1 rfl
    · next hnext => exact hgoes (remaining_next (.inr (.inl hnext))).1 rfl
    · next hnext =>
      have hremaining := (remaining_next (.inr (.inr hnext))).1
      unfold Sink.shutdown
      split
      · next heq =>
        split at heq <;> cases heq
        exact hgoes hremaining rfl
      · next heq =>
        split at heq <;> cases heq
        exact hstays
    · exact hstays
    · exact hstays
    · exact hstays
    · exact hstays

/-! ### What comes of a sink -/

/-- Whether the payload that is still to come does so without a fault. -/
def Stage.endsCleanly : Stage → Bool
  | .source script => script.endsCleanly
  | _ => true

/-- A bound on the number of steps that are left once the piece being written is out. -/
def Stage.span : Stage → Nat
  | .source script => 2 * script.fuel + 8
  | .delimiter => 7
  | .message => 5
  | .flush => 3
  | .shutdown => 2
  | .done => 1

/-- A bound on the number of steps that are left. -/
def span (o : Outflow) : Nat := (if o.pending = [] then 0 else 1) + o.stage.span

/-- What `next` can be when the payload comes without a fault, with what it does to `span`. -/
inductive CleanTurn (o : Outflow) : Step → Prop where
  | write (some : o.pending ≠ []) : CleanTurn o .write
  | load {o' : Outflow} (clean : o'.stage.endsCleanly = true) (span : o'.span < o.span)
      (early : o'.stage ≠ .shutdown ∧ o'.stage ≠ .done) : CleanTurn o (.load o')
  | flush {o' : Outflow} (clean : o'.stage.endsCleanly = true) (span : o'.span < o.span)
      (early : o'.stage ≠ .done) : CleanTurn o (.flush o')
  | shutdown {o' : Outflow} (stage : o.stage = .shutdown) (stage' : o'.stage = .done)
      (span : o'.span < o.span) : CleanTurn o (.shutdown o')
  | done (stage : o.stage = .done) : CleanTurn o .done

theorem cleanTurn_next (h : o.stage.endsCleanly = true) : o.CleanTurn o.next := by
  obtain ⟨message, pending, stage, written⟩ := o
  unfold next
  split
  · next hpending => exact .write hpending
  · next hpending =>
    obtain rfl : pending = [] := Classical.not_not.1 hpending
    have hpiece (piece : Bytes) : (if piece = [] then 0 else 1) ≤ 1 := by split <;> omega
    cases stage with
    | source source =>
      have hread : source.CleanReading (source.read chunk) := Script.cleanReading_read h (by decide)
      dsimp only
      generalize source.read chunk = q at hread
      cases hread with
      | data some ends fuel =>
        refine .load ends ?_ ⟨nofun, nofun⟩
        simp only [span, Stage.span, if_neg some, if_pos]
        omega
      | ended =>
        refine .flush rfl ?_ nofun
        simp only [span, Stage.span, if_pos]
        omega
    | delimiter | message =>
      refine .load rfl ?_ ⟨nofun, nofun⟩
      have := hpiece Delimiter.bytes
      have := hpiece message
      simp only [span, Stage.span, if_pos]
      omega
    | flush => exact .flush rfl (by simp [span, Stage.span]) nofun
    | shutdown => exact .shutdown rfl rfl (by simp [span, Stage.span])
    | done => exact .done rfl

/-- `s` has been flushed when it is to be shut down, and has shut down when nothing more is to be
done. -/
structure Sequel (o : Outflow) (s : Sink) : Prop where
  clean : o.stage.endsCleanly = true
  flushed : o.stage = .shutdown ∨ o.stage = .done → s.flushed = true
  shut : o.stage = .done → s.shut = true ∧ s.shutdownFault = none

/-- A frame whose payload comes without a fault goes out as far as the sink takes it: the run is
what `Receives` says. -/
theorem receives_run {fuel : Nat} (h : o.Sequel s) (hfuel : o.span ≤ fuel) :
    s.Receives o.remaining o.written (o.run fuel s) := by
  induction fuel generalizing o s with
  | zero =>
    -- every stage is counted as one step at least
    obtain ⟨message, pending, stage, written⟩ := o
    cases stage <;> simp [span, Stage.span] at hfuel
  | succ fuel ih =>
    have hturn := cleanTurn_next h.clean
    unfold run
    generalize hnext : o.next = step at hturn
    cases hturn with
    | write some =>
      have hwrote := s.wrote_write o.pending
      dsimp only
      generalize hwrite : s.write o.pending = q at hwrote
      rw [← remaining_take_length]
      cases hwrote with
      | @whole s₁ fits _ _ rest =>
        refine .of_write hwrite (ih ⟨h.clean, fun hlate => ?_, fun hdone => ?_⟩ ?_)
        · exact (congrArg Sink.flushed rest).trans (h.flushed hlate)
        · exact ⟨(congrArg Sink.shut rest).trans (h.shut hdone).1,
            (congrArg Sink.shutdownFault rest).trans (h.shut hdone).2⟩
        -- the piece is out, so `span` counts one step less
        · have hspent : (o.take o.pending.length).pending = [] := List.drop_length
          have hstage : (o.take o.pending.length).stage = o.stage := rfl
          rw [span, if_neg some] at hfuel
          rw [span, if_pos hspent, hstage]
          omega
      | cut full lacks taken shut =>
        refine .cut full ?_ ?_ shut
        · rw [List.length_append]
          omega
        · rw [taken, List.take_append_of_le_length (Nat.le_of_lt lacks)]
    | load clean span early =>
      obtain ⟨hremaining, hwritten⟩ := remaining_next (.inl hnext)
      rw [← hremaining, ← hwritten]
      exact ih ⟨clean, fun hlate => absurd hlate (not_or.2 early),
        fun hdone => absurd hdone early.2⟩ (by omega)
    | flush clean span early =>
      obtain ⟨hremaining, hwritten⟩ := remaining_next (.inr (.inl hnext))
      rw [← hremaining, ← hwritten]
      exact .of_flush (ih ⟨clean, fun _ => rfl, fun hdone => absurd hdone early⟩ (by omega))
    | @shutdown o' stage stage' span =>
      obtain ⟨hremaining, hwritten⟩ := remaining_next (.inr (.inr hnext))
      have hnothing : o.remaining = [] := by
        have hturn := o.turn_next
        rw [hnext] at hturn
        cases hturn with
        | shutdown remaining => exact remaining
      rw [hnothing] at hremaining ⊢
      -- Nothing is left to be written: what comes of the rest depends on the shutdown alone.
      cases hfault : s.shutdownFault with
      | some fault =>
        have hshut : s.shutdown = (.error fault, s) := by rw [Sink.shutdown, hfault]
        rw [hshut]
        exact .unshut (fun _ _ => Nat.zero_le _) hfault (List.append_nil _).symm rfl
      | none =>
        have hshut : s.shutdown = (.ok (), { s with shut := true }) := by
          rw [Sink.shutdown, hfault]
        rw [hshut]
        have hrest := ih (o := o') (s := { s with shut := true })
          ⟨by rw [stage']; rfl, fun _ => h.flushed (.inl stage), fun _ => ⟨rfl, hfault⟩⟩ (by omega)
        rw [hremaining, hwritten] at hrest
        dsimp only
        generalize o'.run fuel { s with shut := true } = q at hrest
        cases hrest with
        | whole fits sound taken flushed shut => exact .whole fits sound taken flushed shut
        | unshut _ unsound => cases hfault.symm.trans unsound
        | cut _ lacks => cases lacks
    | done stage =>
      have hnothing : o.remaining = [] := by
        have hturn := o.turn_next
        rw [hnext] at hturn
        cases hturn with
        | done remaining => exact remaining
      rw [hnothing]
      exact .whole (fun _ _ => Nat.zero_le _) (h.shut stage).2 (List.append_nil _).symm
        (h.flushed (.inr stage)) (h.shut stage).1

end Outflow

/-! ### Whole frames -/

/-- Whether a payload comes without a fault. One at hand does. -/
def Payload.endsCleanly : Payload → Bool
  | .bytes _ => true
  | .stream source => source.endsCleanly

namespace Frame

/-- What comes of the sink `s` when the frame of `m` and `p` is written to it depends on
`Outflow.frame m p`, and on nothing else. -/
structure WriteByContent (m : Message) (p : Option Payload) (s : Sink) : Prop where
  /-- At any moment the sink has seen the beginning of the frame. -/
  beginning : ∀ o, Outflow.start m p = .ok o → ∀ fuel, (o.run fuel s).2.taken <+: Outflow.frame m p
  /-- A frame goes out as far as the sink takes it, unless its payload is at hand and holds the
  delimiter. -/
  receives : (∀ content, p = some (.bytes content) → ¬ Delimiter.bytes <:+: content) →
    s.Receives (Outflow.frame m p) 0 (Frame.write m p s)
  /-- Such a payload is refused, and the sink left alone. -/
  refused : ∀ content, p = some (.bytes content) → Delimiter.bytes <:+: content →
    ∃ i, Delimiter.find? content = some i ∧
      Frame.write m p s = (.error (.malformedFrame (.delimiterInPayload i)), s)
  /-- The writing succeeds exactly if the sink has taken all bytes, was flushed and has shut down.
  Their number is told. -/
  written : ∀ n, (Frame.write m p s).1 = .written n ↔ n = (Outflow.frame m p).length ∧
    (Frame.write m p s).2.taken = Outflow.frame m p ∧
    (Frame.write m p s).2.flushed = true ∧ (Frame.write m p s).2.shut = true
  /-- In whatever chunks a stream brings the payload, the same comes of it. -/
  alike : ∀ source source', p = some (.stream source) → source'.endsCleanly = true →
    source'.content = source.content →
    (Frame.write m (some (.stream source')) s).1 = (Frame.write m p s).1 ∧
      (Frame.write m (some (.stream source')) s).2.taken = (Frame.write m p s).2.taken ∧
      (Frame.write m (some (.stream source')) s).2.shut = (Frame.write m p s).2.shut
  /-- Without a delimiter in the payload, the bytes are those of `Frame.encode`. -/
  encoded : (∀ q, p = some q → ¬ Delimiter.bytes <:+: q.content) →
    Frame.encode m (p.map (·.content)) = .ok (Outflow.frame m p)

end Frame

theorem Outflow.sequel_start {m : Message} {p : Option Payload} {o : Outflow} (s : Sink)
    (hclean : ∀ q, p = some q → q.endsCleanly = true) (h : start m p = .ok o) :
    o.Sequel s ∧ o.span ≤ o.steps := by
  have hpiece (piece : Bytes) : (if piece = [] then 0 else 1) ≤ 1 := by split <;> omega
  unfold start at h
  split at h
  · cases h
    exact ⟨⟨rfl, by simp, by simp⟩, by simp [span, Stage.span, steps]⟩
  · next source =>
    cases h
    refine ⟨⟨hclean _ rfl, by simp, by simp⟩, ?_⟩
    simp only [span, Stage.span, steps, Script.fuel, if_pos]
    omega
  · next content =>
    split at h
    · cases h
    · cases h
      refine ⟨⟨rfl, by simp, by simp⟩, ?_⟩
      have := hpiece content
      simp only [span, Stage.span, steps]
      omega

/-- What `Receives` says of the outcome, the bytes taken and the shutdown is unique. -/
theorem Sink.Receives.unique {s : Sink} {left : Bytes} {written : Nat} {q q' : WriteOutcome × Sink}
    (h : s.Receives left written q) (h' : s.Receives left written q') :
    q.1 = q'.1 ∧ q.2.taken = q'.2.taken ∧ q.2.shut = q'.2.shut := by
  have hlacks {room : Nat} (fits : s.Fits left.length) (full : s.room = some room) :
      ¬ room < left.length := Nat.not_lt.2 (fits room full)
  cases h with
  | whole fits sound taken flushed shut =>
    cases h' with
    | whole _ _ taken' _ shut' => exact ⟨rfl, taken.trans taken'.symm, shut.trans shut'.symm⟩
    | unshut _ unsound => cases sound.symm.trans unsound
    | cut full lacks => exact absurd lacks (hlacks fits full)
  | unshut fits unsound taken shut =>
    cases h' with
    | whole _ sound => cases sound.symm.trans unsound
    | unshut _ unsound' taken' shut' =>
      cases unsound.symm.trans unsound'
      exact ⟨rfl, taken.trans taken'.symm, shut.trans shut'.symm⟩
    | cut full lacks => exact absurd lacks (hlacks fits full)
  | cut full lacks taken shut =>
    cases h' with
    | whole fits | unshut fits => exact absurd lacks (hlacks fits full)
    | cut full' _ taken' shut' =>
      cases full.symm.trans full'
      exact ⟨rfl, taken.trans taken'.symm, shut.trans shut'.symm⟩

namespace Frame

variable {m : Message} {p : Option Payload} {s : Sink}

theorem exists_start (m : Message)
    (hheld : ∀ content, p = some (.bytes content) → ¬ Delimiter.bytes <:+: content) :
    ∃ o, Outflow.start m p = .ok o := by
  match p with
  | none | some (.stream _) => exact ⟨_, rfl⟩
  | some (.bytes content) =>
    simp only [Outflow.start, checkPayload_eq_ok_iff.2 (hheld content rfl)]
    exact ⟨_, rfl⟩

theorem receives_write (hclean : ∀ q, p = some q → q.endsCleanly = true)
    (hheld : ∀ content, p = some (.bytes content) → ¬ Delimiter.bytes <:+: content) :
    s.Receives (Outflow.frame m p) 0 (Frame.write m p s) := by
  obtain ⟨o, ho⟩ := exists_start m hheld
  obtain ⟨hsequel, hspan⟩ := Outflow.sequel_start s hclean ho
  have hrun := Outflow.receives_run hsequel hspan
  rw [(Outflow.remaining_start ho).1, Outflow.written_start ho] at hrun
  simpa only [Frame.write, ho] using hrun

theorem write_of_isInfix {content : Bytes} (h : Delimiter.bytes <:+: content) (m : Message)
    (s : Sink) :
    ∃ i, Delimiter.find? content = some i ∧
      Frame.write m (some (.bytes content)) s
        = (.error (.malformedFrame (.delimiterInPayload i)), s) := by
  obtain ⟨i, hi⟩ : ∃ i, Delimiter.find? content = some i :=
    Option.ne_none_iff_exists'.1 fun hnone => Delimiter.find?_eq_none_iff.1 hnone h
  exact ⟨i, hi, by simp only [Frame.write, Outflow.start, checkPayload, hi]⟩

/-- **`Frame.write` agrees with `Frame.encode`**, for every payload without a fault and every sink.
-/
theorem write_by_content (m : Message) (p : Option Payload)
    (hclean : ∀ q, p = some q → q.endsCleanly = true) (room : Option Nat) (fault : StreamFault)
    (shutdownFault : Option StreamFault) :
    WriteByContent m p { room, fault, shutdownFault } where
  beginning o ho fuel := by
    obtain ⟨part, hpart, htaken⟩ := o.taken_run fuel { room, fault, shutdownFault }
    rw [(Outflow.remaining_start ho).1] at hpart
    rw [htaken]
    exact hpart
  receives := receives_write hclean
  refused content hp h := by
    subst hp
    exact write_of_isInfix h m _
  written n := by
    by_cases hheld : ∃ content, p = some (.bytes content) ∧ Delimiter.bytes <:+: content
    · obtain ⟨content, rfl, hinfix⟩ := hheld
      obtain ⟨i, -, hwrite⟩ := write_of_isInfix hinfix m { room, fault, shutdownFault }
      simp [hwrite]
    · have hreceives := receives_write (m := m) (s := { room, fault, shutdownFault }) hclean
        fun content hp hinfix => hheld ⟨content, hp, hinfix⟩
      generalize Frame.write m p { room, fault, shutdownFault } = q at hreceives
      cases hreceives with
      | whole fits sound taken flushed shut =>
        -- the count begins at zero, so what is told is the length of the frame
        refine ⟨fun h => ?_, fun h => ?_⟩
        · cases h
          exact ⟨Nat.zero_add _, taken, flushed, shut⟩
        · rw [h.1, Nat.zero_add]
      | unshut fits unsound taken shut => simp [shut]
      | cut full lacks taken shut => simp [shut]
  alike source source' hp hclean' hsame := by
    subst hp
    have hframe :
        Outflow.frame m (some (.stream source')) = Outflow.frame m (some (.stream source)) := by
      simp only [Outflow.frame, Option.map_some, Payload.content, hsame]
    have hfree (source : Script) (content : Bytes)
        (h : some (Payload.stream source) = some (.bytes content)) :
        ¬ Delimiter.bytes <:+: content := by
      cases h
    -- what a sink `Receives` is settled by the frame, and both sources have the same one
    have hother := receives_write (m := m) (p := some (.stream source'))
      (s := { room, fault, shutdownFault }) (fun _ hq => by cases hq; exact hclean') (hfree source')
    rw [hframe] at hother
    exact hother.unique (receives_write hclean (hfree source))
  encoded h := by
    cases p with
    | none => rfl
    | some q =>
      have hencode := encode_some m (h q rfl)
      rwa [← List.append_assoc] at hencode

/-- A stream of three bytes in two chunks, to a writer that has no room for the whole delimiter.
What would come after an empty chunk does not matter. -/
theorem write_by_content_chunks :
    WriteByContent (.ofKind 7 (.ofName "a")) (some (.stream ⟨[[1], [2, 3], [], [4]], .silent⟩))
        { room := some 9, fault := .brokenPipe, shutdownFault := none } ∧
      (Frame.write (.ofKind 7 (.ofName "a")) (some (.stream ⟨[[1], [2, 3], [], [4]], .silent⟩))
        { room := some 9, fault := .brokenPipe, shutdownFault := none }).2.taken
          = [1, 2, 3] ++ Delimiter.bytes.take 6 :=
  ⟨write_by_content (.ofKind 7 (.ofName "a")) (some (.stream ⟨[[1], [2, 3], [], [4]], .silent⟩))
    (by rintro q ⟨⟩; rfl) (some 9) .brokenPipe none, by decide +kernel⟩

end Frame
end RadioLink
