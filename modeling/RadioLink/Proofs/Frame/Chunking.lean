import RadioLink.Proofs.Frame.Intake

/-!
# Reading does not depend on the sizes of the reads

What a stream yields comes in pieces, one for each read (`Intake.reads`). How large they are depends
on the stream and on the room there is, and has no influence on `Frame.read`: the frame, or why
there is none, follows from the bytes alone, as long as they are not more than `limit`. If they are
more, reading ends with the piece that goes beyond it, and what the stream would do next does not
matter.
-/

namespace RadioLink

/-- A `read` that brings nothing has found nothing left. -/
theorem Script.content_of_read {s : Script} {room : Nat}
    (h : ∀ bytes s', s.read room ≠ (.data bytes, s')) : s.content = [] := by
  obtain ⟨chunks, ending⟩ := s
  match chunks with
  | [] => rfl
  | [] :: rest => simp [content]
  | (b :: bs) :: rest =>
    simp only [read] at h
    split at h
    · exact absurd rfl (h _ _)
    · exact absurd rfl (h _ _)

/-- What comes of `bytes` if nothing more follows: `Frame.decode`, and their number. -/
def ReadOutcome.ofBytes (bytes : Bytes) : ReadOutcome :=
  match Frame.decode bytes with
  | .ok f => .frame f bytes.length
  | .error e => .error e

namespace Intake

/-! ### The pieces -/

/-- Takes in the bytes that a read has brought, however many. -/
def hold (r : Intake) (bytes : Bytes) : Intake :=
  { r with pieces := bytes :: r.pieces, size := r.size + bytes.length }

theorem add_eq (r : Intake) (bytes : Bytes) : r.add bytes =
    if (r.hold bytes).size ≤ r.limit then .ok (r.hold bytes)
    else .error (.oversizedFrame (r.hold bytes).size) := by
  simp only [add, Codec.checkSize, hold]
  by_cases h : r.size + bytes.length ≤ r.limit
  · simp [Nat.not_lt.2 h, h]
  · simp [Nat.lt_of_not_le h, h]

theorem received_hold (r : Intake) (bytes : Bytes) :
    (r.hold bytes).received = r.received ++ bytes := by
  simp [hold, received]

/-- The pieces that the reads of `s` bring, as long as anything comes. -/
def reads (r : Intake) (s : Script) : List Bytes :=
  match _hread : s.read r.reserve.room with
  | (.data bytes, s') => bytes :: (r.reserve.hold bytes).reads s'
  | _ => []
termination_by s.fuel
decreasing_by
  have h := s.reading_read r.room_reserve_pos
  rw [_hread] at h
  cases h with
  | data _ _ _ fuel => exact fuel
  | ended isEnd => cases isEnd

variable {r : Intake} {s s' : Script} {bytes : Bytes}

theorem reads_of_data (h : s.read r.reserve.room = (.data bytes, s')) :
    r.reads s = bytes :: (r.reserve.hold bytes).reads s' := by
  rw [reads]
  split
  · next heq =>
    cases heq.symm.trans h
    rfl
  · next hno => exact absurd h (hno _ _)

theorem reads_of_rest (h : ∀ bytes s', s.read r.reserve.room ≠ (.data bytes, s')) :
    r.reads s = [] := by
  rw [reads]
  split
  · next heq => exact absurd heq (h _ _)
  · rfl

/-- Induction along the reads of a stream: a read brings a piece and the rest is read after it, or
it brings none. -/
theorem reads_induction {P : Intake → Script → Prop}
    (data : ∀ r s bytes s', s.read r.reserve.room = (.data bytes, s') → bytes ≠ [] →
      s.content = bytes ++ s'.content → s'.ends = s.ends → P (r.reserve.hold bytes) s' → P r s)
    (rest : ∀ r s, (∀ bytes s', s.read r.reserve.room ≠ (.data bytes, s')) → P r s)
    (r : Intake) (s : Script) : P r s := by
  induction r, s using reads.induct with
  | case1 r s bytes s' hread ih =>
    have h := s.reading_read r.room_reserve_pos
    rw [hread] at h
    cases h with
    | data hsome hcontent hends => exact data r s bytes s' hread hsome hcontent hends ih
    | ended isEnd => cases isEnd
  | case2 r s hno => exact rest r s hno

/-- The pieces of `reads` joined are the content of `s`. -/
theorem flatten_reads (r : Intake) (s : Script) : (r.reads s).flatten = s.content := by
  induction r, s using reads_induction with
  | data r s bytes s' hread _ hcontent _ ih =>
    rw [reads_of_data hread, List.flatten_cons, ih, hcontent]
  | rest r s hno => rw [reads_of_rest hno, Script.content_of_read hno, List.flatten_nil]

theorem ne_nil_of_mem_reads (r : Intake) (s : Script) : ∀ bytes ∈ r.reads s, bytes ≠ [] := by
  induction r, s using reads_induction with
  | data r s bytes s' hread hsome _ _ ih =>
    rw [reads_of_data hread]
    exact List.forall_mem_cons.2 ⟨hsome, ih⟩
  | rest r s hno =>
    rw [reads_of_rest hno]
    exact nofun

theorem chunk_le_room (r : Intake) : chunk ≤ r.reserve.room := by
  unfold reserve room
  split
  · dsimp only
    omega
  · omega

/-- Chunks that always fit are the pieces of `reads`. -/
theorem reads_eq_chunks (r : Intake) (chunks : List Bytes) (ending : Script.Ending)
    (h : ∀ c ∈ chunks, c ≠ [] ∧ c.length ≤ chunk) : r.reads ⟨chunks, ending⟩ = chunks := by
  induction chunks generalizing r with
  | nil => exact reads_of_rest fun _ _ => by cases ending <;> exact nofun
  | cons c chunks ih =>
    obtain ⟨⟨hne, hle⟩, hrest⟩ := List.forall_mem_cons.1 h
    obtain ⟨b, bs, rfl⟩ := List.exists_cons_of_ne_nil hne
    have hread : Script.read r.reserve.room ⟨(b :: bs) :: chunks, ending⟩
        = (.data (b :: bs), ⟨chunks, ending⟩) := by
      simp only [Script.read]
      rw [if_pos (Nat.le_trans hle r.chunk_le_room)]
    rw [reads_of_data hread, ih _ hrest]

/-! ### What comes of them -/

theorem outcome_of_data (h : s.read r.reserve.room = (.data bytes, s')) : r.outcome s =
    if (r.reserve.hold bytes).size ≤ r.limit then (r.reserve.hold bytes).outcome s'
    else .error (.oversizedFrame (r.reserve.hold bytes).size) := by
  rw [outcome_eq, h]
  dsimp only
  rw [add_eq, limit_reserve]
  by_cases hle : (r.reserve.hold bytes).size ≤ r.limit
  · simp only [if_pos hle]
  · simp only [if_neg hle]

theorem Counts.hold (h : r.Counts) (hle : (r.reserve.hold bytes).size ≤ r.limit) :
    (r.reserve.hold bytes).Counts := by
  have hadd : r.reserve.add bytes = .ok (r.reserve.hold bytes) := by
    rw [add_eq, limit_reserve, if_pos hle]
  exact (h.reserve.add hadd).1

theorem Counts.size_hold (h : r.Counts) (bytes : Bytes) :
    (r.reserve.hold bytes).size = (r.received ++ bytes).length := by
  rw [List.length_append, ← h.size, Intake.hold, size_reserve]

/-- A stream that has ended leaves what has been received. -/
theorem Counts.finish (h : r.Counts) :
    (match r.finish with
      | .ok (f, n) => ReadOutcome.frame f n
      | .error e => .error e) = .ofBytes r.received := by
  have hadmitted := h.admitted
  rw [h.size] at hadmitted
  simp only [Intake.finish, Codec.decodeEnd, Codec.checkSize, ReadOutcome.ofBytes, h.size]
  by_cases hnil : r.received = []
  · simp [hnil, Frame.decode]
  · simp only [if_neg hnil, gt_iff_lt, if_neg (Nat.not_lt.2 hadmitted)]
    cases Frame.decode r.received <;> rfl

/-- As long as the stream brings no more than `limit`, all of it is taken in, up to a read that
brings nothing. -/
theorem Counts.takes_all (h : r.Counts) (hle : (r.received ++ s.content).length ≤ r.limit) :
    ∃ (r' : Intake) (s' : Script),
      r'.Counts ∧ r'.received = r.received ++ s.content ∧ s'.ends = s.ends ∧
      (∀ bytes s'', s'.read r'.reserve.room ≠ (.data bytes, s'')) ∧
      r.outcome s = r'.outcome s' := by
  induction r, s using reads_induction with
  | data r s bytes s' hread _ hcontent hends ih =>
    have hreceived : (r.reserve.hold bytes).received ++ s'.content = r.received ++ s.content := by
      rw [received_hold, received_reserve, hcontent, List.append_assoc]
    have hlimit : (r.reserve.hold bytes).limit = r.limit := limit_reserve r
    have hfits : (r.reserve.hold bytes).size ≤ r.limit := by
      rw [h.size_hold]
      rw [hcontent] at hle
      simp only [List.length_append] at hle ⊢
      omega
    rw [outcome_of_data hread, if_pos hfits, ← hreceived, ← hends]
    exact ih (h.hold hfits) (by rwa [hreceived, hlimit])
  | rest r s hno =>
    exact ⟨r, s, h, by rw [Script.content_of_read hno, List.append_nil], rfl, hno, rfl⟩

/-- The outcome is that of all bytes together, once they have come to an end and are not too many.
-/
theorem Counts.outcome_of_le (h : r.Counts) (hends : s.ends = true)
    (hle : (r.received ++ s.content).length ≤ r.limit) :
    r.outcome s = .ofBytes (r.received ++ s.content) := by
  obtain ⟨r', s', h', hreceived, hends', hno, houtcome⟩ := h.takes_all hle
  have hend : (s'.read r'.reserve.room).1.isEnd = true := by
    have hread := s'.reading_read r'.room_reserve_pos
    generalize s'.read r'.reserve.room = q at hread hno
    cases hread with
    | data => exact absurd rfl (hno _ _)
    | ended isEnd => exact isEnd
    | pending hnot | abort hnot => cases hnot.symm.trans (hends'.trans hends)
  rw [houtcome, outcome_of_isEnd hend, ← hreceived, ← received_reserve]
  exact h'.reserve.finish

/-- A stream that does not come to an end leaves the outcome `silent` or `abort`. -/
theorem Counts.outcome_of_not_ends (h : r.Counts) (hends : s.ends = false)
    (hle : (r.received ++ s.content).length ≤ r.limit) :
    r.outcome s = .silent ∨ r.outcome s = .abort := by
  obtain ⟨r', s', -, -, hends', hno, houtcome⟩ := h.takes_all hle
  rw [houtcome, outcome_eq]
  have hread := s'.reading_read r'.room_reserve_pos
  generalize s'.read r'.reserve.room = q at hread hno
  cases hread with
  | data => exact absurd rfl (hno _ _)
  | ended _ _ hnot => cases hnot.symm.trans (hends'.trans hends)
  | pending => exact .inl rfl
  | abort => exact .inr rfl

/-- The piece that goes beyond the limit is the last one that is read, whatever the stream would do
next. -/
theorem Counts.outcome_of_lt (h : r.Counts) (hlt : r.limit < (r.received ++ s.content).length) :
    ∃ earlier piece later, r.reads s = earlier ++ piece :: later ∧
      (r.received ++ earlier.flatten).length ≤ r.limit ∧
      r.limit < (r.received ++ earlier.flatten ++ piece).length ∧
      r.outcome s = .error (.oversizedFrame (r.received ++ earlier.flatten ++ piece).length) := by
  induction r, s using reads_induction with
  | data r s bytes s' hread _ hcontent _ ih =>
    have hadmitted := h.admitted
    rw [h.size] at hadmitted
    rw [reads_of_data hread, outcome_of_data hread]
    by_cases hfits : (r.reserve.hold bytes).size ≤ r.limit
    · have hreceived : (r.reserve.hold bytes).received = r.received ++ bytes := by
        rw [received_hold, received_reserve]
      have hlimit : (r.reserve.hold bytes).limit = r.limit := limit_reserve r
      rw [hcontent, ← List.append_assoc, ← hreceived, ← hlimit] at hlt
      obtain ⟨earlier, piece, later, hreads, hbefore, hafter, houtcome⟩ := ih (h.hold hfits) hlt
      rw [hreceived, hlimit] at hbefore hafter
      refine ⟨bytes :: earlier, piece, later, ?_, ?_, ?_, ?_⟩
      · rw [hreads, List.cons_append]
      · rwa [List.flatten_cons, ← List.append_assoc]
      · rwa [List.flatten_cons, ← List.append_assoc]
      · rw [if_pos hfits, houtcome, hreceived, List.flatten_cons, ← List.append_assoc]
    · refine ⟨[], bytes, (r.reserve.hold bytes).reads s', rfl, ?_, ?_, ?_⟩
      · simpa using hadmitted
      · rw [h.size_hold] at hfits
        simpa using hfits
      · rw [if_neg hfits, h.size_hold, List.flatten_nil, List.append_nil]
  | rest r s hno =>
    have hadmitted := h.admitted
    rw [Script.content_of_read hno, List.append_nil, ← h.size] at hlt
    omega

end Intake

namespace Frame

/-- `Frame.read` goes by the content of `s`. Of the pieces that it comes in, only the first that
goes beyond the limit is of interest. -/
structure ReadByContent (limit : Nat) (s : Script) : Prop where
  /-- Every read brings something. -/
  some : ∀ piece ∈ (Intake.start limit).reads s, piece ≠ []
  /-- What the reads bring is what the stream yields. -/
  content : ((Intake.start limit).reads s).flatten = s.content
  /-- Chunks for which there is always room are read one by one. -/
  chunks : (∀ c ∈ s.chunks, c ≠ [] ∧ c.length ≤ Intake.chunk) →
    (Intake.start limit).reads s = s.chunks
  /-- A stream that comes to an end is read as the frame that its bytes are. -/
  whole : s.ends = true → s.content.length ≤ limit →
    Frame.read limit s = .ofBytes s.content
  /-- In whatever pieces the same bytes come, and however they end, they are read alike. -/
  alike : s.ends = true → s.content.length ≤ limit →
    ∀ s' : Script, s'.ends = true → s'.content = s.content →
      Frame.read limit s' = Frame.read limit s
  /-- A stream that does not come to an end is waited for. -/
  waits : s.ends = false → s.content.length ≤ limit →
    Frame.read limit s = .silent ∨ Frame.read limit s = .abort
  /-- Reading ends with the first piece beyond the limit, and tells the bytes read by then. -/
  oversized : limit < s.content.length → ∃ earlier piece later,
    (Intake.start limit).reads s = earlier ++ piece :: later ∧
      earlier.flatten.length ≤ limit ∧ limit < (earlier ++ [piece]).flatten.length ∧
      Frame.read limit s = .error (.oversizedFrame (earlier ++ [piece]).flatten.length)
  /-- A fault of the stream is never the answer. -/
  error : ∀ e, Frame.read limit s = .error e → ∀ fault, e ≠ .stream fault

variable {limit : Nat} {s : Script}

theorem read_of_le (hends : s.ends = true) (hle : s.content.length ≤ limit) :
    Frame.read limit s = .ofBytes s.content :=
  (Intake.counts_start limit).outcome_of_le hends hle

theorem read_of_lt (hlt : limit < s.content.length) : ∃ earlier piece later,
    (Intake.start limit).reads s = earlier ++ piece :: later ∧
      earlier.flatten.length ≤ limit ∧ limit < (earlier ++ [piece]).flatten.length ∧
      Frame.read limit s = .error (.oversizedFrame (earlier ++ [piece]).flatten.length) := by
  obtain ⟨earlier, piece, later, hreads, hbefore, hafter, hread⟩ :=
    (Intake.counts_start limit).outcome_of_lt hlt
  have hflatten : (earlier ++ [piece]).flatten = earlier.flatten ++ piece := by simp
  refine ⟨earlier, piece, later, hreads, hbefore, ?_, ?_⟩
  · rw [hflatten]
    exact hafter
  · rw [hflatten]
    exact hread

theorem isFraming_of_read {e : LinkError} (h : Frame.read limit s = .error e) :
    e.isFraming = true := by
  by_cases hle : s.content.length ≤ limit
  · cases hends : s.ends with
    | true =>
      rw [read_of_le hends hle, ReadOutcome.ofBytes] at h
      split at h
      · cases h
      · next hdecode =>
        cases h
        exact Intake.isFraming_of_decode hdecode
    | false =>
      obtain hsilent | habort := (Intake.counts_start limit).outcome_of_not_ends hends hle
      · cases hsilent.symm.trans h
      · cases habort.symm.trans h
  · obtain ⟨_, _, _, -, -, -, hread⟩ := read_of_lt (Nat.lt_of_not_le hle)
    cases hread.symm.trans h
    rfl

/-- **`Frame.read` does not depend on the sizes of the reads**, nor on how the stream ends. -/
theorem read_by_content (limit : Nat) (s : Script) : ReadByContent limit s where
  some := Intake.ne_nil_of_mem_reads _ s
  content := Intake.flatten_reads _ s
  chunks := Intake.reads_eq_chunks _ s.chunks s.ending
  whole := read_of_le
  alike hends hle s' hends' hsame := by
    rw [read_of_le hends hle, read_of_le hends' (by rwa [hsame]), hsame]
  waits := (Intake.counts_start limit).outcome_of_not_ends
  oversized := read_of_lt
  error e he fault heq := by
    have hframing := isFraming_of_read he
    rw [heq] at hframing
    cases hframing

/-- The third of four chunks is too much; the stream would be silent afterwards. -/
example : Frame.read 4 ⟨[[1, 2], [3], [4, 5, 6], [7]], .silent⟩ = .error (.oversizedFrame 6) := by
  rfl

end Frame
end RadioLink
