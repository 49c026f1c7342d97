import Mathlib.Tactic.ByContra
import RadioLink.Frame.Intake

/-!
# What is read from a stream

A frame is read from all that a stream yields up to its end, whatever the chunks, if that is not
more than `Intake.limit`. `Intake.outcome` is the reading with enough fuel, and `outcome_eq` its one
equation; the fuel is not looked at anywhere else.

    Counts.outcome_eq_frame_iff : r.Counts → (r.outcome s = .frame f k ↔ s.ends = true ∧ ..)
-/

namespace RadioLink

/-! ### Streams -/

/-- Whether a read finds the end of a connection: `ended`, or a `fault`, which counts as its end. -/
def ReadResult.isEnd : ReadResult → Bool
  | .ended | .fault _ => true
  | .data _ | .pending | .abort => false

namespace Script

/-- Whether a stream comes to an end, if only by a fault. An empty chunk reads as the end. -/
def ends (s : Script) : Bool :=
  s.chunks.contains [] ||
    match s.ending with
    | .ended | .fault _ => true
    | .silent | .abort => false

/-- A bound on the number of reads that bring something. -/
def fuel (s : Script) : Nat := s.chunks.length + s.chunks.flatten.length

/-- The results of one `read` of `s`: some bytes from the front of its content, the end, or nothing
yet. -/
inductive Reading (s : Script) : ReadResult × Script → Prop where
  | data {bytes : Bytes} {s' : Script} (some : bytes ≠ [])
      (content : s.content = bytes ++ s'.content)
      (ends : s'.ends = s.ends) (fuel : s'.fuel < s.fuel) : Reading s (.data bytes, s')
  | ended {r : ReadResult} {s' : Script} (isEnd : r.isEnd = true) (content : s.content = [])
      (ends : s.ends = true) : Reading s (r, s')
  | pending {s' : Script} (ends : s.ends = false) : Reading s (.pending, s')
  | abort {s' : Script} (ends : s.ends = false) : Reading s (.abort, s')

theorem reading_read (s : Script) {room : Nat} (hroom : 0 < room) : s.Reading (s.read room) := by
  obtain ⟨chunks, ending⟩ := s
  match chunks with
  | [] =>
    cases ending with
    | ended => exact .ended rfl rfl rfl
    | silent => exact .pending rfl
    | abort => exact .abort rfl
    | fault f => exact .ended rfl rfl rfl
  | [] :: rest => exact .ended rfl (by simp [content]) (by simp [ends])
  | (b :: bs) :: rest =>
    simp only [read]
    split
    · refine .data (List.cons_ne_nil b bs) ?_ ?_ ?_
      · simp [content]
      · simp [ends]
      · simp [fuel]
        omega
    · next hlong =>
      have htake : (b :: bs).take room ≠ [] := by
        simp
        omega
      have hdrop : (b :: bs).drop room ≠ [] := by
        simp at hlong ⊢
        omega
      refine .data htake ?_ ?_ ?_
      · simp [content, hdrop, ← List.append_assoc, List.take_append_drop]
      · simp [ends, Ne.symm hdrop]
      · simp [fuel]
        simp at hlong
        omega

end Script

/-! ### Taking bytes in -/

namespace Intake

theorem add_eq_ok_iff {r r' : Intake} {bytes : Bytes} :
    r.add bytes = .ok r' ↔ r.size + bytes.length ≤ r.limit ∧
      r' = { r with pieces := bytes :: r.pieces, size := r.size + bytes.length } := by
  simp only [add, Codec.checkSize]
  by_cases h : r.size + bytes.length ≤ r.limit
  · simp [Nat.not_lt.2 h, h, eq_comm]
  · simp [Nat.lt_of_not_le h, h]

theorem finish_eq_ok_iff {r : Intake} {f : Frame} {k : Nat} :
    r.finish = .ok (f, k) ↔
      r.received.length ≤ r.limit ∧ Frame.decode r.received = .ok f ∧ k = r.size := by
  simp only [finish, Codec.decodeEnd, Codec.checkSize]
  by_cases hnil : r.received = []
  · simp [hnil, Frame.decode]
  · by_cases hle : r.received.length ≤ r.limit
    · simp only [if_neg hnil, gt_iff_lt, if_neg (Nat.not_lt.2 hle), hle, true_and]
      cases Frame.decode r.received <;> simp [eq_comm]
    · simp [hnil, Nat.lt_of_not_le hle, hle]

@[simp] theorem received_reserve (r : Intake) : r.reserve.received = r.received := by
  unfold reserve
  split <;> rfl

@[simp] theorem size_reserve (r : Intake) : r.reserve.size = r.size := by
  unfold reserve
  split <;> rfl

@[simp] theorem limit_reserve (r : Intake) : r.reserve.limit = r.limit := by
  unfold reserve
  split <;> rfl

theorem room_reserve_pos (r : Intake) : 0 < r.reserve.room := by
  unfold reserve room chunk
  split
  · dsimp only
    omega
  · omega

/-! ### Errors -/

theorem isFraming_of_add {r : Intake} {bytes : Bytes} {e : LinkError} (h : r.add bytes = .error e) :
    e.isFraming = true := by
  simp only [add, Codec.checkSize] at h
  split at h
  · next hs =>
    split at hs
    · cases hs
      cases h
      rfl
    · cases hs
  · cases h

theorem isFraming_of_ofBytes {bs : Bytes} {e : LinkError} (h : Message.ofBytes bs = .error e) :
    e.isFraming = true := by
  unfold Message.ofBytes at h
  split at h
  · cases h
    rfl
  · split at h
    · cases h
    · cases h
      rfl

theorem isFraming_of_decode {bs : Bytes} {e : LinkError} (h : Frame.decode bs = .error e) :
    e.isFraming = true := by
  unfold Frame.decode at h
  split at h
  · cases h
    rfl
  · split at h
    · split at h
      · cases h
      · next heq =>
        cases h
        exact isFraming_of_ofBytes heq
    · dsimp only at h
      split at h
      · cases h
        rfl
      · split at h
        · cases h
        · next heq =>
          cases h
          exact isFraming_of_ofBytes heq

theorem isFraming_of_finish {r : Intake} {e : LinkError} (h : r.finish = .error e) :
    e.isFraming = true := by
  simp only [finish, Codec.decodeEnd, Codec.checkSize] at h
  by_cases hnil : r.received = []
  · simp only [if_pos hnil] at h
    cases h
    rfl
  · simp only [if_neg hnil] at h
    by_cases hlt : r.received.length > r.limit
    · simp only [if_pos hlt] at h
      cases h
      rfl
    · simp only [if_neg hlt] at h
      cases hdecode : Frame.decode r.received with
      | ok f => simp [hdecode] at h
      | error e' =>
        rw [hdecode] at h
        cases h
        exact isFraming_of_decode hdecode

/-! ### Reading a frame -/

/-- Reads a frame from `s`, with enough fuel. -/
def outcome (r : Intake) (s : Script) : ReadOutcome := r.run (s.fuel + 1) s

/-- Two runs with more fuel than the stream has reads for are the same. -/
theorem run_eq_run {fuel fuel' : Nat} {r : Intake} {s : Script} (h : s.fuel < fuel)
    (h' : s.fuel < fuel') : r.run fuel s = r.run fuel' s := by
  induction fuel generalizing fuel' r s with
  | zero => omega
  | succ fuel ih =>
    obtain ⟨fuel', rfl⟩ := Nat.exists_eq_succ_of_ne_zero (Nat.ne_zero_of_lt h')
    have hread := s.reading_read r.room_reserve_pos
    simp only [run]
    generalize s.read r.reserve.room = q at hread
    cases hread with
    | data _ _ _ hlt =>
      dsimp only
      split
      · rfl
      · exact ih (by omega) (by omega)
    | @ended res _ hend =>
      cases res with
      | ended | fault => rfl
      | data | pending | abort => cases hend
    | pending => rfl
    | abort => rfl

theorem frame_finish_iff {r : Intake} {f : Frame} {k : Nat} :
    (match r.finish with
      | .ok (f, n) => ReadOutcome.frame f n
      | .error e => .error e) = .frame f k ↔ r.finish = .ok (f, k) := by
  cases r.finish with
  | error e => simp
  | ok p => simp [Prod.ext_iff]

/-- The equation of `outcome`: it goes on after each read that brings something. -/
theorem outcome_eq (r : Intake) (s : Script) :
    r.outcome s =
      match s.read r.reserve.room with
      | (.pending, _) => .silent
      | (.abort, _) => .abort
      | (.ended, _) | (.fault _, _) =>
        match r.reserve.finish with
        | .ok (f, n) => .frame f n
        | .error e => .error e
      | (.data bytes, s) =>
        match r.reserve.add bytes with
        | .error e => .error e
        | .ok r => r.outcome s := by
  have hread := s.reading_read r.room_reserve_pos
  rw [outcome, run]
  generalize s.read r.reserve.room = q at hread
  cases hread with
  | data _ _ _ hlt =>
    dsimp only
    cases r.reserve.add _ with
    | error e => rfl
    | ok r' => exact run_eq_run hlt (Nat.lt_succ_self _)
  | @ended res _ hend =>
    cases res with
    | ended | fault => rfl
    | data | pending | abort => cases hend
  | pending => rfl
  | abort => rfl

theorem outcome_of_isEnd {r : Intake} {s : Script} (h : (s.read r.reserve.room).1.isEnd = true) :
    r.outcome s =
      match r.reserve.finish with
      | .ok (f, n) => .frame f n
      | .error e => .error e := by
  rw [outcome_eq]
  generalize s.read r.reserve.room = q at h
  obtain ⟨res, s'⟩ := q
  cases res with
  | ended | fault => rfl
  | data | pending | abort => cases h

theorem outcome_start (limit : Nat) (s : Script) : (start limit).outcome s = Frame.read limit s :=
  rfl

/-- `r.size` is the number of bytes received, and not more than `r.limit`. -/
structure Counts (r : Intake) : Prop where
  size : r.size = r.received.length
  admitted : r.size ≤ r.limit

theorem counts_start (limit : Nat) : (start limit).Counts := ⟨rfl, Nat.zero_le _⟩

theorem Counts.reserve {r : Intake} (h : r.Counts) : r.reserve.Counts :=
  ⟨by simpa using h.size, by simpa using h.admitted⟩

theorem Counts.add {r r' : Intake} {bytes : Bytes} (h : r.Counts) (hadd : r.add bytes = .ok r') :
    r'.Counts ∧ r'.received = r.received ++ bytes ∧ r'.limit = r.limit := by
  obtain ⟨hle, rfl⟩ := add_eq_ok_iff.1 hadd
  have hsize := h.size
  exact ⟨⟨by simp [received] at hsize ⊢; omega, hle⟩, by simp [received], rfl⟩

/-- **A frame is read exactly from a stream that `ends` before it has yielded too much**, and it is
what `Frame.decode` makes of all of the stream's bytes. -/
theorem Counts.outcome_eq_frame_iff {r : Intake} {s : Script} {f : Frame} {k : Nat}
    (h : r.Counts) : r.outcome s = .frame f k ↔
      s.ends = true ∧ (r.received ++ s.content).length ≤ r.limit ∧
        Frame.decode (r.received ++ s.content) = .ok f ∧ k = (r.received ++ s.content).length := by
  induction hfuel : s.fuel using Nat.strongRecOn generalizing r s with
  | _ fuel ih =>
    have hread := s.reading_read r.room_reserve_pos
    rw [outcome_eq]
    generalize s.read r.reserve.room = q at hread
    cases hread with
    | @data bytes s' hsome hcontent hends hlt =>
      dsimp only
      cases hadd : r.reserve.add bytes with
      | error e =>
        -- too much has come in already
        have hlong : r.limit < (r.received ++ s.content).length := by
          by_contra hle
          have hok : r.reserve.size + bytes.length ≤ r.reserve.limit := by
            rw [hcontent] at hle
            simp only [List.length_append, size_reserve, limit_reserve, h.size] at hle ⊢
            omega
          cases hadd.symm.trans (add_eq_ok_iff.2 ⟨hok, rfl⟩)
        simp only [reduceCtorEq, false_iff]
        rintro ⟨-, hle, -⟩
        omega
      | ok r' =>
        obtain ⟨h', hreceived, hlimit⟩ := h.reserve.add hadd
        rw [received_reserve] at hreceived
        rw [limit_reserve] at hlimit
        dsimp only
        rw [ih s'.fuel (hfuel ▸ hlt) h' rfl, hreceived, hlimit, hcontent, hends,
          List.append_assoc]
    | @ended res s' hend hcontent hends =>
      have hsize := h.size
      cases res with
      | ended | fault =>
        dsimp only
        rw [frame_finish_iff, finish_eq_ok_iff, hcontent]
        simp [hends, hsize]
      | data | pending | abort => cases hend
    | pending hends => simp [hends]
    | abort hends => simp [hends]

end Intake

theorem Frame.read_eq_frame_iff {limit : Nat} {s : Script} {f : Frame} {k : Nat} :
    Frame.read limit s = .frame f k ↔
      s.ends = true ∧ s.content.length ≤ limit ∧ Frame.decode s.content = .ok f ∧
        k = s.content.length :=
  (Intake.counts_start limit).outcome_eq_frame_iff

end RadioLink
