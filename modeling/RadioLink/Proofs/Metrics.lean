import RadioLink.Metrics

/-!
# Adding counters up

`count e` adds the counters of `e`, whatever has been counted before: `foldl_count` says that
counting `cs` from `m` gives `m + total cs`. So the difference of the counters before and after is
the `total` of what was counted in between, and `total_perm` frees it from the order.
-/

namespace RadioLink.Metrics

/-- `f` applied to each counter of `m` and `d`. -/
def zip (f : UInt64 → UInt64 → UInt64) (m d : Metrics) : Metrics where
  connectAttempts := f m.connectAttempts d.connectAttempts
  connectFailures := f m.connectFailures d.connectFailures
  connectionsAccepted := f m.connectionsAccepted d.connectionsAccepted
  framesSent := f m.framesSent d.framesSent
  framesReceived := f m.framesReceived d.framesReceived
  bytesSent := f m.bytesSent d.bytesSent
  bytesReceived := f m.bytesReceived d.bytesReceived
  sendFailures := f m.sendFailures d.sendFailures
  framingErrors := f m.framingErrors d.framingErrors
  decryptionFailures := f m.decryptionFailures d.decryptionFailures
  routingFailures := f m.routingFailures d.routingFailures
  announcementsSent := f m.announcementsSent d.announcementsSent
  sessionsAccepted := f m.sessionsAccepted d.sessionsAccepted
  sessionsLost := f m.sessionsLost d.sessionsLost

instance : Add Metrics := ⟨zip (· + ·)⟩

instance : Sub Metrics := ⟨zip (· - ·)⟩

/-- What counting `cs` adds: the counters after `cs`, starting from `{}`. -/
def total (cs : List Counted) : Metrics := cs.foldl Metrics.count {}

theorem framesSent_add (m d : Metrics) : (m + d).framesSent = m.framesSent + d.framesSent := rfl

theorem bytesSent_add (m d : Metrics) : (m + d).bytesSent = m.bytesSent + d.bytesSent := rfl

theorem sendFailures_add (m d : Metrics) :
    (m + d).sendFailures = m.sendFailures + d.sendFailures := rfl

theorem add_empty (m : Metrics) : m + {} = m := by
  show zip _ m {} = m
  simp only [zip, UInt64.add_zero]

theorem empty_add (m : Metrics) : {} + m = m := by
  show zip _ {} m = m
  simp only [zip, UInt64.zero_add]

theorem add_assoc (m d e : Metrics) : m + d + e = m + (d + e) := by
  show zip _ (zip _ m d) e = zip _ m (zip _ d e)
  simp only [zip, UInt64.add_assoc]

theorem add_comm (m d : Metrics) : m + d = d + m := by
  show zip _ m d = zip _ d m
  simp only [zip, UInt64.add_comm]

theorem add_sub_cancel_left (m d : Metrics) : m + d - m = d := by
  have hfield (x y : UInt64) : x + y - x = y := by rw [UInt64.add_comm, UInt64.add_sub_cancel]
  show zip _ (zip _ m d) m = d
  simp only [zip, hfield]

theorem sub_self (m : Metrics) : m - m = {} := by
  show zip _ m m = _
  simp [zip]

theorem add_left_cancel {m d e : Metrics} (h : m + d = m + e) : d = e := by
  rw [← add_sub_cancel_left m d, h, add_sub_cancel_left]

theorem count_add (m d : Metrics) (c : Counted) : (m + d).count c = m + d.count c := by
  show (zip _ m d).count c = zip _ m (d.count c)
  cases c <;> simp only [zip, count, UInt64.add_assoc]

/-- Counting `cs` from `m` adds `total cs`. -/
theorem foldl_count (m : Metrics) (cs : List Counted) :
    cs.foldl Metrics.count m = m + total cs := by
  have hfold (d : Metrics) : cs.foldl Metrics.count (m + d) = m + cs.foldl Metrics.count d := by
    induction cs generalizing d with
    | nil => rfl
    | cons c cs ih => rw [List.foldl_cons, List.foldl_cons, count_add, ih]
  rw [total, ← hfold, add_empty]

theorem total_append (cs ds : List Counted) : total (cs ++ ds) = total cs + total ds := by
  rw [total, List.foldl_append, foldl_count]
  rfl

theorem total_concat (cs : List Counted) (c : Counted) :
    total (cs ++ [c]) = (total cs).count c := by
  rw [total, List.foldl_append]
  rfl

theorem total_cons (c : Counted) (cs : List Counted) : total (c :: cs) = (total cs).count c := by
  have happend : total (c :: cs) = total [c] + total cs := total_append [c] cs
  rw [happend, add_comm, ← total_append, total_concat]

theorem count_comm (m : Metrics) (c d : Counted) : (m.count c).count d = (m.count d).count c := by
  have hpair (c d : Counted) : (m.count c).count d = m + (total [c] + total [d]) := by
    rw [← total_append, ← foldl_count]
    rfl
  rw [hpair, add_comm (total [c]), ← hpair]

/-- `total` does not depend on the order. -/
theorem total_perm {cs ds : List Counted} (h : cs.Perm ds) : total cs = total ds := by
  induction h with
  | nil => rfl
  | cons c _ ih => rw [total_cons, ih, total_cons]
  | swap c d cs => rw [total_cons, total_cons, count_comm, ← total_cons, ← total_cons]
  | trans _ _ ih ih' => exact ih.trans ih'

theorem foldl_count_sub (m : Metrics) (cs : List Counted) :
    cs.foldl Metrics.count m - m = total cs := by
  rw [foldl_count, add_sub_cancel_left]

end RadioLink.Metrics
