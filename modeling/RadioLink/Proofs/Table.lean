import Mathlib.Data.Set.Card
import Mathlib.Order.RelClasses
import RadioLink.Table

/-!
# Tables in order

A table made by `insert` and `erase` is `Sorted`: its keys are in order, each once. Its `entries`
are then the pairs that `get?` gives, and `ncard_keys` says that a value stands under as many keys
as it is listed times in `values`.
-/

namespace RadioLink.Table

variable {κ α : Type} [LT κ]

/-- The keys of `t.entries` are in order, each once. -/
def Sorted (t : Table κ α) : Prop := t.entries.Pairwise fun e f => e.1 < f.1

theorem sorted_empty : (∅ : Table κ α).Sorted := .nil

theorem Sorted.nodup [IsStrictTotalOrder κ (· < ·)] {t : Table κ α} (h : t.Sorted) :
    (t.entries.map (·.1)).Nodup := by
  refine List.pairwise_map.2 (h.imp fun hlt heq => ?_)
  rw [heq] at hlt
  exact irrefl _ hlt

variable [DecidableEq κ]

omit [LT κ] in
theorem mem_values_of_get? {t : Table κ α} {k : κ} {a : α} (h : t.get? k = some a) :
    a ∈ t.values := by
  obtain ⟨e, he, rfl⟩ := Option.map_eq_some_iff.1 h
  exact List.mem_map_of_mem (List.mem_of_find?_eq_some he)

omit [LT κ] in
theorem mem_values_of_erase {t : Table κ α} {k : κ} {a : α} (h : a ∈ (t.erase k).values) :
    a ∈ t.values := by
  obtain ⟨e, he, rfl⟩ := List.mem_map.1 h
  exact List.mem_map_of_mem (List.mem_of_mem_filter he)

omit [LT κ] [DecidableEq κ] in
theorem mem_values_of_discard {t : Table κ α} {p : α → Bool} {a : α}
    (h : a ∈ (t.discard p).values) : a ∈ t.values := by
  obtain ⟨e, he, rfl⟩ := List.mem_map.1 h
  exact List.mem_map_of_mem (List.mem_of_mem_filter he)

theorem Sorted.erase {t : Table κ α} (h : t.Sorted) (k : κ) : (t.erase k).Sorted := h.filter _

variable [DecidableLT κ]

theorem mem_insertEntry {k : κ} {a : α} {l : List (κ × α)} {e : κ × α}
    (h : e ∈ insertEntry k a l) : e = (k, a) ∨ e ∈ l := by
  induction l with
  | nil => simpa [insertEntry] using h
  | cons x rest ih =>
    simp only [insertEntry] at h
    split at h
    · exact (List.mem_cons.1 h).imp_right (List.mem_cons_of_mem _)
    · split at h
      · exact List.mem_cons.1 h
      · rcases List.mem_cons.1 h with rfl | h
        · exact .inr List.mem_cons_self
        · exact (ih h).imp_right (List.mem_cons_of_mem _)

theorem mem_values_insert {t : Table κ α} {k : κ} {a b : α} (h : b ∈ (t.insert k a).values) :
    b = a ∨ b ∈ t.values := by
  obtain ⟨e, he, rfl⟩ := List.mem_map.1 h
  rcases mem_insertEntry he with rfl | he
  · exact .inl rfl
  · exact .inr (List.mem_map_of_mem he)

variable [IsStrictTotalOrder κ (· < ·)]

theorem pairwise_insertEntry {k : κ} {a : α} {l : List (κ × α)}
    (h : l.Pairwise fun e f => e.1 < f.1) :
    (insertEntry k a l).Pairwise fun e f => e.1 < f.1 := by
  induction l with
  | nil => simp [insertEntry]
  | cons x rest ih =>
    obtain ⟨hx, hrest⟩ := List.pairwise_cons.1 h
    simp only [insertEntry]
    split
    · next heq => exact List.pairwise_cons.2 ⟨fun e he => heq ▸ hx e he, hrest⟩
    · next hne =>
      split
      · next hlt =>
        refine List.pairwise_cons.2 ⟨fun e he => ?_, h⟩
        rcases List.mem_cons.1 he with rfl | he
        · exact hlt
        · exact IsTrans.trans _ _ _ hlt (hx e he)
      · next hnlt =>
        refine List.pairwise_cons.2 ⟨fun e he => ?_, ih hrest⟩
        rcases mem_insertEntry he with rfl | he
        · exact ((trichotomous_of (· < ·) k x.1).resolve_left hnlt).resolve_left hne
        · exact hx e he

theorem Sorted.insert {t : Table κ α} (h : t.Sorted) (k : κ) (a : α) : (t.insert k a).Sorted :=
  pairwise_insertEntry h

omit [DecidableLT κ] in
/-- The pairs listed are those that `get?` finds. -/
theorem Sorted.mem_entries_iff {t : Table κ α} (h : t.Sorted) {e : κ × α} :
    e ∈ t.entries ↔ t.get? e.1 = some e.2 := by
  simp only [get?, Option.map_eq_some_iff]
  constructor
  · intro hmem
    refine ⟨e, List.find?_eq_some_iff_append.2 ⟨by simp, ?_⟩, rfl⟩
    obtain ⟨as, bs, hl⟩ := List.append_of_mem hmem
    refine ⟨as, bs, hl, fun f hf => ?_⟩
    have hlt : f.1 < e.1 := by
      rw [Sorted, hl] at h
      exact (List.pairwise_append.1 h).2.2 f hf e List.mem_cons_self
    simpa using ne_of_irrefl hlt
  · rintro ⟨f, hf, hfe⟩
    have hkey : f.1 = e.1 := by simpa using List.find?_some hf
    exact Prod.ext hkey hfe ▸ List.mem_of_find?_eq_some hf

omit [DecidableLT κ] in
/-- When `t` has the key `k` more than `u` and agrees with it otherwise, its values are
`a :: u.values`, reordered. -/
theorem Sorted.values_perm {t u : Table κ α} (ht : t.Sorted) (hu : u.Sorted) {k : κ} {a : α}
    (hk : u.get? k = none) (h : ∀ k', t.get? k' = if k = k' then some a else u.get? k') :
    t.values.Perm (a :: u.values) := by
  suffices hentries : t.entries.Perm ((k, a) :: u.entries) from hentries.map Prod.snd
  have hnew : (k, a) ∉ u.entries := by
    rw [hu.mem_entries_iff, hk]
    exact Option.some_ne_none _ ∘ Eq.symm
  refine (List.perm_ext_iff_of_nodup ht.nodup.of_map
    (List.nodup_cons.2 ⟨hnew, hu.nodup.of_map⟩)).2 fun e => ?_
  rw [ht.mem_entries_iff, h, List.mem_cons, hu.mem_entries_iff]
  by_cases hke : k = e.1
  · subst hke
    simp [hk, Prod.ext_iff, eq_comm]
  · simp [hke, Prod.ext_iff, eq_comm]

/-- `insert` puts `a` in place of what stood under `k`. -/
theorem Sorted.values_insert_perm {t : Table κ α} (h : t.Sorted) (k : κ) (a : α) :
    (t.insert k a).values.Perm (a :: (t.erase k).values) :=
  have hk : (t.erase k).get? k = none := by simp
  (h.insert k a).values_perm (h.erase k) hk fun k' => by by_cases hkk : k = k' <;> simp [hkk]

omit [DecidableLT κ] in
/-- `erase` takes out what stands under `k`, if anything does. -/
theorem Sorted.values_erase_perm {t : Table κ α} (h : t.Sorted) (k : κ) :
    t.values.Perm ((t.get? k).toList ++ (t.erase k).values) := by
  cases hk : t.get? k with
  | some a =>
    have hnone : (t.erase k).get? k = none := by simp
    refine h.values_perm (h.erase k) hnone fun k' => ?_
    by_cases hkk : k = k'
    · rw [if_pos hkk, ← hkk, hk]
    · rw [if_neg hkk, get?_erase, if_neg hkk]
  | none =>
    have hall : ∀ e ∈ t.entries, e.1 ≠ k := by simpa [get?] using hk
    have hself : t.entries.filter (fun e => e.1 ≠ k) = t.entries :=
      List.filter_eq_self.2 fun e he => by simpa using hall e he
    rw [values, values, Table.erase, hself]
    exact .refl _

omit [DecidableLT κ] in
/-- The number of keys `k` with `t.get? k = some a` is the number of times `a` occurs in `t.values`.
-/
theorem Sorted.ncard_keys [DecidableEq α] {t : Table κ α} (h : t.Sorted) (a : α) :
    Set.ncard {k | t.get? k = some a} = t.values.count a := by
  have hkeys : {k | t.get? k = some a}
      = ↑((t.entries.filter fun e => e.2 = a).map (·.1)).toFinset := by
    ext k
    simp [h.mem_entries_iff]
  have hnodup : ((t.entries.filter fun e => e.2 = a).map (·.1)).Nodup :=
    h.nodup.sublist (List.filter_sublist.map _)
  rw [hkeys, Set.ncard_coe_finset, List.toFinset_card_of_nodup hnodup, List.length_map, values,
    List.count, List.countP_map, List.countP_eq_length_filter]
  congr 2

end RadioLink.Table
