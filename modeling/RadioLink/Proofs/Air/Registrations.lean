import RadioLink.Proofs.Air.Matching
import RadioLink.Proofs.Air.Places

/-!
# Which endpoints are registered

Where an endpoint leads can be told from what has been done: to the listener that was opened there
last, unless that listener was closed or the radio was switched off since.

    air.registration? a e = some id ↔
      ∃ later, Latest acts a e id later ∧ .close id ∉ later

As every listener has a number of its own (`Opened.unique`), closing an older one does not matter to
a newer one, and one that was replaced is never found again (`Air.Consistent`).
-/

namespace RadioLink.Air

/-- The listener to which the endpoint `e` of `a` leads. -/
def registration? (air : Air) (a : Address) (e : Endpoint) : Option Nat :=
  ((air.radio a).endpoints.find? (·.1 = e)).map (·.2)

variable {air : Air} {acts before later : List Act} {a b : Address} {e : Endpoint} {id : Nat}
  {x : Act}

/-! ### Endpoints are registered once -/

/-- No endpoint of a radio leads to two listeners. -/
def Single (air : Air) : Prop :=
  ∀ a e id id', (e, id) ∈ (air.radio a).endpoints → (e, id') ∈ (air.radio a).endpoints → id = id'

theorem Single.perform (h : air.Single) (x : Act) : (air.perform x).Single := by
  intro a e id id' hid hid'
  obtain ⟨hopens, hnew⟩ | ⟨hold, hnot, -⟩ := mem_endpoints_perform.1 hid
  · obtain ⟨-, hnew'⟩ | ⟨-, hnot', -⟩ := mem_endpoints_perform.1 hid'
    · rw [hnew, hnew']
    · exact absurd hopens hnot'
  · obtain ⟨hopens', -⟩ | ⟨hold', -⟩ := mem_endpoints_perform.1 hid'
    · exact absurd hopens' hnot
    · exact h a e id id' hold hold'

theorem Single.registration?_eq_some_iff (h : air.Single) :
    air.registration? a e = some id ↔ (e, id) ∈ (air.radio a).endpoints := by
  rw [registration?, Option.map_eq_some_iff]
  constructor
  · rintro ⟨⟨e', _⟩, hfind, rfl⟩
    have he : e' = e := by simpa using List.find?_some hfind
    exact he ▸ List.mem_of_find?_eq_some hfind
  · intro hmem
    obtain ⟨⟨e', id'⟩, hfind⟩ := Option.isSome_iff_exists.1
      (List.find?_isSome.2 ⟨(e, id), hmem, by simp⟩ :
        ((air.radio a).endpoints.find? (·.1 = e)).isSome = true)
    have he : e' = e := by simpa using List.find?_some hfind
    have hid' : (e, id') ∈ (air.radio a).endpoints := he ▸ List.mem_of_find?_eq_some hfind
    exact ⟨_, hfind, h a e id' id hid' hmem⟩

/-! ### Radios at any time -/

/-- What every act keeps of radios and of what is registered there. -/
structure Regular (air : Air) : Prop where
  orderly : air.Orderly
  leads : air.Leads
  single : air.Single
  numbered : ∀ a e id, (e, id) ∈ (air.radio a).endpoints → id ≤ air.opened
  off : ∀ a, (air.radio a).enabled = false → (air.radio a).endpoints = []
  bonds : ∀ a b, air.isBonded a b = true → air.isBonded b a = true

theorem regular_empty : ({} : Air).Regular where
  orderly := orderly_empty
  leads := leads_empty
  single _ _ _ _ h := nomatch h
  numbered _ _ _ h := nomatch h
  off _ _ := rfl
  bonds _ _ h := nomatch h

theorem Regular.perform (h : air.Regular) (x : Act) : (air.perform x).Regular := by
  constructor
  case orderly => exact h.orderly.perform x
  case leads => exact h.leads.perform h.orderly x
  case single => exact h.single.perform x
  case numbered =>
    intro a e id hmem
    have hplace := h.leads.perform h.orderly x a e id hmem
    exact (h.orderly.perform x).numbered id (hplace ▸ Option.some_ne_none (a, e))
  case off =>
    intro a hoff
    refine List.eq_nil_iff_forall_not_mem.2 fun ⟨e, id⟩ hmem => ?_
    have hnot : ¬ ((air.perform x).radio a).enabled = true := by simp [hoff]
    rw [enabled_perform_iff, not_or, not_and, not_not] at hnot
    obtain ⟨⟨rfl, hon⟩, -⟩ | ⟨hold, -, hstays, -⟩ := mem_endpoints_perform.1 hmem
    · cases hnot.2 hon
    · -- a radio with an endpoint was on, and has been switched off only now
      refine hstays (hnot.2 (Bool.not_eq_false _ ▸ fun hbefore => ?_))
      rw [h.off a hbefore] at hold
      cases hold
  case bonds =>
    intro a b hbond
    rw [isBonded_perform] at hbond ⊢
    obtain hmade | ⟨hold, hkept, hkept'⟩ := hbond
    · exact .inl hmade.symm
    · exact .inr ⟨h.bonds a b hold, hkept', hkept⟩

theorem regular_history (acts : List Act) : (history acts).2.Regular := by
  induction acts using List.reverseRecOn with
  | nil => exact regular_empty
  | append_singleton acts x ih =>
    rw [history_append]
    exact ih.perform x

/-! ### What has been opened -/

/-- Among `acts`, a listener was opened at the endpoint `e` of `a` under the number `id`, and
`later` are the acts since. -/
def Opened (acts : List Act) (a : Address) (e : Endpoint) (id : Nat) (later : List Act) : Prop :=
  ∃ before, acts = before ++ .listen a e :: later ∧ ((history before).2.listen a e).1 = .ok id

/-- `Opened`, and among the `later` acts no other listener was opened there and the radio was not
switched off. -/
structure Latest (acts : List Act) (a : Address) (e : Endpoint) (id : Nat) (later : List Act) :
    Prop where
  opened : Opened acts a e id later
  last : ∀ id' later', Opened acts a e id' later' → later.length ≤ later'.length
  on : .switchOff a ∉ later

theorem listen_eq_ok_iff :
    (air.listen a e).1 = .ok id ↔ (air.radio a).enabled = true ∧ id = air.opened + 1 := by
  by_cases hon : (air.radio a).enabled = true
  · have hfst : (air.listen a e).1 = .ok (air.opened + 1) := congrArg Prod.fst (if_pos hon)
    rw [hfst]
    simp [hon, eq_comm]
  · have hfst : (air.listen a e).1 = .error .radioDisabled := congrArg Prod.fst (if_neg hon)
    rw [hfst]
    simp [hon]

theorem Opened.id_le (h : Opened acts a e id later) : id ≤ (history acts).2.opened := by
  obtain ⟨before, rfl, hlisten⟩ := h
  obtain ⟨-, rfl⟩ := listen_eq_ok_iff.1 hlisten
  rw [history_eq_foldl, List.foldl_cons]
  refine Nat.le_trans ?_ (opened_le_foldl _ later)
  show _ ≤ ((history before).2.listen a e).2.opened
  unfold listen
  dsimp only
  split <;> exact Nat.le_refl _

/-- With one more act `x`, what was `Opened` is what `x` opens and what was opened before. -/
theorem opened_concat : Opened (acts ++ [x]) a e id later ↔
    later = [] ∧ x.Opens (history acts).2 a e ∧ id = (history acts).2.opened + 1 ∨
      ∃ later', later = later' ++ [x] ∧ Opened acts a e id later' := by
  constructor
  · rintro ⟨before, heq, hlisten⟩
    rcases List.eq_nil_or_concat later with rfl | ⟨later, y, rfl⟩
    · obtain ⟨rfl, rfl⟩ := List.append_singleton_inj.1 heq
      obtain ⟨hon, hid⟩ := listen_eq_ok_iff.1 hlisten
      exact .inl ⟨rfl, ⟨rfl, hon⟩, hid⟩
    · rw [List.concat_eq_append, ← List.cons_append, ← List.append_assoc] at heq
      obtain ⟨rfl, rfl⟩ := List.append_singleton_inj.1 heq
      exact .inr ⟨later, List.concat_eq_append, before, rfl, hlisten⟩
  · rintro (⟨rfl, ⟨rfl, hon⟩, hid⟩ | ⟨later', rfl, before, rfl, hlisten⟩)
    · exact ⟨acts, rfl, listen_eq_ok_iff.2 ⟨hon, hid⟩⟩
    · exact ⟨before, by simp, hlisten⟩

/-- A number is `Opened` once. -/
theorem Opened.unique {a' : Address} {e' : Endpoint} {later' : List Act}
    (h : Opened acts a e id later) (h' : Opened acts a' e' id later') :
    a = a' ∧ e = e' ∧ later = later' := by
  induction acts using List.reverseRecOn generalizing later later' with
  | nil =>
    obtain ⟨before, heq, -⟩ := h
    simp at heq
  | append_singleton acts x ih =>
    obtain ⟨rfl, hx, hid⟩ | ⟨rest, rfl, hrest⟩ := opened_concat.1 h
    · obtain ⟨rfl, hx', -⟩ | ⟨rest', rfl, hrest'⟩ := opened_concat.1 h'
      · cases hx.1.symm.trans hx'.1
        exact ⟨rfl, rfl, rfl⟩
      · -- the number was still free
        have hle := hrest'.id_le
        omega
    · obtain ⟨rfl, -, hid'⟩ | ⟨rest', rfl, hrest'⟩ := opened_concat.1 h'
      · have hle := hrest.id_le
        omega
      · obtain ⟨ha, he, rfl⟩ := ih hrest hrest'
        exact ⟨ha, he, rfl⟩

/-! ### What is in force -/

/-- `Latest`, and not closed since. -/
def InForce (acts : List Act) (a : Address) (e : Endpoint) (id : Nat) : Prop :=
  ∃ later, Latest acts a e id later ∧ .close id ∉ later

theorem inForce_concat : InForce (acts ++ [x]) a e id ↔
    x.Opens (history acts).2 a e ∧ id = (history acts).2.opened + 1 ∨
      InForce acts a e id ∧ ¬ x.Opens (history acts).2 a e ∧ x ≠ .switchOff a ∧ x ≠ .close id := by
  constructor
  · rintro ⟨later, ⟨hopened, hlast, hon⟩, hclose⟩
    obtain ⟨rfl, hx, hid⟩ | ⟨later', rfl, hbefore⟩ := opened_concat.1 hopened
    · exact .inl ⟨hx, hid⟩
    rw [List.mem_append, List.mem_singleton, not_or] at hon hclose
    refine .inr ⟨⟨later', ⟨hbefore, fun id' rest hrest => ?_, hon.1⟩, hclose.1⟩, fun hx => ?_,
      Ne.symm hon.2, Ne.symm hclose.2⟩
    · have hle := hlast id' _ (opened_concat.2 (.inr ⟨rest, rfl, hrest⟩))
      rw [List.length_append, List.length_append] at hle
      exact Nat.le_of_add_le_add_right hle
    · have hle := hlast _ [] (opened_concat.2 (.inl ⟨rfl, hx, rfl⟩))
      rw [List.length_append] at hle
      exact absurd hle (Nat.not_succ_le_zero _)
  · rintro (⟨hx, hid⟩ | ⟨⟨later, ⟨hopened, hlast, hon⟩, hclose⟩, hx, hoff, hkept⟩)
    · exact ⟨[], ⟨opened_concat.2 (.inl ⟨rfl, hx, hid⟩), fun _ _ _ => Nat.zero_le _, nofun⟩, nofun⟩
    refine ⟨later ++ [x], ⟨opened_concat.2 (.inr ⟨later, rfl, hopened⟩), fun id' rest hrest => ?_,
      ?_⟩, ?_⟩
    · obtain ⟨-, hopens, -⟩ | ⟨rest', rfl, hrest'⟩ := opened_concat.1 hrest
      · exact absurd hopens hx
      · rw [List.length_append, List.length_append]
        exact Nat.add_le_add_right (hlast id' rest' hrest') _
    · rw [List.mem_append, List.mem_singleton, not_or]
      exact ⟨hon, Ne.symm hoff⟩
    · rw [List.mem_append, List.mem_singleton, not_or]
      exact ⟨hclose, Ne.symm hkept⟩

theorem mem_endpoints_history :
    (e, id) ∈ ((history acts).2.radio a).endpoints ↔ InForce acts a e id := by
  induction acts using List.reverseRecOn generalizing id with
  | nil =>
    refine iff_of_false (fun hmem => nomatch hmem) ?_
    rintro ⟨later, ⟨⟨before, heq, -⟩, -⟩, -⟩
    simp at heq
  | append_singleton acts x ih =>
    rw [history_append, mem_endpoints_perform, inForce_concat, ← ih]
    refine or_congr_right (and_congr_right fun hmem => and_congr_right fun _ =>
      and_congr_right fun _ => ?_)
    -- what is registered is open there, so closing it has an effect there
    have hplace := (regular_history acts).leads a e id hmem
    simp [hplace]

/-- A known number that does not stand for the endpoint never comes to stand for it. -/
theorem not_mem_endpoints_foldl (hid : id ≤ air.opened)
    (hnot : (e, id) ∉ (air.radio a).endpoints) (more : List Act) :
    (e, id) ∉ ((more.foldl perform air).radio a).endpoints := by
  induction more generalizing air with
  | nil => exact hnot
  | cons x more ih =>
    refine ih (Nat.le_trans hid (air.opened_le_perform x)) fun hmem => ?_
    obtain ⟨-, hnew⟩ | ⟨hold, -⟩ := mem_endpoints_perform.1 hmem
    · omega
    · exact hnot hold

/-! ### The air at any time -/

/-- What holds of the air after `acts`. -/
structure Consistent (acts : List Act) (air : Air) : Prop where
  /-- Bonds are mutual. -/
  bonds : ∀ a b, air.isBonded a b = air.isBonded b a
  /-- Nothing is registered with a radio that is off. -/
  off : ∀ a, (air.radio a).enabled = false → (air.radio a).endpoints = []
  /-- A number stands for one listener only. -/
  numbers : ∀ a e id later a' e' later', Opened acts a e id later → Opened acts a' e' id later' →
    a = a' ∧ e = e' ∧ later = later'
  /-- `registration?` finds the listener that was opened there last since the radio was switched
  off, unless that one was closed. -/
  registered : ∀ a e id, air.registration? a e = some id ↔
    ∃ later, Latest acts a e id later ∧ .close id ∉ later
  /-- Closing a listener leaves all others registered. -/
  others : ∀ a e id id', air.registration? a e = some id → id' ≠ id →
    (air.perform (.close id')).registration? a e = some id
  /-- A listener that is registered no more never is again. -/
  replaced : ∀ a e id later, Opened acts a e id later → air.registration? a e ≠ some id →
    ∀ more, (history (acts ++ more)).2.registration? a e ≠ some id

/-- **The air is `Consistent`.** Whatever has been done to radios, listeners and links, and in which
order. -/
theorem consistent_history (acts : List Act) : Consistent acts (history acts).2 := by
  have h := regular_history acts
  constructor
  case bonds =>
    intro a b
    exact Bool.eq_iff_iff.2 ⟨h.bonds a b, h.bonds b a⟩
  case off => exact h.off
  case numbers =>
    intro a e id later a' e' later' hopened hopened'
    exact hopened.unique hopened'
  case registered =>
    intro a e id
    rw [h.single.registration?_eq_some_iff]
    exact mem_endpoints_history
  case others =>
    intro a e id id' hid hne
    rw [h.single.registration?_eq_some_iff] at hid
    rw [(h.perform (.close id')).single.registration?_eq_some_iff]
    refine mem_endpoints_perform.2 (.inr ⟨hid, fun hx => ?_, nofun, fun hx => ?_⟩)
    · cases hx.1
    · cases hx.1
      exact hne rfl
  case replaced =>
    intro a e id later hopened hnot more
    rw [Ne, h.single.registration?_eq_some_iff] at hnot
    rw [Ne, (regular_history _).single.registration?_eq_some_iff, history_eq_foldl]
    exact not_mem_endpoints_foldl hopened.id_le hnot more

/-- A listener takes the place of another, which is then closed. -/
theorem consistent_history_replaced :
    let a : Address := ⟨#v[2, 0, 0, 0, 0, 1]⟩
    let acts : List Act := [.switchOn a, .listen a (.channel 7), .listen a (.channel 7)]
    (history acts).2.registration? a (.channel 7) = some 2 ∧
      ((history acts).2.perform (.close 1)).registration? a (.channel 7) = some 2 ∧
      ∀ more, (history (acts ++ more)).2.registration? a (.channel 7) ≠ some 1 := by
  intro a acts
  have h := consistent_history acts
  have hsecond : (history acts).2.registration? a (.channel 7) = some 2 := by decide
  have hfirst : Opened acts a (.channel 7) 1 [.listen a (.channel 7)] := ⟨[.switchOn a], rfl, rfl⟩
  refine ⟨hsecond, h.others _ _ 2 1 hsecond (by decide), h.replaced _ _ 1 _ hfirst ?_⟩
  rw [hsecond]
  decide

end RadioLink.Air
