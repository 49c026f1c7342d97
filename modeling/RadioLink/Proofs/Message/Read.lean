import RadioLink.Frame.Basic
import RadioLink.Proofs.Json.Balanced
import RadioLink.Proofs.Utf8

/-!
# What is read as a message

A text that is read as a message is balanced: it ends outside all literals with every bracket
closed. The message has a type that is `Canonical` and not blank, and carries no payload, in
whatever order and form its members stood in the text:

    scan_of_ofBytes  : ofBytes bs = .ok m → ∃ cs, bs = ofChars cs ∧ scan start cs = some start
    inv_of_ofBytes   : ofBytes bs = .ok m → Inv m
-/

namespace RadioLink

open Json Json.Reader Text.Reader

variable {α β σ : Type}

/-! ### Balanced messages -/

theorem Transfer.balanced_reader : Balanced Transfer.reader := by
  refine balanced_record (fun d => ?_) ?_ _
  · refine (scans_members (fun s name => ?_) none d).bind fun channel => ?_
    · split
      · exact (balanced_field balanced_uint8 _ _).bind fun _ => balanced_pure _
      · exact balanced_skippedField.bind fun _ => balanced_pure _
    · exact ((balanced_required _ _).bind fun _ => balanced_pure _) d
  · exact (balanced_element balanced_uint8 _ _).bind fun _ => balanced_pure _

namespace Message

theorem balanced_bodyReader : Balanced bodyReader := balanced_textObject _ _

theorem balanced_payloadSizeReader : Balanced payloadSizeReader := balanced_orNull balanced_uint64

theorem balanced_transferReader : Balanced transferReader :=
  balanced_orNull Transfer.balanced_reader

theorem balanced_kindReader : Balanced kindReader := balanced_checkedText _

theorem balanced_member (d : Draft) (name : String) : Balanced (d.member name) := by
  unfold Draft.member
  split
  · exact (balanced_field balanced_int64 _ _).bind fun _ => balanced_pure _
  split
  · exact (balanced_field balanced_kindReader _ _).bind fun _ => balanced_pure _
  split
  · exact (balanced_field balanced_bodyReader _ _).bind fun _ => balanced_pure _
  split
  · exact (balanced_field balanced_payloadSizeReader _ _).bind fun _ => balanced_pure _
  split
  · exact (balanced_field balanced_transferReader _ _).bind fun _ => balanced_pure _
  · exact balanced_skippedField.bind fun _ => balanced_pure _

theorem balanced_finish (d : Draft) : Balanced d.finish :=
  (balanced_required _ _).bind fun _ => (balanced_required _ _).bind fun _ => balanced_pure _

theorem balanced_reader : Balanced reader := by
  refine balanced_record (fun d => ?_) ?_ _
  · exact (scans_members balanced_member {} d).bind fun draft => balanced_finish draft d
  · refine (balanced_element balanced_int64 _ _).bind fun id => ?_
    refine (balanced_element balanced_kindReader _ _).bind fun kind => ?_
    refine (balanced_elementOr balanced_bodyReader _).bind fun body => ?_
    refine (balanced_elementOr balanced_payloadSizeReader _).bind fun payloadSize => ?_
    exact (balanced_elementOr balanced_transferReader _).bind fun transfer => balanced_pure _

end Message

/-! ### Values with a property -/

theorem Json.yields_field {r : Json.Reader α} {p : α → Prop} (h : Yields r p) (name : String)
    (seen : Option β) : Yields (field name seen r) p := by
  unfold field
  split
  · exact yields_fail _
  · exact yields_bind_right _ fun _ => h

theorem Json.yields_element {r : Json.Reader α} {p : α → Prop} (h : Yields r p) (index : Nat)
    (record : String) : Yields (element index record r) p := by
  refine yields_bind_right _ fun b => ?_
  split
  · exact h
  · exact yields_fail _

theorem Json.yields_checkedText (check : String → Except String α) :
    Yields (checkedText check) fun a => ∃ s, check s = .ok a := by
  refine yields_bind_right _ fun s => ?_
  split
  · next a ha => exact yields_pure ⟨s, ha⟩
  · exact yields_fail _

theorem Json.of_membersFrom {member : σ → String → Json.Reader σ} {inv : σ → Prop}
    (h : ∀ s, inv s → ∀ name, Yields (member s name) inv) {first : Bool} {s s' : σ}
    {cs rest : List Char} (hrun : membersFrom member first s cs = .ok (s', rest)) (hs : inv s) :
    inv s' := by
  fun_induction membersFrom member first s cs with
  | case1 => cases hrun
  | case2 =>
    cases hrun
    exact hs
  | case3 => cases hrun
  | case4 _ s _ name _ _ s' _ hmember ih => exact ih hrun (h s hs name hmember)

/-- What `member` keeps for each name holds after `members`. -/
theorem Json.yields_members {member : σ → String → Json.Reader σ} {inv : σ → Prop}
    (h : ∀ s, inv s → ∀ name, Yields (member s name) inv) {s : σ} (hs : inv s) :
    Yields (members member s) inv := fun _ _ _ hrun => of_membersFrom h hrun hs

theorem Json.yields_record {object elements : Json.Reader α} {p : α → Prop}
    (hobject : Yields object p) (helements : Yields elements p) (expected : String) :
    Yields (record expected object elements) p := by
  refine yields_bind_right _ fun c => ?_
  split
  · exact hobject
  split
  · exact helements.bind fun a ha => yields_bind_right _ fun _ => yields_pure ha
  · intro cs a rest hrun
    exact (refuses_wrongType _ _ hrun).elim

/-! ### Types -/

namespace Message

/-- What holds of every message that was read: its type is `Canonical` and has a name that is not
blank, and no payload is attached. -/
structure Inv (m : Message) : Prop where
  canonical : m.kind.Canonical
  kind : Text.allBlank m.kind.name = false
  payload : m.payload = none

/-- The type read so far, if any, is `Canonical` and has a name that is not blank. -/
def Draft.Inv (d : Draft) : Prop :=
  ∀ k, d.kind = some k → k.Canonical ∧ Text.allBlank k.name = false

theorem yields_kindReader :
    Yields kindReader fun k => k.Canonical ∧ Text.allBlank k.name = false := by
  intro cs k rest hrun
  obtain ⟨s, hs⟩ := yields_checkedText _ hrun
  refine ⟨MessageKind.canonical_of_ofText hs, ?_⟩
  unfold MessageKind.ofText at hs
  split at hs
  · cases hs
  · next h =>
    cases hs
    rw [MessageKind.name_ofName]
    exact Bool.not_eq_true _ ▸ h

/-- `Draft.member` keeps the invariant; all members but the type leave the type alone. -/
theorem yields_member {d : Draft} (hd : d.Inv) (name : String) :
    Yields (d.member name) Draft.Inv := by
  unfold Draft.member
  split
  · exact yields_bind_right _ fun _ => yields_pure hd
  split
  · refine (yields_field yields_kindReader _ _).bind fun k hk => yields_pure ?_
    rintro _ ⟨⟩
    exact hk
  split
  · exact yields_bind_right _ fun _ => yields_pure hd
  split
  · exact yields_bind_right _ fun _ => yields_pure hd
  split
  · exact yields_bind_right _ fun _ => yields_pure hd
  · exact yields_bind_right _ fun _ => yields_pure hd

theorem yields_finish {d : Draft} (hd : d.Inv) : Yields d.finish Inv := by
  refine yields_bind_right _ fun id => ?_
  cases hk : d.kind with
  | none => exact (yields_fail (p := fun _ => False) _).bind fun _ h => h.elim
  | some k =>
    obtain ⟨hcanonical, hname⟩ := hd k hk
    exact yields_pure ⟨hcanonical, hname, rfl⟩

theorem yields_reader : Yields reader Inv := by
  refine yields_record ?_ ?_ _
  · have hempty : Draft.Inv {} := by rintro k ⟨⟩
    exact (yields_members (fun d hd => yields_member hd) hempty).bind fun d hd => yields_finish hd
  · -- in a list the type is the second element, and what follows may be missing
    refine yields_bind_right _ fun id => ?_
    refine (yields_element yields_kindReader _ _).bind fun kind hkind => ?_
    refine yields_bind_right _ fun body => yields_bind_right _ fun payloadSize => ?_
    exact yields_bind_right _ fun transfer => yields_pure ⟨hkind.1, hkind.2, rfl⟩

/-! ### Accepted bytes -/

theorem exists_of_ofBytes {bs : Bytes} {m : Message} (h : ofBytes bs = .ok m) :
    ∃ text, bs = Bytes.ofChars text.toList ∧ reader.parse text = .ok m := by
  unfold ofBytes at h
  split at h
  · cases h
  · next text htext =>
    split at h
    · next hjson =>
      cases h
      exact ⟨text, Bytes.eq_ofChars_of_text? htext, hjson⟩
    · cases h

/-- **Bytes that are read as a message are balanced text.** -/
theorem scan_of_ofBytes {bs : Bytes} {m : Message} (h : ofBytes bs = .ok m) :
    ∃ cs, bs = Bytes.ofChars cs ∧ scan (some (.outside 0)) cs = some (.outside 0) := by
  obtain ⟨text, hbs, hparse⟩ := exists_of_ofBytes h
  exact ⟨text.toList, hbs, scan_of_parse balanced_reader hparse 0⟩

/-- **A message that was read has a canonical type with a name, and no payload.** -/
theorem inv_of_ofBytes {bs : Bytes} {m : Message} (h : ofBytes bs = .ok m) : Inv m := by
  obtain ⟨text, -, hparse⟩ := exists_of_ofBytes h
  rw [parse] at hparse
  split at hparse
  · next hrun =>
    cases hparse
    obtain ⟨m', mid, hm', hend⟩ := run_bind_eq_ok_iff.1 hrun
    obtain ⟨_, _, -, hpure⟩ := run_bind_eq_ok_iff.1 hend
    cases hpure
    exact yields_reader hm'
  · cases hparse

end Message
end RadioLink
