import RadioLink.Proofs.Message.Variants

/-!
# Written messages are read back

The written form of a message is a variant of it, and it stays one when any of its blanks are
written by number (`Respaced`). So it is read back as the message without its payload. A message
whose type has a blank name is refused at its type:

    ofJson_of_respaced : m.kind.Canonical → Text.allBlank m.kind.name = false →
      Respaced (Json.object m.jsonMembers) ds → ofJson (String.ofList ds) = .ok m.withoutPayload
-/

namespace RadioLink

open Json Json.Reader Text.Reader

/-! ### Fields and channels -/

theorem Fields.isJson_of_respaced {fs : Fields} {v : List Char} (hv : Respaced fs.json v) :
    fs.IsJson v := by
  refine isObject_of_respaced ?_ hv
  rw [List.forall₂_map_left_iff, List.forall₂_map_right_iff, List.forall₂_same]
  intro e _ t ht
  exact isMember_of_respaced (fun v => isLiteral_of_respaced) ht

theorem eq_integerText_of_respaced {n : Int} {v : List Char} (hv : Respaced (integerText n) v) :
    v = integerText n := hv.eq_of_notMem (blank_notMem_integerText _)

theorem Transfer.isVariant_of_respaced {t : Transfer} {v : List Char} (hv : Respaced t.json v) :
    t.IsVariant v := by
  refine (isObject_of_respaced (.cons ?_ .nil) hv).isExtended
  intro u hu
  exact isMember_of_respaced (fun v => eq_integerText_of_respaced) hu

namespace Message

theorem reads_bodyReader {fs : Fields} {v : List Char} (hv : Respaced fs.json v) :
    Reads bodyReader v fs := reads_body (Fields.isJson_of_respaced hv)

theorem reads_payloadSizeReader {n : UInt64} {v : List Char}
    (hv : Respaced (integerText n.toNat) v) : Reads payloadSizeReader v (some n) := by
  rw [eq_integerText_of_respaced hv]
  exact reads_payloadSize n

theorem reads_transferReader {t : Transfer} {v : List Char} (hv : Respaced t.json v) :
    Reads transferReader v (some t) :=
  Transfer.reads_transferReader_of_isVariant (Transfer.isVariant_of_respaced hv)

/-! ### Whole messages -/

theorem forall₂_toList {α β γ : Type} {R : β → γ → Prop} {f : α → β} {g : α → γ} (o : Option α)
    (h : ∀ a, R (f a) (g a)) : List.Forall₂ R (o.map f).toList (o.map g).toList := by
  cases o with
  | none => exact .nil
  | some a => exact .cons (h a) .nil

/-- The members of the written form are `m.entries`, in their order, however they are respaced. -/
theorem forall₂_entries (m : Message) :
    List.Forall₂ (fun e t => ∀ u, Respaced t u → IsMember e u) m.entries m.jsonMembers := by
  refine List.rel_append (List.rel_append (.cons ?id (.cons ?kind (.cons ?body .nil)))
    (forall₂_toList m.payloadSize ?size)) (forall₂_toList m.transfer ?transfer)
  case id =>
    intro u hu
    exact isMember_of_respaced (fun v => eq_integerText_of_respaced) hu
  case kind =>
    intro u hu
    exact isMember_of_respaced (fun v => isLiteral_of_respaced) hu
  case body =>
    intro u hu
    exact isMember_of_respaced (fun v => Fields.isJson_of_respaced) hu
  case size =>
    intro n u hu
    exact isMember_of_respaced (fun v => eq_integerText_of_respaced) hu
  case transfer =>
    intro t u hu
    exact isMember_of_respaced (fun v => Transfer.isVariant_of_respaced) hu

theorem isVariant_of_respaced {m : Message} {ds : List Char}
    (h : Respaced (object m.jsonMembers) ds) : m.IsVariant ds :=
  ⟨[], ds, [], isBlanks_nil, (isObject_of_respaced m.forall₂_entries h).isExtended, isBlanks_nil,
    by simp⟩

/-- **The written form of a message is read back, without the payload**, and so it is after some of
its blanks have been written by number. -/
theorem ofJson_of_respaced {m : Message} (hkind : m.kind.Canonical)
    (hk : Text.allBlank m.kind.name = false) {ds : List Char}
    (h : Respaced (object m.jsonMembers) ds) :
    ofJson (String.ofList ds) = .ok m.withoutPayload :=
  ofJson_of_isVariant hkind hk (isVariant_of_respaced h)

variable {d : Draft} {v : List Char}

theorem run_member_type_blank {k : MessageKind} (hk : Text.allBlank k.name) (hd : d.kind = none)
    (hv : Respaced (literal k.name) v) {rest : List Char} (hrest : EndsNumber rest) :
    ∃ fault, (d.member "type").run (':' :: (v ++ rest)) = .error fault := by
  have hkind : kindReader.run (v ++ rest)
      = .error (.schema (.refused "Message type must not be empty")) := by
    rw [kindReader, checkedText, run_bind_of_ok (reads_text (isLiteral_of_respaced hv) hrest),
      MessageKind.ofText, if_pos hk]
    rfl
  have hfield : (field "type" (none : Option MessageKind) kindReader).run (':' :: (v ++ rest))
      = .error (.schema (.refused "Message type must not be empty")) := by
    rw [field, if_neg (by decide), run_bind_of_ok (run_colon_cons _), hkind]
  rw [Draft.member, if_neg (by decide), if_pos rfl, hd]
  exact ⟨_, run_bind_of_error hfield _⟩

/-- A message whose type has a blank name is written, and not read back. -/
theorem ofJson_of_respaced_blank {m : Message} (hk : Text.allBlank m.kind.name) {ds : List Char}
    (h : Respaced (object m.jsonMembers) ds) :
    ∃ fault, ofJson (String.ofList ds) = .error fault := by
  obtain ⟨us, rfl, hus⟩ := respaced_object h
  obtain ⟨u₁, us, hu₁, hus', rfl⟩ := List.forall₂_cons_left_iff.1 hus
  obtain ⟨u₂, us, hu₂, -, rfl⟩ := List.forall₂_cons_left_iff.1 hus'
  obtain ⟨ds, v, rfl, hname, hv⟩ := respaced_memberText hu₂
  -- the number is taken in, and the type behind it is refused
  have hid : TakesSpaced Draft.member {} [u₁] { id := some m.id } := by
    obtain ⟨ds₁, v₁, rfl, hname₁, hv₁⟩ := respaced_memberText hu₁
    have hfield : Reads (field "id" (none : Option Int64) int64)
        (':' :: integerText m.id.toInt) m.id :=
      reads_field (reads_int64 m.id) _
    have hvalue : Reads (Draft.member {} "id") (':' :: integerText m.id.toInt)
        { id := some m.id } :=
      Draft.reads_id rfl hfield
    have htakes := TakesSpaced.cons isBlanks_nil hname₁ hvalue isBlanks_nil .nil
    rwa [List.append_nil, List.nil_append, ← eq_integerText_of_respaced hv₁] at htakes
  have hends : EndsNumber (us.flatMap (',' :: ·) ++ ['\x7d']) :=
    endsNumber_flatMap_append us (endsNumber_cons (by decide) [])
  obtain ⟨fault, hfault⟩ := run_member_type_blank (d := { id := some m.id }) hk rfl hv hends
  have hrefused := membersFrom_of_refused hid hname hfault
  refine ⟨fault, parse_of_error ?_⟩
  have htext : commaSeparated (u₁ :: (ds ++ ':' :: v) :: us) ++ ['\x7d'] = commaSeparated [u₁]
      ++ ',' :: (ds ++ ':' :: (v ++ (us.flatMap (',' :: ·) ++ ['\x7d']))) := by
    rw [commaSeparated_cons, commaSeparated_cons]
    simp
  rw [reader, record, object, htext, run_bind_of_ok (run_take_cons rfl), if_pos rfl]
  exact run_bind_of_error hrefused _

end Message
end RadioLink
