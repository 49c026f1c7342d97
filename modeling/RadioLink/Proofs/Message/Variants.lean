import RadioLink.Message.Printer
import RadioLink.Message.Reader
import RadioLink.Proofs.Json.Grammar

/-!
# Messages, however they are written

Who writes a message may put its members in any order, put blanks between the tokens, escape any
characters, and add members of its own that hold any values. A text of this kind is a variant of the
message (`Message.IsVariant`), and it is read as the message without its payload:

    ofJson_of_isVariant : m.kind.Canonical → Text.allBlank m.kind.name = false →
      m.IsVariant cs → ofJson (String.ofList cs) = .ok m.withoutPayload

Only `memberNames` count. The one member of the channel of a payload is read in the same way.
-/

namespace RadioLink

open Json Json.Reader Text.Reader

/-! ### Fields -/

namespace Fields

theorem insertEntry_of_forall_lt {name value : String} {l : List (String × String)}
    (h : ∀ e ∈ l, e.1 < name) : insertEntry name value l = l ++ [(name, value)] := by
  induction l with
  | nil => rfl
  | cons e l ih =>
    have he := h e List.mem_cons_self
    have hlt : ¬ name < e.1 := fun h => String.lt_irrefl _ (String.lt_trans h he)
    have hne : name ≠ e.1 := by
      rintro rfl
      exact String.lt_irrefl _ he
    rw [insertEntry, if_neg hlt, if_neg hne, ih fun e' he' => h e' (List.mem_cons_of_mem _ he'),
      List.cons_append]

/-- Entries in order that belong behind all fields end up behind them. -/
theorem entries_foldl_insert {fs : Fields} {l : List (String × String)}
    (h : (fs.entries ++ l).Pairwise fun a b => a.1 < b.1) :
    (l.foldl (fun fs e => fs.insert e.1 e.2) fs).entries = fs.entries ++ l := by
  induction l generalizing fs with
  | nil => rw [List.foldl_nil, List.append_nil]
  | cons e l ih =>
    have hlt : ∀ e' ∈ fs.entries, e'.1 < e.1 := by
      intro e' he'
      exact (List.pairwise_append.1 h).2.2 e' he' e List.mem_cons_self
    have hinsert : (fs.insert e.1 e.2).entries = fs.entries ++ [e] := insertEntry_of_forall_lt hlt
    rw [List.foldl_cons, ih, hinsert, List.append_assoc, List.singleton_append]
    rwa [hinsert, List.append_assoc, List.singleton_append]

/-- `ofList` makes fields of their own entries. -/
theorem ofList_entries (fs : Fields) : ofList fs.entries = fs := by
  have h : (ofList fs.entries).entries = fs.entries :=
    entries_foldl_insert (show ((∅ : Fields).entries ++ fs.entries).Pairwise _ from fs.sorted)
  cases hfs : ofList fs.entries with
  | mk entries sorted =>
    cases fs
    rw [hfs] at h
    cases h
    rfl

/-- The fields as an object, in whatever way names and values are spelled. -/
def IsJson (fs : Fields) : List Char → Prop :=
  IsObject (fs.entries.map fun e => (e.1, IsLiteral e.2))

theorem takesSpaced_entries {l : List (String × String)} {ts : List (List Char)} (fs : Fields)
    (h : List.Forall₂ IsMember (l.map fun e => (e.1, IsLiteral e.2)) ts) :
    TakesSpaced (fun fs name => do
        colon
        return fs.insert name (← text)) fs ts (l.foldl (fun fs e => fs.insert e.1 e.2) fs) := by
  induction l generalizing fs ts with
  | nil =>
    cases h
    exact .nil
  | cons e l ih =>
    cases h with
    | cons ht hts =>
      obtain ⟨g, ds, w, k, hg, hds, hw, hk, rfl⟩ := ht
      refine .cons hg hds ?_ hk (ih (fs.insert e.1 e.2) hts)
      exact reads_colon_of_isValued (lenient_text.bind _) (fun v hv => (reads_text hv).map _) hw

end Fields

theorem Message.reads_body {fs : Fields} {cs : List Char} (h : fs.IsJson cs) :
    Reads bodyReader cs fs := by
  obtain ⟨g, ts, hg, hts, rfl⟩ := h
  have hread := reads_members hg (Fields.takesSpaced_entries ∅ hts)
  rw [← Fields.ofList, Fields.ofList_entries] at hread
  exact reads_textObject hread

theorem Message.reads_payloadSize (n : UInt64) :
    Reads payloadSizeReader (integerText n.toNat) (some n) := by
  obtain ⟨c, cs, hc, hstart⟩ := exists_cons_integerText n.toNat
  have hread := reads_uint64 n
  rw [hc] at hread ⊢
  refine reads_orNull hread (isBlank_of_startsNumber hstart) ?_
  rintro rfl
  cases hstart

/-- `skippedField` passes over a member that nobody asked for. -/
theorem reads_skippedField {σ : Type} (s : σ) {w : List Char} (hw : IsValued IsValue w) :
    Reads (do skippedField; return s) w s := by
  have hskip : Reads skippedField w () :=
    reads_colon_of_isValued lenient_skippedValue (fun v hv => reads_skippedValue hv) hw
  exact hskip.map fun _ => s

theorem reads_field_of_isValued {α β : Type} {r : Reader α} {a : α} {p : List Char → Prop}
    (hr : Lenient r) (h : ∀ v, p v → Reads r v a) {w : List Char} (hw : IsValued p w)
    (name : String) : Reads (field name (none : Option β) r) w a :=
  reads_colon_of_isValued hr h hw

/-! ### The channel of a payload -/

namespace Transfer

/-- The channel of a payload, in whatever way it is written. -/
def IsVariant (t : Transfer) : List Char → Prop :=
  IsExtended ["channel"] IsValue [("channel", (· = integerText t.channel.toNat))]

/-- `channel` is read once, and everything else is passed over. -/
theorem unordered_channel (t : Transfer) :
    Unordered (fun (seen : Option UInt8) name =>
        if name = "channel" then do return some (← field "channel" seen uint8)
        else do skippedField; return seen)
      ["channel"] IsValue [("channel", (· = integerText t.channel.toNat))]
      fun met => if "channel" ∈ met then some t.channel else none := by
  refine ⟨?_, ?_, List.Subset.refl _, by simp⟩
  · intro e he met hmet w hw
    rw [List.mem_singleton] at he
    subst he
    rw [if_neg hmet, if_pos rfl, if_pos List.mem_cons_self]
    exact (reads_field_of_isValued lenient_uint8 (fun v hv => hv ▸ reads_uint8 _) hw _).map some
  · intro name hname met w hw
    have hne : name ≠ "channel" := by simpa using hname
    have hmem : "channel" ∈ name :: met ↔ "channel" ∈ met := by simp [Ne.symm hne]
    simp only [if_neg hne, hmem]
    exact reads_skippedField _ hw

theorem reads_transferReader_of_isVariant {t : Transfer} {cs : List Char} (h : t.IsVariant cs) :
    Reads Message.transferReader cs (some t) := by
  have hend (met : List String)
      (hmet : ∀ name ∈ ["channel"], name ∈ met ↔ name ∈ ["channel"]) :
      (if "channel" ∈ met then some t.channel else none) = some t.channel :=
    if_pos ((hmet _ List.mem_cons_self).2 List.mem_cons_self)
  obtain ⟨ds, rfl, hread⟩ := t.unordered_channel.exists_reads hend h
  refine reads_orNull (reads_record ?_) rfl (by decide)
  intro rest hrest
  refine (run_bind_of_ok (hread hrest) _).trans ?_
  rfl

end Transfer

/-! ### Messages -/

namespace Message

/-- The names of the members that count. -/
def memberNames : List String := ["id", "type", "body", "payloadSize", "payloadTransferInfo"]

/-- The members of the written form, and what their values may be written as. -/
def entries (m : Message) : List Entry :=
  [("id", (· = integerText m.id.toInt)), ("type", IsLiteral m.kind.name), ("body", m.body.IsJson)]
    ++ (m.payloadSize.map fun n => ("payloadSize", (· = integerText n.toNat))).toList
    ++ (m.transfer.map fun t => ("payloadTransferInfo", t.IsVariant)).toList

/-- `cs` is the written form of `m`, or what becomes of it when members are put in another order,
members with other names are added, and blanks and escapes are put in. -/
def IsVariant (m : Message) (cs : List Char) : Prop :=
  ∃ g v h, IsBlanks g ∧ IsExtended memberNames IsValue m.entries v ∧ IsBlanks h ∧
    cs = g ++ (v ++ h)

/-- All that the written form of a message says. -/
def draft (m : Message) : Draft where
  id := some m.id
  kind := some m.kind
  body := some m.body
  payloadSize := m.payloadSize.map some
  transfer := m.transfer.map some

theorem run_finish_draft (m : Message) (cs : List Char) :
    m.draft.finish.run cs = .ok (m.withoutPayload, cs) := by
  have hsize : (m.payloadSize.map some).getD none = m.payloadSize := by cases m.payloadSize <;> rfl
  have htransfer : (m.transfer.map some).getD none = m.transfer := by cases m.transfer <;> rfl
  show Except.ok (Message.mk m.id m.kind m.body ((m.payloadSize.map some).getD none)
    ((m.transfer.map some).getD none) none, cs) = _
  rw [hsize, htransfer]
  rfl

/-- What has been read of `m` when the members with the names `met` have been taken in. -/
def draftOf (m : Message) (met : List String) : Draft where
  id := if "id" ∈ met then some m.id else none
  kind := if "type" ∈ met then some m.kind else none
  body := if "body" ∈ met then some m.body else none
  payloadSize := if "payloadSize" ∈ met then m.payloadSize.map some else none
  transfer := if "payloadTransferInfo" ∈ met then m.transfer.map some else none

/-! ### Members of a message -/

namespace Draft

variable {d : Draft} {w : List Char}

theorem reads_id (hd : d.id = none) {n : Int64}
    (h : Reads (field "id" (none : Option Int64) int64) w n) :
    Reads (d.member "id") w { d with id := some n } := by
  rw [member, if_pos rfl, hd]
  exact h.map _

theorem reads_kind (hd : d.kind = none) {k : MessageKind}
    (h : Reads (field "type" (none : Option MessageKind) kindReader) w k) :
    Reads (d.member "type") w { d with kind := some k } := by
  rw [member, if_neg (by decide), if_pos rfl, hd]
  exact h.map _

theorem reads_body (hd : d.body = none) {fs : Fields}
    (h : Reads (field "body" (none : Option Fields) bodyReader) w fs) :
    Reads (d.member "body") w { d with body := some fs } := by
  rw [member, if_neg (by decide), if_neg (by decide), if_pos rfl, hd]
  exact h.map _

theorem reads_payloadSize (hd : d.payloadSize = none) {n : Option UInt64}
    (h : Reads (field "payloadSize" (none : Option (Option UInt64)) payloadSizeReader) w n) :
    Reads (d.member "payloadSize") w { d with payloadSize := some n } := by
  rw [member, if_neg (by decide), if_neg (by decide), if_neg (by decide), if_pos rfl, hd]
  exact h.map _

theorem reads_transfer (hd : d.transfer = none) {t : Option Transfer}
    (h : Reads (field "payloadTransferInfo" (none : Option (Option Transfer)) transferReader) w t) :
    Reads (d.member "payloadTransferInfo") w { d with transfer := some t } := by
  rw [member, if_neg (by decide), if_neg (by decide), if_neg (by decide), if_neg (by decide),
    if_pos rfl, hd]
  exact h.map _

/-- Any member outside `memberNames` is passed over. -/
theorem reads_strange {name : String} (hname : name ∉ memberNames) (d : Draft)
    (hw : IsValued IsValue w) : Reads (d.member name) w d := by
  simp only [memberNames, List.mem_cons, List.not_mem_nil, or_false, not_or] at hname
  obtain ⟨hid, htype, hbody, hsize, htransfer⟩ := hname
  rw [member, if_neg hid, if_neg htype, if_neg hbody, if_neg hsize, if_neg htransfer]
  exact reads_skippedField d hw

end Draft

theorem draftOf_cons_of_strange (m : Message) {name : String} (hname : name ∉ memberNames)
    (met : List String) : m.draftOf (name :: met) = m.draftOf met := by
  simp only [memberNames, List.mem_cons, List.not_mem_nil, or_false, not_or] at hname
  obtain ⟨hid, htype, hbody, hsize, htransfer⟩ := hname
  simp only [draftOf, List.mem_cons, Ne.symm hid, Ne.symm htype, Ne.symm hbody, Ne.symm hsize,
    Ne.symm htransfer, false_or]

/-- The names come in the order of `memberNames`, and some may be missing. -/
theorem names_sublist (m : Message) : (m.entries.map (·.1)).Sublist memberNames := by
  cases hsize : m.payloadSize with
  | none => cases htransfer : m.transfer <;> simp [entries, hsize, htransfer, memberNames]
  | some n => cases htransfer : m.transfer <;> simp [entries, hsize, htransfer, memberNames]

theorem mem_entries {m : Message} {e : Entry} (h : e ∈ m.entries) :
    e = ("id", (· = integerText m.id.toInt)) ∨ e = ("type", IsLiteral m.kind.name) ∨
    e = ("body", m.body.IsJson) ∨
    (∃ n, m.payloadSize = some n ∧ e = ("payloadSize", (· = integerText n.toNat))) ∨
    ∃ t, m.transfer = some t ∧ e = ("payloadTransferInfo", t.IsVariant) := by
  simpa only [entries, List.mem_append, List.mem_cons, List.not_mem_nil, or_false,
    Option.mem_toList, Option.map_eq_some_iff, or_assoc, eq_comm (b := e)] using h

/-- Each of `m.entries` is read once, and everything else is passed over. -/
theorem unordered_entries {m : Message} (hkind : m.kind.Canonical)
    (hk : Text.allBlank m.kind.name = false) :
    Unordered Draft.member memberNames IsValue m.entries m.draftOf := by
  have hnames := m.names_sublist
  refine ⟨?_, ?_, hnames.subset, List.Nodup.sublist hnames (by decide)⟩
  -- one case for each entry: whatever way it is written, it reads as what the message holds
  · intro e he met hmet w hw
    obtain rfl | rfl | rfl | ⟨n, hn, rfl⟩ | ⟨t, ht, rfl⟩ := mem_entries he
    · have hread : Reads (field "id" (none : Option Int64) int64) w m.id :=
        reads_field_of_isValued lenient_int64 (fun v hv => hv ▸ reads_int64 m.id) hw _
      have hnext : m.draftOf ("id" :: met) = { m.draftOf met with id := some m.id } := by
        simp [draftOf]
      exact hnext ▸ Draft.reads_id (if_neg hmet) hread
    · have hread : Reads (field "type" (none : Option MessageKind) kindReader) w m.kind :=
        reads_field_of_isValued (lenient_checkedText _)
          (fun v hv => reads_checkedText (hkind.ofText_name hk) hv) hw _
      have hnext : m.draftOf ("type" :: met) = { m.draftOf met with kind := some m.kind } := by
        simp [draftOf]
      exact hnext ▸ Draft.reads_kind (if_neg hmet) hread
    · have hread : Reads (field "body" (none : Option Fields) bodyReader) w m.body :=
        reads_field_of_isValued (lenient_textObject _ _) (fun v hv => reads_body hv) hw _
      have hnext : m.draftOf ("body" :: met) = { m.draftOf met with body := some m.body } := by
        simp [draftOf]
      exact hnext ▸ Draft.reads_body (if_neg hmet) hread
    · have hread : Reads (field "payloadSize" (none : Option (Option UInt64)) payloadSizeReader) w
          (some n) :=
        reads_field_of_isValued (lenient_orNull _) (fun v hv => hv ▸ reads_payloadSize n) hw _
      have hnext : m.draftOf ("payloadSize" :: met)
          = { m.draftOf met with payloadSize := some (some n) } := by
        simp [draftOf, hn]
      exact hnext ▸ Draft.reads_payloadSize (if_neg hmet) hread
    · have hread : Reads (field "payloadTransferInfo" (none : Option (Option Transfer))
          transferReader) w (some t) :=
        reads_field_of_isValued (lenient_orNull _)
          (fun v hv => Transfer.reads_transferReader_of_isVariant hv) hw _
      have hnext : m.draftOf ("payloadTransferInfo" :: met)
          = { m.draftOf met with transfer := some (some t) } := by
        simp [draftOf, ht]
      exact hnext ▸ Draft.reads_transfer (if_neg hmet) hread
  -- a name that is not known is passed over with its value
  · intro name hname met w hw
    rw [m.draftOf_cons_of_strange hname]
    exact Draft.reads_strange hname _ hw

/-- When the names met are those of `m.entries`, all has been read that the written form says. -/
theorem draftOf_eq_draft (m : Message) {met : List String}
    (hmet : ∀ name ∈ memberNames, name ∈ met ↔ name ∈ m.entries.map (·.1)) :
    m.draftOf met = m.draft := by
  have hid : "id" ∈ met := (hmet _ (by decide)).2 (by simp [entries])
  have htype : "type" ∈ met := (hmet _ (by decide)).2 (by simp [entries])
  have hbody : "body" ∈ met := (hmet _ (by decide)).2 (by simp [entries])
  have hsize : (if "payloadSize" ∈ met then m.payloadSize.map some else none)
      = m.payloadSize.map some := by
    cases hn : m.payloadSize with
    | none => exact ite_self _
    | some n => exact if_pos ((hmet _ (by decide)).2 (by simp [entries, hn]))
  have htransfer : (if "payloadTransferInfo" ∈ met then m.transfer.map some else none)
      = m.transfer.map some := by
    cases ht : m.transfer with
    | none => exact ite_self _
    | some t => exact if_pos ((hmet _ (by decide)).2 (by simp [entries, ht]))
  rw [draftOf, draft, if_pos hid, if_pos htype, if_pos hbody, hsize, htransfer]

/-! ### Whole messages -/

/-- **Whatever variant of a message is read, it is the message, without the payload.** -/
theorem ofJson_of_isVariant {m : Message} (hkind : m.kind.Canonical)
    (hk : Text.allBlank m.kind.name = false) {cs : List Char} (h : m.IsVariant cs) :
    ofJson (String.ofList cs) = .ok m.withoutPayload := by
  obtain ⟨g, v, k, hg, hv, hk', rfl⟩ := h
  obtain ⟨ds, rfl, hread⟩ :=
    (unordered_entries hkind hk).exists_reads (fun _ => m.draftOf_eq_draft) hv
  have hobject : Reads (do (← members Draft.member {}).finish) ds m.withoutPayload := by
    intro rest hrest
    refine (run_bind_of_ok (hread hrest) _).trans ?_
    exact m.run_finish_draft rest
  have hreader : Reads reader ('\x7b' :: ds) m.withoutPayload := reads_record hobject
  have hends := endsNumber_append_of_isBlanks hk' endsNumber_nil
  have hrun : reader.run (g ++ ('\x7b' :: ds ++ k)) = .ok (m.withoutPayload, k) := by
    have hread := hreader hends
    rw [List.append_nil] at hread
    have hlenient : Lenient reader := lenient_record _ _ _
    rw [hlenient hg, hread]
  exact parse_of_run hrun hk'

end Message
end RadioLink
