import RadioLink.Proofs.Json.Lexing

/-!
# Values are balanced

Every reader of a value takes balanced text (`Balanced`), and so does `skippedValue`, which passes
over a value: literals are closed, and brackets are matched. Nothing else is asked of the readers of
which an object or a list is made.

    balanced_skippedValue : Balanced skippedValue
    balanced_record : (members balanced) → (elements balanced) → Balanced (record expected ..)
-/

namespace RadioLink.Json

open Reader Text.Reader

variable {α β σ : Type}

/-! ### Values that are passed over -/

/-- The place outside literals with the containers of `n` open inside `d` others. -/
def Nesting.place (d : Nat) (n : Nesting) : Place := .outside (d + n.inside.length)

theorem scans_skippedFrom (inside : List Container) (c : Char) (d : Nat) :
    Scans (skippedFrom inside c) (step (some (.outside (d + inside.length))) c)
      (Nesting.place d) := by
  unfold skippedFrom
  dsimp only
  split
  · next h =>
    subst h
    exact (balanced_word (by decide) _).bind fun _ => scans_pure rfl
  split
  · next h =>
    subst h
    exact (balanced_word (by decide) _).bind fun _ => scans_pure rfl
  split
  · next h =>
    subst h
    exact (balanced_word (by decide) _).bind fun _ => scans_pure rfl
  split
  · next h =>
    subst h
    exact (scans_skippedString _).bind fun _ => scans_pure rfl
  split
  · next h =>
    subst h
    exact scans_pure rfl
  split
  · next h =>
    subst h
    exact scans_pure rfl
  split
  · next h => exact (scans_skippedNumber h _).bind fun _ => scans_pure rfl
  · exact scans_fail _

theorem scans_skippedStart (inside : List Container) (d : Nat) :
    Scans (skippedStart inside) (some (.outside (d + inside.length))) (Nesting.place d) :=
  scans_take_bind fun c => scans_skippedFrom inside c d

theorem scans_skippedMember (inside : List Container) (c : Char) (d : Nat) :
    Scans (skippedMember inside c) (step (some (.outside (d + inside.length))) c)
      (Nesting.place d) := by
  unfold skippedMember
  split
  · next h =>
    subst h
    refine (scans_skippedString _).bind fun _ => ?_
    exact (balanced_colon _).bind fun _ => scans_skippedStart inside d
  · exact scans_fail _

theorem step_closer (k : Container) (d : Nat) :
    step (some (.outside (d + 1))) k.closer = some (.outside d) := by
  cases k <;> rfl

theorem scans_skippedStep (comma : Bool) (innermost : Container) (outer : List Container)
    (d : Nat) : Scans (skippedStep comma innermost outer)
      (some (.outside (d + (innermost :: outer).length))) (Nesting.place d) := by
  refine scans_take_bind fun c => ?_
  split
  · next h =>
    subst h
    exact scans_pure (step_closer innermost _)
  split
  · split
    · next h =>
      subst h
      split
      · exact scans_skippedStart _ d
      · exact scans_take_bind fun c => scans_skippedMember _ c d
    · exact scans_fail _
  · split
    · exact scans_skippedFrom _ c d
    · exact scans_skippedMember _ c d

/-- `skippedLoop` takes exactly what closes the containers of `n`. -/
theorem scan_skippedLoop {n : Nesting} {cs rest : List Char}
    (h : skippedLoop n cs = .ok ((), rest)) (d : Nat) :
    ∃ used, cs = used ++ rest ∧ scan (some (n.place d)) used = some (.outside d) := by
  -- throughout, as many brackets are open as there are containers on the stack
  fun_induction skippedLoop n cs with
  | case1 n cs hn =>
    cases h
    exact ⟨[], rfl, by rw [Nesting.place, hn]; rfl⟩
  | case2 => cases h
  | case3 n cs innermost outer hn n' mid hstep ih =>
    obtain ⟨used, rfl, hused⟩ := scans_skippedStep n.comma innermost outer d _ rfl hstep
    obtain ⟨used', rfl, hused'⟩ := ih h
    refine ⟨used ++ used', (List.append_assoc ..).symm, ?_⟩
    rw [Nesting.place, hn, scan_append, hused, hused']

theorem balanced_skippedValue : Balanced skippedValue := by
  intro d
  refine (scans_skippedStart [] d).bind fun n => ?_
  rintro _ cs a rest - hrun
  exact scan_skippedLoop hrun d

/-! ### Numbers, texts and values that may be missing -/

/-- `wrongType` refuses every text, however far it reads. -/
theorem refuses_wrongType (expected : String) (c : Char) :
    Refuses (wrongType expected c : Reader α) := by
  unfold wrongType
  split
  · exact yields_bind_right _ fun _ => yields_fail _
  split
  · exact yields_bind_right _ fun _ => yields_fail _
  split
  · exact yields_bind_right _ fun _ => yields_fail _
  split
  · exact yields_bind_right _ fun _ => yields_fail _
  split
  · exact yields_fail _
  split
  · exact yields_fail _
  split
  · refine yields_bind_right _ fun n => ?_
    cases n <;> exact yields_fail _
  · exact yields_fail _

theorem balanced_integer (low high : Int) (expected : String) :
    Balanced (integer low high expected) := by
  refine fun d => scans_take_bind fun c => ?_
  split
  · next h =>
    refine (scans_number h d).bind fun n => ?_
    split
    · split
      · exact scans_pure rfl
      · exact scans_fail _
    · exact scans_fail _
  · exact (refuses_wrongType _ _).scans

theorem balanced_int64 : Balanced int64 := (balanced_integer _ _ _).bind fun _ => balanced_pure _

theorem balanced_uint64 : Balanced uint64 := (balanced_integer _ _ _).bind fun _ => balanced_pure _

theorem balanced_uint8 : Balanced uint8 := (balanced_integer _ _ _).bind fun _ => balanced_pure _

theorem balanced_text : Balanced text := by
  refine fun d => scans_take_bind fun c => ?_
  split
  · next h =>
    subst h
    exact scans_string d
  · exact (refuses_wrongType _ _).scans

theorem balanced_checkedText (check : String → Except String α) : Balanced (checkedText check) := by
  refine balanced_text.bind fun s => ?_
  split
  · exact balanced_pure _
  · exact balanced_fail _

theorem balanced_orNull {r : Reader α} (h : Balanced r) : Balanced (orNull r) := by
  refine fun d => scans_token_bind fun o => ?_
  split
  · exact scansOn_advance_bind ((balanced_word (by decide) d).bind fun _ => scans_pure rfl)
  · exact (h.bind fun _ => balanced_pure _) d _

theorem balanced_required (name : String) (o : Option α) : Balanced (required name o) := by
  cases o with
  | none => exact balanced_fail _
  | some a => exact balanced_pure a

/-! ### Objects -/

/-- `memberName?` leaves the object open when it finds a name, and else takes the closing brace. -/
theorem scans_memberName? (first : Bool) (d : Nat) :
    Scans (memberName? first) (some (.outside (d + 1)))
      fun name => if name.isSome then .outside (d + 1) else .outside d := by
  refine scans_take_bind fun c => ?_
  split
  · next h =>
    subst h
    exact scans_pure rfl
  split
  · split
    · next h =>
      subst h
      exact (scans_string _).bind fun _ => scans_pure rfl
    · exact scans_fail _
  split
  · next h =>
    subst h
    refine scans_take_bind fun c => ?_
    split
    · next h =>
      subst h
      exact (scans_string _).bind fun _ => scans_pure rfl
    split
    · exact scans_fail _
    · exact scans_fail _
  · exact scans_fail _

theorem scan_membersFrom {member : σ → String → Reader σ} (h : ∀ s name, Balanced (member s name))
    {first : Bool} {s s' : σ} {cs rest : List Char}
    (hrun : membersFrom member first s cs = .ok (s', rest)) (d : Nat) :
    ∃ used, cs = used ++ rest ∧ scan (some (.outside (d + 1))) used = some (.outside d) := by
  fun_induction membersFrom member first s cs with
  | case1 => cases hrun
  | case2 first s cs mid hname =>
    cases hrun
    exact scans_memberName? first d _ rfl hname
  | case3 => cases hrun
  | case4 first s cs name mid hname s'' mid' hmember ih =>
    obtain ⟨used, rfl, hused⟩ := scans_memberName? first d _ rfl hname
    obtain ⟨used', rfl, hused'⟩ := h s name (d + 1) _ rfl hmember
    obtain ⟨used'', rfl, hused''⟩ := ih hrun
    replace hused : scan (some (.outside (d + 1))) used = some (.outside (d + 1)) := hused
    -- a name, what its member takes, and the other members up to the brace
    refine ⟨used ++ (used' ++ used''), by simp, ?_⟩
    rw [scan_append, hused, scan_append, hused', hused'']

/-- `members` takes the members of an object with its closing brace. -/
theorem scans_members {member : σ → String → Reader σ} (h : ∀ s name, Balanced (member s name))
    (s : σ) (d : Nat) : Scans (members member s) (some (.outside (d + 1))) fun _ => .outside d := by
  rintro _ cs s' rest - hrun
  exact scan_membersFrom h hrun d

theorem balanced_field {r : Reader α} (h : Balanced r) (name : String) (seen : Option β) :
    Balanced (field name seen r) := by
  unfold field
  split
  · exact balanced_fail _
  · exact balanced_colon.bind fun _ => h

theorem balanced_skippedField : Balanced skippedField :=
  balanced_colon.bind fun _ => balanced_skippedValue

theorem balanced_textObject (insert : σ → String → String → σ) (empty : σ) :
    Balanced (textObject insert empty) := by
  refine fun d => scans_take_bind fun c => ?_
  split
  · next h =>
    subst h
    refine scans_members (fun s name => ?_) empty d
    exact balanced_colon.bind fun _ => balanced_text.bind fun _ => balanced_pure _
  · exact (refuses_wrongType _ _).scans

/-! ### Lists -/

theorem balanced_more (first : Bool) : Balanced (more first) := by
  refine fun d => scans_token_bind fun o => ?_
  split
  · exact scans_fail _ _
  · split
    · exact scansOn_pure rfl
    split
    · exact scansOn_pure rfl
    split
    · next h =>
      subst h
      refine scansOn_advance_bind (scans_token_bind fun o => ?_)
      split
      · exact scans_fail _ _
      · split
        · exact scans_fail _ _
        · exact scansOn_pure rfl
    · exact scans_fail _ _

theorem scans_listEnd (d : Nat) : Scans listEnd (some (.outside (d + 1))) fun _ => .outside d := by
  refine scans_take_bind fun c => ?_
  split
  · next h =>
    subst h
    exact scans_pure rfl
  split
  · next h =>
    subst h
    refine scans_token_bind fun o => ?_
    split
    · exact scans_fail _ _
    · exact scans_fail _ _
  · exact scans_fail _

theorem balanced_element {r : Reader α} (h : Balanced r) (index : Nat) (record : String) :
    Balanced (element index record r) := by
  refine (balanced_more _).bind fun b => ?_
  split
  · exact h
  · exact balanced_fail _

theorem balanced_elementOr {r : Reader α} (h : Balanced r) (default : α) :
    Balanced (elementOr default r) := by
  refine (balanced_more _).bind fun b => ?_
  split
  · exact h
  · exact balanced_pure _

/-- A `record` is balanced when the members of its object are taken with the closing brace and the
elements of its list without the closing bracket. -/
theorem balanced_record {object elements : Reader α}
    (hobject : ∀ d, Scans object (some (.outside (d + 1))) fun _ => .outside d)
    (helements : Balanced elements) (expected : String) :
    Balanced (record expected object elements) := by
  refine fun d => scans_take_bind fun c => ?_
  split
  · next h =>
    subst h
    exact hobject d
  split
  · next h =>
    subst h
    refine (helements (d + 1)).bind fun a => ?_
    exact (scans_listEnd d).bind fun _ => scans_pure rfl
  · exact (refuses_wrongType _ _).scans

end RadioLink.Json
