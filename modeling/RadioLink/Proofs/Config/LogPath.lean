import RadioLink.Config.LogPath

/-!
# Paths that name a file

A path names a file if it ends in a name, whatever stands in front of that up to a slash, and with
nothing after it but slashes that a `.` may follow:

    front ++ name ++ back

That is `NamesFile`, which knows nothing of parts or of how a path is taken apart. Every other path
is `Nameless`: it says nothing at all, or nothing but a dot at its start, or it ends in `..`. The
file of a path is found, under its name, just if it names one.
-/

namespace RadioLink.LogPath

/-- The text may be the name of a file: not empty, not `.` or `..`, and without a slash. -/
structure IsName (cs : List Char) : Prop where
  ne_nil : cs ≠ []
  ne_here : cs ≠ ['.']
  ne_up : cs ≠ ['.', '.']
  no_slash : '/' ∉ cs

/-- What may stand in front of a part: nothing, or a text that ends in a slash. -/
def Leads (front : List Char) : Prop := front = [] ∨ ∃ f, front = f ++ ['/']

/-- What says nothing at the end of a path: slashes, each of which a `.` may follow. -/
inductive Idle : List Char → Prop where
  | none : Idle []
  | next {cs dot : List Char} (h : Idle cs) (hdot : dot = [] ∨ dot = ['.']) :
      Idle (cs ++ '/' :: dot)

/-- The path names a file, with `name`: `front ++ name ++ back` where `front` leads up to a slash
and `back` is idle. -/
inductive NamesFile (name : List Char) : List Char → Prop where
  | mk {front back : List Char} (leads : Leads front) (isName : IsName name) (idle : Idle back) :
      NamesFile name (front ++ name ++ back)

/-- The path names no file: it is idle, or a dot followed by what is idle, or it ends in `..` but
for what is idle. -/
inductive Nameless : List Char → Prop where
  | idle {path : List Char} (h : Idle path) : Nameless path
  | here {back : List Char} (idle : Idle back) : Nameless ('.' :: back)
  | up {front back : List Char} (leads : Leads front) (idle : Idle back) :
      Nameless (front ++ ['.', '.'] ++ back)

variable {f g s t front back path name : List Char}

/-! ### The last part -/

theorem takeWhile_reverse (hf : Leads f) (hs : '/' ∉ s) :
    (f ++ s).reverse.takeWhile (· ≠ '/') = s.reverse := by
  have hall : ∀ c ∈ s.reverse, decide (c ≠ '/') = true := by
    intro c hc
    exact decide_eq_true fun heq => hs (heq ▸ List.mem_reverse.1 hc)
  rw [List.reverse_append, List.takeWhile_append_of_pos hall]
  obtain rfl | ⟨f, rfl⟩ := hf
  · exact List.append_nil _
  · simp

/-- There is only one way to take off the text after the last slash. -/
theorem eq_of_append_eq (hf : Leads f) (hg : Leads g) (hs : '/' ∉ s) (ht : '/' ∉ t)
    (h : f ++ s = g ++ t) : f = g ∧ s = t := by
  have hst : s = t := by
    have hreverse : s.reverse = t.reverse := by
      rw [← takeWhile_reverse hf hs, h, takeWhile_reverse hg ht]
    exact List.reverse_inj.1 hreverse
  exact ⟨List.append_cancel_right (hst ▸ h), hst⟩

theorem part?_eq_none_iff : part? s = none ↔ s = [] ∨ s = ['.'] := by
  unfold part?
  split
  · next h => simp [h]
  · next h => split <;> simp [h]

theorem part?_eq_name_iff (hs : '/' ∉ s) : part? s = some (.name name) ↔ IsName s ∧ name = s := by
  unfold part?
  constructor
  · intro h
    split at h
    · cases h
    · next hpart =>
      obtain ⟨hnil, hhere⟩ := not_or.1 hpart
      split at h
      · cases h
      · next hup =>
        cases h
        exact ⟨⟨hnil, hhere, hup, hs⟩, rfl⟩
  · rintro ⟨⟨hnil, hhere, hup, -⟩, rfl⟩
    rw [if_neg (not_or.2 ⟨hnil, hhere⟩), if_neg hup]

/-- A path `f ++ s`, where `s` is the text after the last slash, names a file by `s`, or, if `s` is
no part, by what is in front of that slash. -/
theorem namesFile_append_iff (hf : Leads f) (hs : '/' ∉ s) : NamesFile name (f ++ s) ↔
    (IsName s ∧ name = s) ∨ part? s = none ∧ ∃ g, f = g ++ ['/'] ∧ NamesFile name g := by
  constructor
  · intro h
    generalize hpath : f ++ s = path at h
    obtain ⟨leads, isName, idle⟩ := h
    -- what says nothing at the end tells which text is the last one
    cases idle with
    | none =>
      rw [List.append_nil] at hpath
      obtain ⟨-, rfl⟩ := eq_of_append_eq hf leads hs isName.no_slash hpath
      exact .inl ⟨isName, rfl⟩
    | @next cs dot h hdot =>
      have hslash : '/' ∉ dot := by rcases hdot with rfl | rfl <;> decide
      rw [← List.append_assoc, List.append_cons] at hpath
      obtain ⟨rfl, rfl⟩ := eq_of_append_eq hf (.inr ⟨_, rfl⟩) hs hslash hpath
      exact .inr ⟨part?_eq_none_iff.2 hdot, _, rfl, .mk leads isName h⟩
  · rintro (⟨isName, rfl⟩ | ⟨hidle, g, rfl, ⟨leads, isName, idle⟩⟩)
    · rw [← List.append_nil (f ++ name)]
      exact .mk hf isName .none
    · rw [List.append_assoc, List.append_assoc]
      exact .mk leads isName (idle.next (part?_eq_none_iff.1 hidle))

theorem not_namesFile_nil : ¬ NamesFile name [] := by
  intro h
  generalize hpath : ([] : List Char) = path at h
  obtain ⟨-, isName, -⟩ := h
  have hnil := List.append_eq_nil_iff.1 (List.append_eq_nil_iff.1 hpath.symm).1
  exact isName.ne_nil hnil.2

/-- Of a path read backwards, the text up to the first slash, and what remains behind that slash if
there is one. -/
theorem takeWhile_cases (rev : List Char) : ∃ text rest, text = rev.takeWhile (· ≠ '/') ∧
    rest = rev.drop (text.length + 1) ∧ '/' ∉ text ∧
      (rev = text ∧ rest = [] ∨ rev = text ++ '/' :: rest) := by
  induction rev with
  | nil => exact ⟨[], [], rfl, rfl, List.not_mem_nil, .inl ⟨rfl, rfl⟩⟩
  | cons c rev ih =>
    by_cases hc : c = '/'
    · subst hc
      exact ⟨[], rev, by simp, rfl, List.not_mem_nil, .inr rfl⟩
    · obtain ⟨text, rest, htext, hrest, hslash, hcases⟩ := ih
      refine ⟨c :: text, rest, by simp [hc, htext], hrest, ?_, ?_⟩
      · exact List.not_mem_cons_of_ne_of_not_mem (Ne.symm hc) hslash
      · exact hcases.imp (.imp_left (congrArg (c :: ·))) (congrArg (c :: ·))

theorem namesFile_reverse_iff {rev : List Char} (text : List Char)
    (h : text = rev.takeWhile (· ≠ '/')) :
    NamesFile name rev.reverse ↔ part? text.reverse = some (.name name) ∨
      part? text.reverse = none ∧ NamesFile name (rev.drop (text.length + 1)).reverse := by
  obtain ⟨text, rest, htext, hrest, hslash, hrev⟩ := takeWhile_cases rev
  obtain rfl := htext.trans h.symm
  have hslash' : '/' ∉ text.reverse := fun hmem => hslash (List.mem_reverse.1 hmem)
  rw [← hrest, part?_eq_name_iff hslash']
  obtain ⟨rfl, rfl⟩ | rfl := hrev
  · rw [← List.nil_append rev.reverse, namesFile_append_iff (.inl rfl) hslash']
    simp [not_namesFile_nil]
  · rw [List.reverse_append, List.reverse_cons, namesFile_append_iff (.inr ⟨_, rfl⟩) hslash']
    simp

/-- `lastPart`, on the reversed path, finds `name` exactly if the path names a file with it. -/
theorem lastPart_eq_name_iff {fuel : Nat} {rev : List Char} (h : rev.length ≤ fuel) :
    (∃ rest, lastPart fuel rev = some (.name name, rest)) ↔ NamesFile name rev.reverse := by
  fun_induction lastPart fuel rev with
  | case1 rev =>
    obtain rfl := List.eq_nil_of_length_eq_zero (Nat.le_zero.1 h)
    simpa using not_namesFile_nil
  | case2 fuel => simpa using not_namesFile_nil
  | case3 fuel rev hne text rest p hp =>
    rw [namesFile_reverse_iff text rfl, hp]
    simp
  | case4 fuel rev hne text rest hp ih =>
    have hless : rest.length ≤ fuel := by
      rw [List.length_drop]
      omega
    rw [namesFile_reverse_iff text rfl, hp, ih hless]
    simp [rest]

/-! ### Paths without a name -/

/-- `Idle` characters at the end of a path make no difference. -/
theorem namesFile_append_idle_iff (h : Idle back) :
    NamesFile name (path ++ back) ↔ NamesFile name path := by
  induction h with
  | none => rw [List.append_nil]
  | @next cs dot _ hdot ih =>
    have hnone : part? dot = none := part?_eq_none_iff.2 hdot
    have hslash : '/' ∉ dot := by rcases hdot with rfl | rfl <;> decide
    rw [← ih, ← List.append_assoc, List.append_cons, namesFile_append_iff (.inr ⟨_, rfl⟩) hslash,
      ← part?_eq_name_iff hslash, hnone]
    refine ⟨?_, fun h => .inr ⟨rfl, _, rfl, h⟩⟩
    rintro (h | ⟨-, g, hg, h⟩)
    · cases h
    · rwa [List.append_cancel_right hg]

theorem Nameless.next {dot : List Char} (h : Nameless path) (hdot : dot = [] ∨ dot = ['.']) :
    Nameless (path ++ '/' :: dot) := by
  cases h with
  | idle h => exact .idle (h.next hdot)
  | here h => exact .here (h.next hdot)
  | up leads h =>
    rw [List.append_assoc]
    exact .up leads (h.next hdot)

theorem exists_segment (path : List Char) :
    ∃ front s, path = front ++ s ∧ '/' ∉ s ∧ (front = [] ∨ ∃ g, front = g ++ ['/']) := by
  obtain ⟨text, rest, -, -, hslash, hrev⟩ := takeWhile_cases path.reverse
  have hslash' : '/' ∉ text.reverse := fun hmem => hslash (List.mem_reverse.1 hmem)
  obtain ⟨heq, -⟩ | heq := hrev
  · exact ⟨[], text.reverse, by rw [← heq]; simp, hslash', .inl rfl⟩
  · refine ⟨rest.reverse ++ ['/'], text.reverse, ?_, hslash', .inr ⟨_, rfl⟩⟩
    rw [← List.reverse_reverse path, heq]
    simp

/-- Every path names a file or is `Nameless`. -/
theorem exists_namesFile_or_nameless (path : List Char) :
    (∃ name, NamesFile name path) ∨ Nameless path := by
  obtain ⟨front, s, hpath, hslash, hfront⟩ := exists_segment path
  by_cases hpart : part? s = none
  · obtain rfl | ⟨g, rfl⟩ := hfront
    · right
      rw [hpath, List.nil_append]
      obtain rfl | rfl := part?_eq_none_iff.1 hpart
      · exact .idle .none
      · exact .here .none
    · -- the text in front of the last slash is shorter
      have hshorter : g.length < path.length := by simp [hpath]
      rw [hpath, List.append_assoc]
      obtain ⟨name, hname⟩ | hnone := exists_namesFile_or_nameless g
      · have hidle : Idle ('/' :: s) := Idle.none.next (part?_eq_none_iff.1 hpart)
        exact .inl ⟨name, (namesFile_append_idle_iff hidle).2 hname⟩
      · exact .inr (hnone.next (part?_eq_none_iff.1 hpart))
  · by_cases hup : s = ['.', '.']
    · right
      rw [hpath, hup, ← List.append_nil (front ++ _)]
      exact .up hfront .none
    · left
      rw [part?_eq_none_iff, not_or] at hpart
      have hname : IsName s := ⟨hpart.1, hpart.2, hup, hslash⟩
      rw [hpath]
      exact ⟨s, (namesFile_append_iff hfront hslash).2 (.inl ⟨hname, rfl⟩)⟩
termination_by path.length

/-- A `Nameless` path names no file. -/
theorem not_namesFile_of_nameless (h : Nameless path) : ¬ NamesFile name path := by
  cases h with
  | idle h =>
    rw [← List.nil_append path, namesFile_append_idle_iff h]
    exact not_namesFile_nil
  | @here back h =>
    have hdot : ¬ NamesFile name ([] ++ ['.']) := by
      rw [namesFile_append_iff (.inl rfl) (by decide)]
      rintro (⟨isName, -⟩ | ⟨-, g, hg, -⟩)
      · exact isName.ne_here rfl
      · simp at hg
    exact fun hnames : NamesFile name (['.'] ++ back) =>
      hdot ((namesFile_append_idle_iff h).1 hnames)
  | up leads h =>
    rw [namesFile_append_idle_iff h, namesFile_append_iff leads (by decide)]
    rintro (⟨isName, -⟩ | ⟨hidle, -⟩)
    · exact isName.ne_up rfl
    · cases hidle

/-! ### The start of a path -/

theorem namesFile_slash_iff : NamesFile name ('/' :: path) ↔ NamesFile name path := by
  constructor
  · intro h
    generalize hpath : '/' :: path = whole at h
    obtain ⟨rfl | ⟨f, rfl⟩, isName, idle⟩ := h
    · -- a name does not begin with a slash
      obtain ⟨c, name, rfl⟩ := List.exists_cons_of_ne_nil isName.ne_nil
      obtain ⟨rfl, -⟩ := List.cons.inj hpath
      exact absurd List.mem_cons_self isName.no_slash
    · cases f with
      | nil =>
        obtain ⟨-, rfl⟩ := List.cons.inj hpath
        exact .mk (.inl rfl) isName idle
      | cons c f =>
        obtain ⟨-, rfl⟩ := List.cons.inj hpath
        exact .mk (.inr ⟨f, rfl⟩) isName idle
  · rintro @⟨front, back, leads, isName, idle⟩
    have hleads : Leads ('/' :: front) := by
      obtain rfl | ⟨f, rfl⟩ := leads
      · exact .inr ⟨[], rfl⟩
      · exact .inr ⟨'/' :: f, rfl⟩
    exact .mk hleads isName idle

theorem namesFile_here_iff : NamesFile name ('.' :: '/' :: path) ↔ NamesFile name path := by
  constructor
  · intro h
    generalize hpath : '.' :: '/' :: path = whole at h
    obtain ⟨rfl | ⟨f, rfl⟩, isName, idle⟩ := h
    · -- a name goes on until there is a slash, and is not just a dot
      obtain ⟨c, name, rfl⟩ := List.exists_cons_of_ne_nil isName.ne_nil
      obtain ⟨rfl, hrest⟩ := List.cons.inj hpath
      cases name with
      | nil => exact absurd rfl isName.ne_here
      | cons c name =>
        obtain ⟨rfl, -⟩ := List.cons.inj hrest
        exact absurd (by simp) isName.no_slash
    · cases f with
      | nil => cases hpath
      | cons c f =>
        obtain ⟨-, hrest⟩ := List.cons.inj hpath
        rw [← namesFile_slash_iff, hrest]
        exact .mk (.inr ⟨f, rfl⟩) isName idle
  · rintro @⟨front, back, leads, isName, idle⟩
    have hleads : Leads ('.' :: '/' :: front) := by
      obtain rfl | ⟨f, rfl⟩ := leads
      · exact .inr ⟨['.'], rfl⟩
      · exact .inr ⟨'.' :: '/' :: f, rfl⟩
    exact .mk hleads isName idle

/-- What `leadLength` takes off the start of a path is never the name that it ends in. -/
theorem namesFile_drop_iff (path : List Char) :
    NamesFile name (path.drop (leadLength path)) ↔ NamesFile name path := by
  unfold leadLength
  split
  · exact namesFile_slash_iff.symm
  · exact iff_of_false not_namesFile_nil (not_namesFile_of_nameless (.here .none))
  · exact namesFile_slash_iff.trans namesFile_here_iff.symm
  · exact Iff.rfl

theorem split?_eq_name_iff (path : List Char) :
    (∃ rest, split? path = some (.name name, rest)) ↔ NamesFile name path := by
  have hlength : (path.drop (leadLength path)).reverse.length ≤ path.length := by simp
  rw [← namesFile_drop_iff, ← List.reverse_reverse (path.drop _), ← lastPart_eq_name_iff hlength]
  unfold split?
  dsimp only
  cases lastPart path.length (path.drop (leadLength path)).reverse with
  | some found =>
    obtain ⟨part, rest⟩ := found
    simp
  | none =>
    -- neither the root nor a dot at the start is a name
    refine iff_of_false ?_ (by simp)
    dsimp only
    split <;> simp

/-- **`fileName?` finds `name` exactly if the path `NamesFile name`.** -/
theorem fileName?_eq_some_iff {path name : String} :
    fileName? path = some name ↔ NamesFile name.toList path.toList := by
  rw [← split?_eq_name_iff]
  unfold fileName?
  have hname (text : List Char) : String.ofList text = name ↔ text = name.toList := by
    rw [← String.toList_inj, String.toList_ofList]
  cases split? path.toList with
  | none => simp
  | some found =>
    obtain ⟨part, rest⟩ := found
    cases part with
    | root | here | up => simp
    | name text => simp [hname]

end RadioLink.LogPath
