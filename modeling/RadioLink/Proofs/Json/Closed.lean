import RadioLink.Proofs.Json.Balanced
import RadioLink.Proofs.Json.Members

/-!
# Written values are closed

What is read as a value by a balanced reader is `Closed`: it can stand wherever no literal is open,
and the text goes on from the place where it was. So only the last brace of an object closes the
object, and none of its proper beginnings is balanced:

    scan_ne_of_append_eq : object us = cs ++ es → cs ≠ [] → es ≠ [] →
      scan (some (.outside 0)) cs ≠ some (.outside 0)
-/

namespace RadioLink.Json

open Reader Text.Reader

variable {α : Type}

/-! ### Closed text -/

/-- Behind `cs`, a place outside literals is what it was. -/
def Closed (cs : List Char) : Prop := ∀ d, scan (some (.outside d)) cs = some (.outside d)

theorem Closed.append {cs ds : List Char} (h : Closed cs) (h' : Closed ds) : Closed (cs ++ ds) := by
  intro d
  rw [scan_append, h d, h' d]

theorem Closed.cons {c : Char} {cs : List Char} (hc : isNeutral c) (h : Closed cs) :
    Closed (c :: cs) := by
  intro d
  rw [scan_cons, step_outside_of_isNeutral hc, h d]

/-- What a `Balanced` reader reads is `Closed`. -/
theorem closed_of_reads {r : Reader α} (hr : Balanced r) {cs : List Char} {a : α}
    (h : Reads r cs a) : Closed cs := by
  intro d
  have hrun := h endsNumber_nil
  obtain ⟨used, hused, hscan⟩ := hr d _ rfl hrun
  rw [List.append_nil, List.append_nil] at hused
  rw [hused, hscan]

theorem IsLiteral.closed {s : String} {ds : List Char} (h : IsLiteral s ds) : Closed ds :=
  closed_of_reads balanced_text (reads_text h)

theorem closed_flatMap {us : List (List Char)} (h : ∀ u ∈ us, Closed u) :
    Closed (us.flatMap (',' :: ·)) := by
  induction us with
  | nil => exact fun _ => rfl
  | cons u us ih =>
    rw [List.flatMap_cons]
    have hu := (h u List.mem_cons_self).cons (c := ',') (by decide)
    exact hu.append (ih fun u' hu' => h u' (List.mem_cons_of_mem _ hu'))

theorem closed_commaSeparated {us : List (List Char)} (h : ∀ u ∈ us, Closed u) :
    Closed (commaSeparated us) := by
  cases us with
  | nil => exact fun _ => rfl
  | cons u us =>
    rw [commaSeparated_cons]
    exact (h u List.mem_cons_self).append
      (closed_flatMap fun u' hu' => h u' (List.mem_cons_of_mem _ hu'))

/-- A member is `Closed` when its value is. -/
theorem closed_member {name : String} {ds v : List Char} (hname : IsLiteral name ds)
    (hv : Closed v) : Closed (ds ++ ':' :: v) := hname.closed.append (hv.cons (by decide))

/-- Printed members are `Closed`, however they are respaced, when each of them is. -/
theorem forall_closed_of_forall₂ {ts us : List (List Char)}
    (h : ∀ t ∈ ts, ∀ u, Respaced t u → Closed u) (hus : List.Forall₂ Respaced ts us) :
    ∀ u ∈ us, Closed u := by
  induction hus with
  | nil =>
    intro u hu
    cases hu
  | cons htu _ ih =>
    intro u hu
    rcases List.mem_cons.1 hu with rfl | hu
    · exact h _ List.mem_cons_self _ htu
    · exact ih (fun t ht => h t (List.mem_cons_of_mem _ ht)) u hu

/-! ### Beginnings of an object -/

/-- The place with one more bracket open around it. -/
def Place.raise : Place → Place
  | .outside d => .outside (d + 1)
  | .inside d => .inside (d + 1)
  | .escape d => .escape (d + 1)

theorem Place.next_raise {p p' : Place} {c : Char} (h : p.next c = some p') :
    p.raise.next c = some p'.raise := by
  cases p with
  | outside d =>
    simp only [Place.raise, Place.next] at h ⊢
    split at h
    · next hc =>
      cases h
      rw [if_pos hc]
    next hc =>
    rw [if_neg hc]
    split at h
    · next hquote =>
      cases h
      rw [if_pos hquote]
    next hquote =>
    rw [if_neg hquote]
    split at h
    · next hopen =>
      cases h
      rw [if_pos hopen]
    next hopen =>
    rw [if_neg hopen]
    split at h
    · next hclose =>
      rw [if_pos hclose]
      -- only here the depth matters: the last bracket cannot be closed from inside
      cases d with
      | zero => cases h
      | succ d =>
        cases h
        rfl
    · cases h
  | inside d =>
    simp only [Place.raise, Place.next] at h ⊢
    split at h
    · next hquote =>
      cases h
      rw [if_pos hquote]
    next hquote =>
    rw [if_neg hquote]
    split at h
    · next hslash =>
      cases h
      rw [if_pos hslash]
    · next hslash =>
      cases h
      rw [if_neg hslash]
  | escape d =>
    cases h
    rfl

/-- `scan` goes through the same text with one more bracket open. -/
theorem scan_raise {p p' : Place} {cs : List Char} (h : scan (some p) cs = some p') :
    scan (some p.raise) cs = some p'.raise := by
  induction cs generalizing p with
  | nil =>
    cases h
    rfl
  | cons c cs ih =>
    rw [scan_cons] at h ⊢
    cases hnext : p.next c with
    | none =>
      rw [step, Option.bind_some, hnext, scan_none] at h
      cases h
    | some p₁ =>
      rw [step, Option.bind_some, hnext] at h
      rw [step, Option.bind_some, Place.next_raise hnext]
      exact ih h

/-- **No proper beginning of an object is balanced.** -/
theorem scan_ne_of_append_eq {us : List (List Char)} (hus : ∀ u ∈ us, Closed u)
    {cs es : List Char} (h : object us = cs ++ es) (hcs : cs ≠ []) (hes : es ≠ []) :
    scan (some (.outside 0)) cs ≠ some (.outside 0) := by
  cases cs with
  | nil => exact absurd rfl hcs
  | cons c cs =>
    rw [object, List.cons_append] at h
    obtain ⟨rfl, hinner⟩ := List.cons.inj h
    -- the part behind the brace is a beginning of the members, which are read at any depth
    have hmembers : commaSeparated us = cs ++ es.dropLast := by
      have hdrop := congrArg List.dropLast hinner
      rwa [List.dropLast_concat, List.dropLast_append_of_ne_nil hes] at hdrop
    have hclosed := closed_commaSeparated hus 0
    rw [hmembers, scan_append] at hclosed
    cases hscan : scan (some (.outside 0)) cs with
    | none =>
      rw [hscan, scan_none] at hclosed
      cases hclosed
    | some p =>
      intro hzero
      have hraise : scan (some (.outside 0)) ('\x7b' :: cs) = some p.raise := scan_raise hscan
      rw [hraise] at hzero
      cases p <;> cases hzero

end RadioLink.Json
