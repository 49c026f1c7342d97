import RadioLink.Json.Shape
import RadioLink.Proofs.Reading

/-!
# Blanks between tokens

Whoever reads JSON looks for the next token first, so it does not matter how many blanks there are
in front of a value, a name, a colon or a bracket:

    Lenient r : IsBlanks g → r.run (g ++ cs) = r.run cs

Inside a literal, a word or a number there are no tokens, and blanks there are not passed over.
-/

namespace RadioLink.Json

open Reader Text.Reader

variable {α β σ : Type} {g h cs : List Char}

/-- `g` is made of blanks only. -/
def IsBlanks (g : List Char) : Prop := ∀ c ∈ g, isBlank c = true

theorem isBlanks_nil : IsBlanks [] := nofun

theorem IsBlanks.append (hg : IsBlanks g) (hh : IsBlanks h) : IsBlanks (g ++ h) := by
  intro c hc
  rcases List.mem_append.1 hc with hc | hc
  · exact hg c hc
  · exact hh c hc

theorem IsBlanks.dropWhile_append (hg : IsBlanks g) (cs : List Char) :
    (g ++ cs).dropWhile isBlank = cs.dropWhile isBlank := List.dropWhile_append_of_pos hg

/-- `r` does not care for blanks in front of what it reads. -/
def Lenient (r : Reader α) : Prop := ∀ ⦃g⦄, IsBlanks g → ∀ cs, r.run (g ++ cs) = r.run cs

theorem Lenient.bind {r : Reader α} (hr : Lenient r) (f : α → Reader β) : Lenient (r >>= f) := by
  intro g hg cs
  rw [run_bind, run_bind, hr hg]

/-! ### Tokens -/

theorem lenient_take (fault : Fault) : Lenient (take fault) := by
  intro g hg cs
  simp only [take, hg.dropWhile_append]

theorem lenient_token : Lenient token := by
  refine Lenient.bind (fun g hg cs => ?_) _
  show Except.ok _ = Except.ok _
  rw [hg.dropWhile_append]

theorem lenient_colon : Lenient colon := lenient_token.bind _

theorem lenient_atEnd : Lenient atEnd := lenient_token.bind _

/-- `atEnd` takes blanks at the end of a text. -/
theorem run_atEnd_of_isBlanks (hg : IsBlanks g) : atEnd.run g = .ok ((), []) := by
  have hrun := lenient_atEnd hg []
  rwa [List.append_nil] at hrun

/-! ### Values -/

theorem lenient_integer (low high : Int) (expected : String) :
    Lenient (integer low high expected) := (lenient_take _).bind _

theorem lenient_int64 : Lenient int64 := (lenient_integer _ _ _).bind _

theorem lenient_uint8 : Lenient uint8 := (lenient_integer _ _ _).bind _

theorem lenient_text : Lenient text := (lenient_take _).bind _

theorem lenient_checkedText (check : String → Except String α) : Lenient (checkedText check) :=
  lenient_text.bind _

theorem lenient_orNull (r : Reader α) : Lenient (orNull r) := lenient_token.bind _

theorem lenient_record (expected : String) (object elements : Reader α) :
    Lenient (record expected object elements) := (lenient_take _).bind _

theorem lenient_textObject (insert : σ → String → String → σ) (empty : σ) :
    Lenient (textObject insert empty) := (lenient_take _).bind _

theorem lenient_skippedStep (comma : Bool) (innermost : Container) (outer : List Container) :
    Lenient (skippedStep comma innermost outer) := (lenient_take _).bind _

theorem lenient_skippedValue : Lenient skippedValue := ((lenient_take _).bind _ :
  Lenient (skippedStart [])).bind _

theorem lenient_memberName? (first : Bool) : Lenient (memberName? first) := (lenient_take _).bind _

end RadioLink.Json
