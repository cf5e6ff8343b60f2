import TerminalGateway.Proofs.Json.Spelling

/-!
Numbers in a text. A number that is read by itself is read in the same way before anything that
cannot belong to it, and passing over it ends where reading does.
-/

namespace TerminalGateway.Json

/-- What is read from a text is read in the same way if something else than a number follows. -/
def IsLocal {α : Type} (read : Cursor → Reading α) : Prop :=
  ∀ {cs ds : List Char} {p q : Position} {a : α}, read ⟨cs, p⟩ = .ok (a, ⟨ds, q⟩) →
    ∀ {rest}, EndsNumber rest → ∀ p', ∃ q', read ⟨cs ++ rest, p'⟩ = .ok (a, ⟨ds ++ rest, q'⟩)

variable {cs ds rest : List Char} {p q : Position}

/-! ### Digits -/

theorem EndsNumber.takeWhile_append (h : EndsNumber rest) :
    (cs ++ rest).takeWhile Numeral.isDigit = cs.takeWhile Numeral.isDigit := by
  induction cs with
  | nil =>
      cases rest with
      | nil => rfl
      | cons x rest => simp [h.1]
  | cons x cs ih => simp [List.takeWhile_cons, ih]

theorem EndsNumber.dropWhile_append (h : EndsNumber rest) :
    (cs ++ rest).dropWhile Numeral.isDigit = cs.dropWhile Numeral.isDigit ++ rest := by
  induction cs with
  | nil =>
      cases rest with
      | nil => rfl
      | cons x rest => simp [h.1]
  | cons x cs ih =>
      simp only [List.cons_append, List.dropWhile_cons]
      split
      · exact ih
      · rfl

theorem takeDigits_append (cs : List Char) (hrest : EndsNumber rest) (p p' : Position) :
    ∃ q, (⟨cs ++ rest, p'⟩ : Cursor).takeDigits =
      ((⟨cs, p⟩ : Cursor).takeDigits.1, ⟨(⟨cs, p⟩ : Cursor).takeDigits.2.rest ++ rest, q⟩) :=
  ⟨_, by
    simp only [Cursor.takeDigits, hrest.takeWhile_append, hrest.dropWhile_append]
    rfl⟩

/-- What would belong to a number is seen only in the number itself. -/
theorem sees_append (cs : List Char) (see : Char → Bool) (hrest : EndsNumber rest)
    (hsee : ∀ x, Numeral.isDigit x = false ∧ x ≠ '.' ∧ isPowerMark x = false → see x = false)
    (p p' : Position) :
    (⟨cs ++ rest, p'⟩ : Cursor).sees see = (⟨cs, p⟩ : Cursor).sees see := by
  cases cs with
  | nil => exact hrest.sees hsee p'
  | cons x cs => rfl

theorem isLocal_takeDigits : IsLocal fun c => .ok c.takeDigits := by
  intro cs ds p q a h rest hrest p'
  obtain ⟨q', hq'⟩ := takeDigits_append cs hrest p p'
  simp only [Except.ok.injEq] at h ⊢
  exact ⟨q', by rw [hq', h]⟩

/-! ### Parts of numbers -/

theorem isLocal_readWhole : IsLocal readWhole := by
  intro cs ds p q whole h rest hrest p'
  cases cs with
  | nil => simp [readWhole] at h
  | cons x cs =>
      have hdigit := sees_append cs Numeral.isDigit hrest (fun _ h => h.1)
        (p.past x) (p'.past x)
      by_cases hx : x = '0'
      · cases hsees : (⟨cs, p.past x⟩ : Cursor).sees Numeral.isDigit with
        | true => simp [readWhole, Cursor.advance, hx, hx ▸ hsees] at h
        | false =>
            rw [hsees] at hdigit
            subst hx
            obtain ⟨rfl, rfl, -⟩ : ['0'] = whole ∧ cs = ds ∧ p.past '0' = q := by
              simpa [readWhole, Cursor.advance, hsees] using h
            exact ⟨p'.past '0', by simp [readWhole, Cursor.advance, hdigit]⟩
      · simp only [readWhole, List.cons_append, if_neg hx] at h ⊢
        split at h
        · rename_i hd
          rw [if_pos hd]
          exact isLocal_takeDigits h hrest p'
        · simp at h

theorem isLocal_readPlaces : IsLocal readPlaces := by
  intro cs ds p q places h rest hrest p'
  obtain ⟨q', hq'⟩ := takeDigits_append cs hrest p p'
  simp only [readPlaces, hq'] at h ⊢
  split at h
  · simp at h
  · rename_i hdigits
    obtain ⟨rfl, hafter⟩ := Prod.mk.inj (Except.ok.inj h)
    refine ⟨q', ?_⟩
    rw [if_neg hdigits, hafter]

theorem isLocal_readPower (significand : Nat) : IsLocal (readPower significand) := by
  intro cs ds p q power h rest hrest p'
  cases cs with
  | nil => simp [readPower, readPowerSign, Cursor.sees, Cursor.takeDigits] at h
  | cons x cs =>
      have hsign : ∃ negative tail p₁ p₂, readPowerSign ⟨x :: cs, p⟩ = (negative, ⟨tail, p₁⟩) ∧
          readPowerSign ⟨x :: cs ++ rest, p'⟩ = (negative, ⟨tail ++ rest, p₂⟩) := by
        simp only [readPowerSign, Cursor.sees, Cursor.advance, List.cons_append]
        by_cases hplus : x = '+'
        · exact ⟨false, cs, p.past x, p'.past x, by simp [hplus], by simp [hplus]⟩
        by_cases hminus : x = '-'
        · exact ⟨true, cs, p.past x, p'.past x, by simp [hminus], by simp [hminus]⟩
        · exact ⟨false, x :: cs, p, p', by simp [hplus, hminus], by simp [hplus, hminus]⟩
      obtain ⟨negative, tail, p₁, p₂, hs, hs'⟩ := hsign
      obtain ⟨q', hq'⟩ := takeDigits_append tail hrest p₁ p₂
      simp only [readPower, hs, hs', hq'] at h ⊢
      split at h
      · simp at h
      rename_i hdigits
      rw [if_neg hdigits]
      split at h
      · obtain ⟨rfl, hafter⟩ := Prod.mk.inj (Except.ok.inj h)
        exact ⟨q', by rw [hafter]⟩
      · split at h
        · simp at h
        · rename_i hheld
          obtain ⟨rfl, hafter⟩ := Prod.mk.inj (Except.ok.inj h)
          exact ⟨q', by rw [if_neg hheld, hafter]⟩

theorem isLocal_roundAt (negative : Bool) (significand : Nat) (exponent : Option Int) :
    IsLocal (roundAt negative significand exponent) := by
  intro cs ds p q n h rest _ p'
  cases exponent with
  | none =>
      simp only [roundAt, Except.ok.injEq, Prod.mk.injEq, Cursor.mk.injEq] at h ⊢
      obtain ⟨rfl, rfl, -⟩ := h
      exact ⟨p', rfl, rfl, rfl⟩
  | some e =>
      simp only [roundAt] at h ⊢
      split at h
      · simp only [Except.ok.injEq, Prod.mk.injEq, Cursor.mk.injEq] at h ⊢
        obtain ⟨rfl, rfl, -⟩ := h
        exact ⟨p', rfl, rfl, rfl⟩
      · simp at h

theorem isLocal_readScaled (negative : Bool) (significand : Nat) (exponent : Int) :
    IsLocal (readScaled negative significand exponent) := by
  intro cs ds p q n h rest hrest p'
  have hmark := sees_append cs isPowerMark hrest (fun _ h => h.2.2) p p'
  simp only [readScaled, hmark] at h ⊢
  split at h
  · rename_i hsees
    rw [if_pos hsees]
    cases cs with
    | nil => simp [Cursor.sees] at hsees
    | cons x cs =>
        simp only [Cursor.advance, List.cons_append] at h ⊢
        split at h
        · simp at h
        · rename_i power c hpower
          obtain ⟨p₁, hp₁⟩ := isLocal_readPower significand hpower hrest (p'.past x)
          simp only [hp₁]
          exact isLocal_roundAt _ _ _ h hrest p₁
  · rename_i hsees
    rw [if_neg hsees]
    exact isLocal_roundAt _ _ _ h hrest p'

theorem isLocal_readFigure (negative : Bool) : IsLocal (readFigure negative) := by
  intro cs ds p q n h rest hrest p'
  simp only [readFigure] at h
  split at h
  · simp at h
  rename_i whole c hwhole
  obtain ⟨tail, p₀⟩ := c
  obtain ⟨p₁, hp₁⟩ := isLocal_readWhole hwhole hrest p'
  have hpoint := sees_append tail (· = '.') hrest
    (fun _ h => by simpa using h.2.1) p₀ p₁
  have hmark := sees_append tail isPowerMark hrest (fun _ h => h.2.2) p₀ p₁
  simp only [readFigure, hp₁, hpoint, hmark]
  split at h
  · rename_i hsees
    rw [if_pos hsees]
    cases tail with
    | nil => simp [Cursor.sees] at hsees
    | cons x tail =>
        simp only [Cursor.advance, List.cons_append] at h ⊢
        split at h
        · simp at h
        · rename_i places c hplaces
          obtain ⟨p₂, hp₂⟩ := isLocal_readPlaces hplaces hrest (p₁.past x)
          simp only [hp₂]
          exact isLocal_readScaled _ _ _ h hrest p₂
  · rename_i hsees
    rw [if_neg hsees]
    split at h
    · rename_i hscaled
      rw [if_pos hscaled]
      exact isLocal_readScaled _ _ _ h hrest p₁
    · rename_i hscaled
      rw [if_neg hscaled]
      split at h
      · obtain ⟨rfl, hafter⟩ := Prod.mk.inj (Except.ok.inj h)
        obtain ⟨rfl, -⟩ := Cursor.mk.inj hafter
        exact ⟨p₁, rfl⟩
      · exact isLocal_roundAt _ _ _ h hrest p₁

/-! ### Passing over numbers -/

section Skip

variable {c c' : Cursor} {negative : Bool} {n : Number}

theorem skipDigits_of_readPlaces {places : List Char} (h : readPlaces c = .ok (places, c')) :
    skipDigits c = .ok c' := by
  simp only [readPlaces, skipDigits] at h ⊢
  split at h
  · simp at h
  · rename_i hdigits
    rw [if_neg hdigits, (Prod.mk.inj (Except.ok.inj h)).2]

theorem skipDigits_of_readPower {significand : Nat} {power : Option Int}
    (h : readPower significand c = .ok (power, c')) :
    skipDigits (readPowerSign c).2 = .ok c' := by
  simp only [readPower, skipDigits] at h ⊢
  split at h
  · simp at h
  rename_i hdigits
  rw [if_neg hdigits]
  split at h
  · rw [(Prod.mk.inj (Except.ok.inj h)).2]
  · split at h
    · simp at h
    · rw [(Prod.mk.inj (Except.ok.inj h)).2]

theorem eq_of_roundAt {significand : Nat} {exponent : Option Int}
    (h : roundAt negative significand exponent c = .ok (n, c')) : c = c' := by
  unfold roundAt at h
  split at h
  · exact (Prod.mk.inj (Except.ok.inj h)).2
  · split at h
    · exact (Prod.mk.inj (Except.ok.inj h)).2
    · simp at h

theorem skip_of_readScaled {significand : Nat} {exponent : Int}
    (h : readScaled negative significand exponent c = .ok (n, c')) :
    c.sees isPowerMark = true ∧ skipDigits (readPowerSign c.advance).2 = .ok c' ∨
      c.sees isPowerMark = false ∧ c = c' := by
  unfold readScaled at h
  split at h
  · rename_i hmark
    split at h
    · simp at h
    · rename_i hpower
      exact .inl ⟨hmark, eq_of_roundAt h ▸ skipDigits_of_readPower hpower⟩
  · rename_i hmark
    exact .inr ⟨by simpa using hmark, eq_of_roundAt h⟩

theorem skip_of_readWhole {whole : List Char} (h : readWhole c = .ok (whole, c')) :
    c.sees (· = '0') = true ∧ c.advance.sees Numeral.isDigit = false ∧ c.advance = c' ∨
      c.sees (· = '0') = false ∧ skipDigits c = .ok c' := by
  obtain ⟨cs, p⟩ := c
  cases cs with
  | nil => simp [readWhole] at h
  | cons x cs =>
      simp only [readWhole] at h
      split at h
      · rename_i hx
        split at h
        · simp at h
        · rename_i hsees
          exact .inl ⟨by simp [Cursor.sees, hx], by simpa using hsees,
            (Prod.mk.inj (Except.ok.inj h)).2⟩
      · rename_i hx
        split at h
        · rename_i hd
          have hdigits : (⟨x :: cs, p⟩ : Cursor).takeDigits.1 ≠ [] := by
            simp [Cursor.takeDigits, hd]
          refine .inr ⟨by simp [Cursor.sees, hx], ?_⟩
          rw [Except.ok.injEq] at h
          simp only [h] at hdigits
          simp [skipDigits, h, hdigits]
        · simp at h

/-- Passing over a number is passing over its three parts. -/
theorem skipFigure_of_parts {c₁ c₂ : Cursor}
    (hwhole : c.sees (· = '0') = true ∧ c.advance.sees Numeral.isDigit = false ∧ c.advance = c₁ ∨
      c.sees (· = '0') = false ∧ skipDigits c = .ok c₁)
    (hplaces : c₁.sees (· = '.') = true ∧ skipDigits c₁.advance = .ok c₂ ∨
      c₁.sees (· = '.') = false ∧ c₁ = c₂)
    (hpower : c₂.sees isPowerMark = true ∧ skipDigits (readPowerSign c₂.advance).2 = .ok c' ∨
      c₂.sees isPowerMark = false ∧ c₂ = c') : skipFigure c = .ok c' := by
  simp only [skipFigure, bind, Except.bind, pure, Except.pure]
  obtain ⟨hzero, hdigit, rfl⟩ | ⟨hzero, hdigits⟩ := hwhole <;>
    obtain ⟨hpoint, hplaces⟩ | ⟨hpoint, rfl⟩ := hplaces <;>
    obtain ⟨hmark, hpower⟩ | ⟨hmark, rfl⟩ := hpower <;>
    simp [*]

/-- Passing over a number ends where reading it does. -/
theorem skipFigure_of_readFigure (h : readFigure negative c = .ok (n, c')) :
    skipFigure c = .ok c' := by
  simp only [readFigure] at h
  split at h
  · simp at h
  rename_i whole c₁ hwhole
  have hdigits := skip_of_readWhole hwhole
  split at h
  · rename_i hpoint
    split at h
    · simp at h
    · rename_i hplaces
      exact skipFigure_of_parts hdigits (.inl ⟨hpoint, skipDigits_of_readPlaces hplaces⟩)
        (skip_of_readScaled h)
  rename_i hpoint
  have hplaces : c₁.sees (· = '.') = true ∧ skipDigits c₁.advance = .ok c₁ ∨
      c₁.sees (· = '.') = false ∧ c₁ = c₁ := .inr ⟨by simpa using hpoint, rfl⟩
  split at h
  · exact skipFigure_of_parts hdigits hplaces (skip_of_readScaled h)
  rename_i hscaled
  have hmark : c₁.sees isPowerMark = false := by
    rw [Bool.or_eq_true, not_or] at hscaled
    simpa using hscaled.1
  split at h
  · exact skipFigure_of_parts hdigits hplaces (.inr ⟨hmark, (Prod.mk.inj (Except.ok.inj h)).2⟩)
  · exact skipFigure_of_parts hdigits hplaces (.inr ⟨hmark, eq_of_roundAt h⟩)

end Skip

end TerminalGateway.Json
