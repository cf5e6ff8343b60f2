import TerminalGateway.Proofs.Session.Coherence
import TerminalGateway.Session.Sources

/-!
What a session hears from its sources is what it heeds, so at each turn it moves unless there is
nothing to be heard.
-/

namespace TerminalGateway.Sources

open Session

variable {ρ : Type} {k : Sources ρ} {t : Turn} {σ : Session.Stimulus}

@[simp] theorem session_spent (k : Sources ρ) (t : Turn) : (k.spent t).session = k.session := by
  cases t <;> rfl

/-- What is heard is heeded, but for word that some of the countdown was missed. -/
theorem heeds_of_heard (h : k.heard? t = some σ) :
    k.session.heeds σ = true ∨ ∃ n, t = .countdown ∧ σ = .countdown (.lagged n) := by
  cases t with
  | elapse =>
      obtain rfl := Option.some.inj h
      exact .inl rfl
  | countdown =>
      simp only [heard?, Option.ite_none_right_eq_some, Option.map_eq_some_iff] at h
      obtain ⟨hi, r, -, rfl⟩ := h
      cases r with
      | value _ => exact .inl hi
      | lagged n => exact .inr ⟨n, rfl, rfl⟩
  | client =>
      simp only [heard?, Option.ite_none_right_eq_some, Option.some.injEq] at h
      obtain ⟨hi, rfl⟩ := h
      cases k.messages <;> exact .inl hi
  | stream =>
      simp only [heard?, Option.ite_none_right_eq_some, Option.map_eq_some_iff] at h
      obtain ⟨hi, n, hn, rfl⟩ := h
      exact .inl (by simp [heeds, hi, hn])
  | prompt =>
      simp only [heard?, Option.ite_none_right_eq_some, Option.map_eq_some_iff] at h
      obtain ⟨hi, p, -, rfl⟩ := h
      exact .inl hi
  | lookup _ | settle | resume | expire =>
      simp only [heard?, Option.ite_none_right_eq_some, Option.some.injEq] at h
      obtain ⟨hi, rfl⟩ := h
      exact .inl hi

theorem heard?_eq_elapse (h : k.heard? t = some .elapse) : t = .elapse := by
  cases t with
  | elapse => rfl
  | client =>
      simp only [heard?, Option.ite_none_right_eq_some, Option.some.injEq] at h
      cases hm : k.messages <;> simp [hm] at h
  | stream | countdown | prompt | lookup _ | settle | resume | expire => simp [heard?] at h

variable [Remote ρ]

theorem step_of_heard (h : k.heard? t = some σ) :
    k.step t = { k.spent t with session := k.session.step σ } := by
  simp only [step, h]

theorem step_of_unheard (h : k.heard? t = none) : k.step t = k := by
  simp only [step, h]

theorem moves_of_heard (hs : k.session.Coherent) (h : k.heard? t = some σ) (ht : t ≠ .elapse) :
    k.session.Open ∧ Moves k.session σ (k.session.step σ) ∨
      t = .countdown ∧ k.session.step σ = k.session := by
  have hσ : σ ≠ .elapse := by
    rintro rfl
    exact ht (heard?_eq_elapse h)
  rcases heeds_of_heard h with hh | ⟨n, rfl, rfl⟩
  · exact .inl (hs.moves_of_heeds hh hσ)
  · refine .inr ⟨rfl, ?_⟩
    rcases hs.step_cases (.countdown (.lagged n)) with ⟨he, -⟩ | heq | ⟨-, hm⟩
    · simp at he
    · exact heq
    · cases hm

theorem session_step (k : Sources ρ) (t : Turn) :
    (k.step t).session = k.session.run (k.heard? t).toList := by
  cases h : k.heard? t with
  | none => simp [step_of_unheard h, Session.run]
  | some σ => simp [step_of_heard h, Session.run]

theorem session_after (k : Sources ρ) (schedule : Nat → Turn) {n m : Nat} (hnm : n ≤ m) :
    ∃ σs, (k.after schedule m).session = (k.after schedule n).session.run σs := by
  induction hnm with
  | refl => exact ⟨[], rfl⟩
  | @step m _ ih =>
      obtain ⟨σs, hm⟩ := ih
      refine ⟨σs ++ ((k.after schedule m).heard? (schedule m)).toList, ?_⟩
      rw [after, session_step, hm, Session.run_append]

theorem coherent_after (h : k.session.Coherent) (schedule : Nat → Turn) (n : Nat) :
    (k.after schedule n).session.Coherent := by
  obtain ⟨σs, hn⟩ := k.session_after schedule (Nat.zero_le n)
  rw [hn]
  exact h.run σs

end TerminalGateway.Sources
