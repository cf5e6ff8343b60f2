import TerminalGateway.Proofs.Session.Operations
import TerminalGateway.Proofs.Session.Termination
import TerminalGateway.Service

/-!
What others learn of a session at one step of it. A session that ends gives up its place with its
last word, and no session speaks of its place again.
-/

namespace TerminalGateway

namespace Session

variable {ρ : Type} [Remote ρ] {s : Session ρ}

/-- A session that has come so far from its start. -/
def Begun (s : Session ρ) : Prop :=
  ∃ config remote cached env σs, s = (start config remote cached env).run σs

namespace Begun

theorem start (config : Config) (remote : ρ) (cached : Option Credentials)
    (env : Environment.Pairs) : (Session.start config remote cached env).Begun :=
  ⟨config, remote, cached, env, [], rfl⟩

theorem step (h : s.Begun) (σ : Stimulus) : (s.step σ).Begun := by
  obtain ⟨config, remote, cached, env, σs, rfl⟩ := h
  exact ⟨config, remote, cached, env, σs ++ [σ], by simp [run]⟩

theorem coherent (h : s.Begun) : s.Coherent := by
  obtain ⟨config, remote, cached, env, σs, rfl⟩ := h
  exact (coherent_start config remote cached env).run σs

/-- A session that has ended said last that it left, for the only time. -/
theorem parting (h : s.Begun) (hc : s.phase = .closed) :
    ∃ before, s.record = before ++ [.left] ∧ .left ∉ before := by
  obtain ⟨config, remote, cached, env, σs, rfl⟩ := h
  have hstands := (stands_start config remote cached env).run
    (coherent_start config remote cached env) σs
  obtain ⟨-, before, hr, -, hl⟩ := hstands.parting (isClosing_of_closed hc)
  refine ⟨before ++ [.called .hangUp (.ok ()), .socketClosed], by simp [hr, farewell], ?_⟩
  simpa using hl

theorem news_eq (h : s.Begun) (σ : Stimulus) :
    (s.step σ).record = s.record ++ Service.news s (s.step σ) := by
  obtain ⟨es, hr, -⟩ := h.coherent.operates σ
  rw [Service.news, hr, List.drop_left]

/-- What a session did last: it kept its place, or it gave it up with its last word. -/
theorem news (h : s.Begun) (σ : Stimulus) :
    (s.step σ).registered = s.registered ∧ .left ∉ Service.news s (s.step σ) ∨
      s.registered = true ∧ (s.step σ).registered = false ∧
        ∃ before, Service.news s (s.step σ) = before ++ [.left] ∧ .left ∉ before := by
  have hs := h.coherent
  have ht := (h.step σ).coherent
  have hr := h.news_eq σ
  by_cases hsc : s.phase = .closed
  · obtain ⟨clock, hstep⟩ := step_closing (isClosing_of_closed hsc) σ
    exact .inl ⟨by rw [hstep], by simp [hstep, Service.news]⟩
  have hsr : s.registered = true := by simpa [hsc] using hs.registered
  have hsl : .left ∉ s.record := fun hm => hsc (hs.left.mp hm)
  by_cases htc : (s.step σ).phase = .closed
  · refine .inr ⟨hsr, ht.registered.mpr htc, ?_⟩
    obtain ⟨before, hb, hl⟩ := (h.step σ).parting htc
    rw [hr] at hb
    rcases List.eq_nil_or_concat (Service.news s (s.step σ)) with hn | ⟨init, last, hn⟩
    · rw [hn, List.append_nil] at hb
      exact absurd (hb ▸ List.mem_append_right before List.mem_cons_self) hsl
    · rw [List.concat_eq_append] at hn
      rw [hn, ← List.append_assoc] at hb
      obtain ⟨hinit, hlast⟩ := List.append_inj' hb rfl
      refine ⟨init, by rw [hn, hlast], fun hm => hl ?_⟩
      rw [← hinit]
      exact List.mem_append_right _ hm
  · have htr : (s.step σ).registered = true := by simpa [htc] using ht.registered
    refine .inl ⟨htr.trans hsr.symm, fun hm => htc (ht.left.mp ?_)⟩
    rw [hr]
    exact List.mem_append_right _ hm

end Begun

end Session

end TerminalGateway
