import TerminalGateway.Message.Decode
import TerminalGateway.Proofs.Config

/-!
What is known of a message that was accepted. Each rule is inverted once, and a record that passed
its check is read off the rules one after another.
-/

namespace TerminalGateway

theorem requireText_eq_ok {field : Field} {given : Option String} {s : String} :
    requireText field given = .ok s ↔ given = some s ∧ Text.isAllBlank s.toList = false := by
  cases given with
  | none => simp [requireText]
  | some t =>
      cases hb : Text.isAllBlank t.toList with
      | true =>
          simp only [requireText, hb, if_true, reduceCtorEq, false_iff, Option.some.injEq]
          rintro ⟨rfl, hs⟩
          simp [hb] at hs
      | false =>
          simp only [requireText, hb, Bool.false_eq_true, if_false, Except.ok.injEq,
            Option.some.injEq]
          constructor
          · rintro rfl
            exact ⟨rfl, hb⟩
          · exact fun h => h.1

theorem requireWithin_eq_ok {field : Field} {low high n : Nat} {i : Int} :
    requireWithin field low high i = .ok n ↔ low ≤ n ∧ n ≤ high ∧ i = n := by
  simp only [requireWithin]
  split
  · simp only [Except.ok.injEq]
    omega
  · simp only [reduceCtorEq, false_iff]
    omega

theorem optionalWithin_eq_ok {field : Field} {low high : Nat} {given : Option Int}
    {n : Option Nat} (h : optionalWithin field low high given = .ok n) :
    ∀ k, n = some k → low ≤ k ∧ k ≤ high := by
  rintro k rfl
  cases given with
  | none => simp [optionalWithin] at h
  | some i =>
      cases hr : requireWithin field low high i with
      | error rejection => simp [optionalWithin, hr, Except.map] at h
      | ok m =>
          obtain rfl : m = k := by simpa [optionalWithin, hr, Except.map] using h
          obtain ⟨hlow, hhigh, -⟩ := requireWithin_eq_ok.mp hr
          exact ⟨hlow, hhigh⟩

/-- The user and the host of an accepted login stood in its record and were not blank. -/
theorem AuthFields.check_eq_ok {f : AuthFields} {r : AuthRequest} (h : f.check = .ok r) :
    ∃ user host, f.username = some user ∧ Text.isAllBlank user.toList = false ∧
      f.host = some host ∧ Text.isAllBlank host.toList = false ∧
      r.credentials.username = user ∧ r.credentials.host = Credentials.unbracket host ∧
      1 ≤ r.credentials.port ∧ r.credentials.port ≤ 65535 := by
  simp only [AuthFields.check, bind_eq_ok] at h
  obtain ⟨user, hu, host, hh, port, hp, cols, -, rows, -, hr⟩ := h
  obtain rfl := Except.ok.inj hr
  obtain ⟨hu, hub⟩ := requireText_eq_ok.mp hu
  obtain ⟨hh, hhb⟩ := requireText_eq_ok.mp hh
  refine ⟨user, host, hu, hub, hh, hhb, rfl, rfl, ?_⟩
  cases port with
  | none => simp
  | some k => exact optionalWithin_eq_ok hp k rfl

namespace ClientMessage

/-- The payload of a text that is an `auth` message, before its rules are applied. -/
def authFields? (text : String) : Option AuthFields :=
  match Envelope.ofText text with
  | .ok e => if e.kind = "auth" then (readPayload AuthFields.layout e.payload).toOption else none
  | .error _ => none

theorem ofEnvelope_eq_auth {e : Envelope} {r : AuthRequest} (h : ofEnvelope e = .ok (.auth r)) :
    e.kind = "auth" ∧ ∃ f, readPayload AuthFields.layout e.payload = .ok f ∧ f.check = .ok r := by
  unfold ofEnvelope at h
  split at h
  · rename_i hk
    simp only [bind_eq_ok] at h
    obtain ⟨f, hf, r', hr, heq⟩ := h
    obtain rfl : r' = r := by simpa [pure, Except.pure] using heq
    exact ⟨hk, f, hf, hr⟩
  · simp [bind_eq_ok, pure, Except.pure] at h
  · simp [bind_eq_ok, pure, Except.pure] at h
  · simp [bind_eq_ok, pure, Except.pure] at h
  · simp [bind_eq_ok, pure, Except.pure] at h
  · split at h <;> simp at h
  · simp at h

theorem authFields?_of_ofText {text : String} {r : AuthRequest}
    (h : ofText text = .ok (.auth r)) : ∃ f, authFields? text = some f ∧ f.check = .ok r := by
  unfold ofText at h
  split at h
  · rename_i e he
    obtain ⟨hk, f, hf, hr⟩ := ofEnvelope_eq_auth h
    refine ⟨f, ?_, hr⟩
    simp [authFields?, he, hk, hf, Except.toOption]
  · simp at h

end ClientMessage

end TerminalGateway
