import TerminalGateway.Http.Authorization
import TerminalGateway.Proofs.Config
import TerminalGateway.Proofs.Message.Accepted

/-!
Where credentials come from: the `auth` messages of a client, and the request for its session.
Both take the brackets off the host that they were given.
-/

namespace TerminalGateway

/-- A host in a pair of brackets. -/
def Credentials.IsWrapped (raw : String) (inner : List Char) : Prop :=
  inner ≠ [] ∧ raw.toList = '[' :: (inner ++ [']'])

/-- A host either loses the one pair of brackets around it or stays as it is. -/
theorem Credentials.unbracket_cases (raw : String) :
    (∃ inner, IsWrapped raw inner ∧ (unbracket raw).toList = inner) ∨
      (∀ inner, ¬ IsWrapped raw inner) ∧ unbracket raw = raw := by
  cases hcs : raw.toList with
  | nil =>
      refine .inr ⟨?_, by simp [unbracket, hcs]⟩
      rintro inner ⟨-, h⟩
      simp [hcs] at h
  | cons c r =>
      by_cases hc : c = '['
      · subst hc
        by_cases hr : r.getLast? = some ']' ∧ r.dropLast ≠ []
        · refine .inl ⟨r.dropLast, ⟨hr.2, ?_⟩, by simp [unbracket, hcs, hr]⟩
          obtain ⟨inner, rfl⟩ := List.getLast?_eq_some_iff.mp hr.1
          simp [hcs]
        · refine .inr ⟨?_, by simp [unbracket, hcs, hr]⟩
          rintro inner ⟨hne, h⟩
          obtain rfl : r = inner ++ [']'] := (List.cons.inj (hcs.symm.trans h)).2
          exact hr ⟨by simp, by simpa using hne⟩
      · refine .inr ⟨?_, ?_⟩
        · rintro inner ⟨-, h⟩
          exact hc (List.cons.inj (hcs.symm.trans h)).1
        · unfold unbracket
          split
          · rename_i r' h
            exact absurd (List.cons.inj (hcs.symm.trans h)).1 hc
          · rfl

/-- A pair of brackets with nothing but blanks in it. -/
def Credentials.IsHollow (raw : String) : Prop :=
  ∃ inner, IsWrapped raw inner ∧ Text.isAllBlank inner = true

theorem Credentials.isAllBlank_unbracket (raw : String) :
    Text.isAllBlank (unbracket raw).toList = true ↔
      Text.isAllBlank raw.toList = true ∨ IsHollow raw := by
  rcases unbracket_cases raw with ⟨inner, hw, hinner⟩ | ⟨hnot, hsame⟩
  · have hraw : ¬ Text.isAllBlank raw.toList = true := by
      simp [hw.2, Text.isAllBlank, Text.isBlank]
    rw [hinner]
    constructor
    · exact fun h => .inr ⟨inner, hw, h⟩
    · rintro (h | ⟨inner', hw', h⟩)
      · exact absurd h hraw
      · obtain rfl : inner' = inner := by simpa [hw.2] using hw'.2.symm
        exact h
  · rw [hsame]
    constructor
    · exact .inl
    · rintro (h | ⟨inner, hw, -⟩)
      · exact h
      · exact absurd hw (hnot inner)

namespace Http

theorem SessionQuery.port_le_of_add? {q q' : SessionQuery} {pair : String × String}
    (hq : ∀ p, q.port = some p → p ≤ 65535) (h : q.add? pair = some q') :
    ∀ p, q'.port = some p → p ≤ 65535 := by
  obtain ⟨name, value⟩ := pair
  simp only [add?] at h
  split at h
  · split at h
    · simp at h
    · obtain rfl := Option.some.inj h
      exact hq
  · split at h
    · split at h
      · simp at h
      · obtain ⟨port, hport, rfl⟩ := Option.map_eq_some_iff.mp h
        rintro p hp
        obtain rfl : port = p := by simpa using hp
        exact Numeral.le_of_read? hport
    · split at h
      · split at h
        · simp at h
        · obtain rfl := Option.some.inj h
          exact hq
      · obtain rfl := Option.some.inj h
        exact hq

theorem SessionQuery.port_le_of_foldlM {pairs : List (String × String)} {q q' : SessionQuery}
    (hq : ∀ p, q.port = some p → p ≤ 65535) (h : pairs.foldlM add? q = some q') :
    ∀ p, q'.port = some p → p ≤ 65535 := by
  induction pairs generalizing q with
  | nil =>
      obtain rfl : q = q' := by simpa using h
      exact hq
  | cons pair pairs ih =>
      rw [List.foldlM_cons] at h
      obtain ⟨mid, hadd, h⟩ := Option.bind_eq_some_iff.mp h
      exact ih (port_le_of_add? hq hadd) h

theorem SessionQuery.port_le {text : List Char} {query : SessionQuery}
    (h : ofText? text = some query) : ∀ p, query.port = some p → p ≤ 65535 :=
  port_le_of_foldlM (by simp) h

/-- The host that a request is for: the one of its query, or else the one of the operator. -/
def namedHost? (query : SessionQuery) (settings : SshSettings) : Option String :=
  (query.host.filter (!·.isEmpty)).orElse fun _ => settings.defaultHost

theorem requestCredentials?_eq_some {authorizations : List String} {query : SessionQuery}
    {settings : SshSettings} {c : Credentials}
    (h : requestCredentials? authorizations query settings = some c) :
    ∃ authorization user password raw, authorizations.head? = some authorization ∧
      basicLogin? authorization = some (user, password) ∧
      namedHost? query settings = some raw ∧
      c = ⟨Credentials.unbracket raw, (query.port.filter (· ≠ 0)).getD settings.defaultPort, user,
        some password, none, none⟩ := by
  simp only [requestCredentials?, Option.bind_eq_bind, Option.bind_eq_some_iff, Option.pure_def,
    Option.some.injEq, Prod.exists] at h
  obtain ⟨authorization, ha, user, password, hl, raw, hr, rfl⟩ := h
  exact ⟨authorization, user, password, raw, ha, hl, hr, rfl⟩

end Http

/-- Credentials that a message of a client or the request for its session brought. -/
inductive Brought : Credentials → Prop
  | message {text : String} {r : AuthRequest} (h : ClientMessage.ofText text = .ok (.auth r)) :
      Brought r.credentials
  | request {authorizations : List String} {query : Http.SessionQuery} {settings : SshSettings}
      {c : Credentials} (h : Http.requestCredentials? authorizations query settings = some c) :
      Brought c

/-- The host as it stood in the message or the request that brought credentials. -/
inductive HostGiven (raw : String) : Credentials → Prop
  | message {text : String} {f : AuthFields} {r : AuthRequest}
      (hf : ClientMessage.authFields? text = some f) (hr : f.check = .ok r)
      (hh : f.host = some raw) : HostGiven raw r.credentials
  | request {authorizations : List String} {query : Http.SessionQuery} {settings : SshSettings}
      {c : Credentials} (h : Http.requestCredentials? authorizations query settings = some c)
      (hh : Http.namedHost? query settings = some raw) : HostGiven raw c

theorem Brought.hostGiven {c : Credentials} (h : Brought c) :
    ∃ raw, HostGiven raw c ∧ c.host = Credentials.unbracket raw := by
  cases h with
  | message h =>
      obtain ⟨f, hf, hr⟩ := ClientMessage.authFields?_of_ofText h
      obtain ⟨-, raw, -, -, hh, -, -, hhost, -⟩ := AuthFields.check_eq_ok hr
      exact ⟨raw, .message hf hr hh, hhost⟩
  | request h =>
      obtain ⟨_, _, _, raw, -, -, hh, hc⟩ := Http.requestCredentials?_eq_some h
      exact ⟨raw, .request h hh, by rw [hc]⟩

/-- Credentials with all that it takes to log in. -/
structure Credentials.Complete (c : Credentials) : Prop where
  username : c.username ≠ ""
  host : Text.isAllBlank c.host.toList = false
  port : 1 ≤ c.port ∧ c.port ≤ 65535
  secret : c.hasSecret = true

theorem Credentials.unbracket_not_blank {raw : String} :
    Text.isAllBlank (unbracket raw).toList = false ↔
      Text.isAllBlank raw.toList = false ∧ ¬ IsHollow raw := by
  rw [← Bool.not_eq_true, isAllBlank_unbracket, not_or, Bool.not_eq_true]

/-- A message with a secret lacks nothing but perhaps a host. -/
theorem AuthFields.complete_iff {f : AuthFields} {r : AuthRequest} (h : f.check = .ok r)
    (hs : r.credentials.hasSecret = true) {raw : String} (hh : f.host = some raw) :
    r.credentials.Complete ↔ ¬ Credentials.IsHollow raw := by
  obtain ⟨user, host, -, hub, hhost, hhb, hu, hc, hlow, hhigh⟩ := AuthFields.check_eq_ok h
  obtain rfl : raw = host := Option.some.inj (hh.symm.trans hhost)
  have huser : r.credentials.username ≠ "" := by
    rw [hu]
    rintro rfl
    simp [Text.isAllBlank] at hub
  constructor
  · intro hcomplete
    have hne := hcomplete.host
    rw [hc, Credentials.unbracket_not_blank] at hne
    exact hne.2
  · intro hnot
    refine ⟨huser, ?_, ⟨hlow, hhigh⟩, hs⟩
    rw [hc, Credentials.unbracket_not_blank]
    exact ⟨hhb, hnot⟩

theorem Http.port_getD_le {query : SessionQuery} {settings : SshSettings}
    (hq : ∀ p, query.port = some p → p ≤ 65535) (hd : settings.defaultPort ≤ 65535) :
    (query.port.filter (· ≠ 0)).getD settings.defaultPort ≤ 65535 := by
  cases hp : query.port.filter (· ≠ 0) with
  | none => exact hd
  | some p => exact hq p (Option.filter_eq_some_iff.mp hp).1

theorem Http.port_getD_eq_zero_iff {query : SessionQuery} {settings : SshSettings} :
    (query.port.filter (· ≠ 0)).getD settings.defaultPort = 0 ↔
      query.port.getD 0 = 0 ∧ settings.defaultPort = 0 := by
  cases hp : query.port with
  | none => simp
  | some p =>
      by_cases h : p = 0 <;> simp [Option.filter, h]

/-- The login of a request lacks nothing if each of its parts was given. -/
theorem Http.complete_iff {query : SessionQuery} {settings : SshSettings} {user password : String}
    {raw : String} {c : Credentials} (hq : ∀ p, query.port = some p → p ≤ 65535)
    (hd : settings.defaultPort ≤ 65535) (hs : c.hasSecret = true)
    (hc : c = ⟨Credentials.unbracket raw, (query.port.filter (· ≠ 0)).getD settings.defaultPort,
      user, some password, none, none⟩) :
    c.Complete ↔ user ≠ "" ∧ Text.isAllBlank raw.toList = false ∧ ¬ Credentials.IsHollow raw ∧
      (query.port.getD 0 ≠ 0 ∨ settings.defaultPort ≠ 0) := by
  have hport : 1 ≤ c.port ↔ query.port.getD 0 ≠ 0 ∨ settings.defaultPort ≠ 0 := by
    rw [Nat.one_le_iff_ne_zero, hc, ne_eq, port_getD_eq_zero_iff, Classical.not_and_iff_not_or_not]
  have hhost : Text.isAllBlank c.host.toList = false ↔
      Text.isAllBlank raw.toList = false ∧ ¬ Credentials.IsHollow raw := by
    rw [hc, Credentials.unbracket_not_blank]
  have hle : c.port ≤ 65535 := by
    rw [hc]
    exact port_getD_le hq hd
  have huser : c.username = user := by rw [hc]
  constructor
  · rintro ⟨hu, hh, hp, -⟩
    obtain ⟨hb, hw⟩ := hhost.mp hh
    exact ⟨huser ▸ hu, hb, hw, hport.mp hp.1⟩
  · rintro ⟨hu, hb, hw, hp⟩
    exact ⟨huser ▸ hu, hhost.mpr ⟨hb, hw⟩, ⟨hport.mpr hp, hle⟩, hs⟩

end TerminalGateway
