import TerminalGateway.Proofs.Session.Moves
import TerminalGateway.Proofs.Session.Record

/-!
A session without its secrets. Of each secret nothing is left but whether it is there and whether
it is empty, and of the server side nothing but its answers.
-/

namespace TerminalGateway

namespace Credentials

def masked (secret : String) : String := if secret.isEmpty then "" else "*"

def redact (c : Credentials) : Credentials :=
  { c with
    password := c.password.map masked
    privateKey := c.privateKey.map masked
    passphrase := c.passphrase.map masked }

@[simp] theorem host_redact (c : Credentials) : c.redact.host = c.host := rfl

@[simp] theorem port_redact (c : Credentials) : c.redact.port = c.port := rfl

@[simp] theorem label_redact (c : Credentials) : c.redact.label = c.label := rfl

theorem isEmpty_masked (secret : String) : (masked secret).isEmpty = secret.isEmpty := by
  unfold masked
  split
  · simp [*]
  · rename_i h
    simp only [Bool.not_eq_true] at h
    rw [h]
    rfl

@[simp] theorem hasSecret_redact (c : Credentials) : c.redact.hasSecret = c.hasSecret := by
  have hgiven : ∀ s : Option String, isGiven (s.map masked) = isGiven s := by
    rintro (_ | s)
    · rfl
    · simp [isGiven, isEmpty_masked]
  simp [hasSecret, redact, hgiven]

end Credentials

def Inbound.redact : Inbound → Inbound
  | .ok (.auth r) => .ok (.auth { r with credentials := r.credentials.redact })
  | m => m

def Session.Stimulus.redact : Stimulus → Stimulus
  | .message m => .message (Inbound.redact m)
  | σ => σ

@[simp] theorem Session.Stimulus.redact_eq_elapse {σ : Stimulus} :
    σ.redact = .elapse ↔ σ = .elapse := by
  cases σ <;> simp [Stimulus.redact]

@[simp] theorem Session.Stimulus.redact_eq_resume {σ : Stimulus} :
    σ.redact = .resume ↔ σ = .resume := by
  cases σ <;> simp [Stimulus.redact]

/-- An entry without secrets, and with something else in the place of what was written if it must
not be shown. -/
def Entry.redact (typed : Option Octets) : Entry → Entry
  | .handled m => .handled (Inbound.redact m)
  | .vetted c found => .vetted c.redact found
  | .called (.connect c) outcome => .called (.connect c.redact) outcome
  | .called (.write bytes) outcome => .called (.write (typed.getD bytes)) outcome
  | e => e

/-- The answer of the server side that an entry tells. -/
def Entry.reply? : Entry → Option Outcome
  | .settled outcome | .called (.shell _ _) outcome | .called (.exec _ _ _) outcome
  | .called (.write _) outcome | .called (.resize _) outcome => some outcome
  | _ => none

namespace Record

/-- The client asked just now that its password be typed. -/
def asked (record : List Entry) : Bool :=
  record.getLast? = some (.handled (.ok (.control .replayCredentials)))

/-- A record without secrets. What is written right after a request to type the password stands
for that password. -/
def redact (typed : Option Octets) (record : List Entry) : List Entry :=
  record.foldl (fun done e => done ++ [e.redact (if asked done then typed else none)]) []

def replies (record : List Entry) : List Outcome := record.filterMap Entry.reply?

@[simp] theorem redact_snoc (typed : Option Octets) (record : List Entry) (e : Entry) :
    redact typed (record ++ [e]) = redact typed record ++
      [e.redact (if asked (redact typed record) then typed else none)] := by
  rw [redact, List.foldl_append]
  rfl

@[simp] theorem replies_append (record es : List Entry) :
    replies (record ++ es) = replies record ++ replies es := by
  simp [replies]

theorem redact_of_reply?_eq_none {e : Entry} (h : e.reply? = none) (typed : Option Octets) :
    e.redact typed = e.redact none := by
  cases e with
  | called what outcome => cases what <;> first | rfl | simp [Entry.reply?] at h
  | _ => rfl

theorem redact_append {es : List Entry} (h : replies es = []) (typed : Option Octets)
    (record : List Entry) :
    redact typed (record ++ es) = redact typed record ++ es.map (Entry.redact none) := by
  induction es generalizing record with
  | nil => simp
  | cons e es ih =>
      obtain ⟨he, hes⟩ : e.reply? = none ∧ replies es = [] := by
        simpa [replies] using h
      rw [List.append_cons, ih hes, redact_snoc, redact_of_reply?_eq_none he]
      simp

theorem events_redact (typed : Option Octets) (record : List Entry) :
    events (redact typed record) = events record := by
  have hfold : ∀ (es done : List Entry),
      events (es.foldl (fun done e => done ++ [e.redact (if asked done then typed else none)])
        done) = events done ++ events es := by
    intro es
    induction es with
    | nil => simp [events]
    | cons e es ih =>
        intro done
        rw [List.foldl_cons, ih]
        cases e with
        | called what outcome => cases what <;> simp [events, Entry.redact]
        | _ => simp [events, Entry.redact]
  exact hfold record []

end Record

/-- A server side of which nothing is known but its answers. -/
structure Replies where
  rest : List Outcome

namespace Replies

def next (r : Replies) : Replies × Outcome := (⟨r.rest.tail⟩, r.rest.head?.getD (.ok ()))

instance : Remote Replies where
  connect r _ := r
  settle := next
  shell r _ _ := r.next
  exec r _ _ _ := r.next
  write r _ := r.next
  resize r _ := r.next
  closeStream r := r
  hangUp r := r

@[simp] theorem connect_eq (r : Replies) (c : Credentials) : Remote.connect r c = r := rfl

@[simp] theorem closeStream_eq (r : Replies) : Remote.closeStream r = r := rfl

@[simp] theorem hangUp_eq (r : Replies) : Remote.hangUp r = r := rfl

end Replies

namespace Session

variable {ρ : Type}

/-- A session without its secrets, before some answers of the server side. -/
def redact (typed : Option Octets) (s : Session ρ) (answers : List Outcome) : Session Replies :=
  { s with
    remote := ⟨answers⟩
    credentials := s.credentials.map Credentials.redact
    cached := s.cached.map Credentials.redact
    backlog := s.backlog.map Inbound.redact
    lookup := s.lookup.map Credentials.redact
    attempt := s.attempt.map fun a => { a with credentials := a.credentials.redact }
    record := Record.redact typed s.record }

/-- What stands in a redacted record for a password that was typed, if passwords may be typed. -/
def typed (s : Session ρ) : Option Octets :=
  if s.permissions.allowReplay then
    some (Text.Utf8.encode ("*" ++ s.config.lineEnding).toList)
  else none

variable {typed : Option Octets} {s t u : Session ρ} {f g : Session Replies → Session Replies}

/-- What became of a session, without its secrets, is what `f` makes of the session without its
secrets and before the answers that it got in the meantime. -/
structure Mirrors (typed : Option Octets) (f : Session Replies → Session Replies)
    (s t : Session ρ) : Prop where
  settings : t.typed = s.typed
  answers : ∃ answers, Record.replies t.record = Record.replies s.record ++ answers ∧
    ∀ rest, f (redact typed s (answers ++ rest)) = redact typed t rest

theorem redact_welcome (record : List Entry) (permissions : Permissions) (label : String) :
    Record.redact typed (record ++ welcome permissions label) =
      Record.redact typed record ++ welcome permissions label :=
  Record.redact_append rfl typed record

theorem redact_farewell (record : List Entry) :
    Record.redact typed (record ++ farewell) = Record.redact typed record ++ farewell :=
  Record.redact_append rfl typed record

namespace Mirrors

theorem of_append (es : List Entry) (he : Record.replies es = [])
    (hr : t.record = s.record ++ es) (ht : t.typed = s.typed)
    (h : ∀ rest, f (redact typed s rest) = redact typed t rest) : Mirrors typed f s t :=
  ⟨ht, [], by simp [hr, he], h⟩

theorem of_same (hr : t.record = s.record) (ht : t.typed = s.typed)
    (h : ∀ rest, f (redact typed s rest) = redact typed t rest) : Mirrors typed f s t :=
  of_append [] rfl (by simpa using hr) ht h

theorem refl (s : Session ρ) : Mirrors typed id s s := of_same rfl rfl fun _ => rfl

theorem trans (h : Mirrors typed f s t) (h' : Mirrors typed g t u) :
    Mirrors typed (fun v => g (f v)) s u := by
  obtain ⟨ht, answers, hr, hf⟩ := h
  obtain ⟨ht', answers', hr', hg⟩ := h'
  refine ⟨ht'.trans ht, answers ++ answers', by rw [hr', hr, List.append_assoc], fun rest => ?_⟩
  rw [List.append_assoc, hf, hg]

theorem congr (h : Mirrors typed f s t)
    (hf : ∀ rest, g (redact typed s rest) = f (redact typed s rest)) : Mirrors typed g s t := by
  obtain ⟨ht, answers, hr, hf'⟩ := h
  exact ⟨ht, answers, hr, fun rest => (hf _).trans (hf' rest)⟩

theorem note (s : Session ρ) {e : Entry} (he : e.reply? = none) :
    Mirrors typed (·.note (e.redact none)) s (s.note e) :=
  of_append [e] (by simp [Record.replies, he]) rfl rfl fun rest => by
    simp [redact, Session.note, Record.redact_of_reply?_eq_none he]

theorem emit (s : Session ρ) (e : ServerEvent) : Mirrors typed (·.emit e) s (s.emit e) :=
  note (e := .sent e) s rfl

theorem failing (s : Session ρ) (message : String) (event : ServerEvent) :
    Mirrors typed (·.failing message event) s (s.failing message event) :=
  of_append [.sent event] rfl rfl rfl fun rest => by
    simp [redact, Session.failing, Entry.redact]

theorem keeping (s : Session ρ) (message : String) :
    Mirrors typed (·.keeping message) s (s.keeping message) :=
  of_same rfl rfl fun _ => rfl

theorem inviting (s : Session ρ) : Mirrors typed Session.inviting s s.inviting :=
  of_append [.sent .reauth] rfl rfl rfl fun rest => by
    simp [redact, Session.inviting, Entry.redact]

theorem attach (s : Session ρ) (kind : StreamKind) :
    Mirrors typed (·.attach kind) s (s.attach kind) :=
  of_same rfl rfl fun _ => rfl

theorem welcomed (s : Session ρ) (c : Credentials) :
    Mirrors typed (·.welcomed c.redact) s (s.welcomed c) :=
  of_append (welcome s.permissions c.label) rfl rfl rfl fun rest => by
    simp [redact, Session.welcomed, redact_welcome]

variable [Remote ρ]

theorem ended (s : Session ρ) : Mirrors typed Session.ended s s.ended :=
  of_append farewell rfl rfl rfl fun rest => by
    simp [redact, Session.ended, redact_farewell]

theorem released (s : Session ρ) {es : List Entry} (he : Record.replies es = [])
    (hs : es.map (Entry.redact none) = es) :
    Mirrors typed (·.released es) s (s.released es) :=
  of_append es he rfl rfl fun rest => by
    simp [redact, Session.released, Record.redact_append he, hs]

theorem connect (s : Session ρ) (c : Credentials) :
    Mirrors typed (·.connect c.redact) s (s.connect c) :=
  of_append [.called (.connect c) (.ok ())] rfl rfl rfl fun rest => by
    simp [redact, Session.connect, Session.note, Entry.redact]

theorem parted (s : Session ρ) : Mirrors typed Session.parted s s.parted := by
  by_cases hp : s.phase = .connected ∨ s.phase = .streaming
  · refine of_append [.called .hangUp (.ok ())] rfl ?_ ?_ fun rest => ?_
    · simp [Session.parted, hp]
    · simp [Session.parted, hp, Session.typed]
    · have hp' : (redact typed s rest).phase = .connected ∨
          (redact typed s rest).phase = .streaming := hp
      rw [Session.parted, if_pos hp', Session.parted, if_pos hp]
      simp [redact, Entry.redact]
  · have hs : s.parted = s := if_neg hp
    have hr : ∀ rest, (redact typed s rest).parted = redact typed s rest := fun _ => if_neg hp
    rw [hs]
    exact of_same rfl rfl hr

/-- A stream failed, or an operation on it did. -/
theorem broken (s : Session ρ) (f : Failure) : Mirrors typed (·.broken f) s (s.broken f) := by
  have htarget : ∀ rest, (redact typed s rest).target = s.target := by
    intro rest
    cases hc : s.credentials <;> simp [target, redact, hc]
  by_cases hi : f.level = some .clientAuthentication ∧ s.mayInvite = true
  · have hi' : ∀ rest, f.level = some .clientAuthentication ∧
        (redact typed s rest).mayInvite = true := fun _ => hi
    have h : Mirrors typed _ s _ := (keeping s (f.userMessage s.target.1 s.target.2)).trans
      ((inviting _).trans (ended _))
    rw [Session.broken, if_pos hi]
    refine h.congr fun rest => ?_
    rw [Session.broken, if_pos (hi' rest), htarget]
  · have hi' : ∀ rest, ¬ (f.level = some .clientAuthentication ∧
        (redact typed s rest).mayInvite = true) := fun _ => hi
    have h : Mirrors typed _ s _ := (failing s (f.userMessage s.target.1 s.target.2)
      (.sshError (f.userMessage s.target.1 s.target.2))).trans (ended _)
    rw [Session.broken, if_neg hi]
    refine h.congr fun rest => ?_
    rw [Session.broken, if_neg (hi' rest), htarget]

/-- An attempt to connect failed. -/
theorem rebuffed (s : Session ρ) (c : Credentials) (f : Failure) :
    Mirrors typed (·.rebuffed c.redact f) s (s.rebuffed c f) := by
  have hforget : Mirrors typed
      (fun v => if f.kind.clearsCredentials then { v with cached := none } else v) s
      (if f.kind.clearsCredentials then { s with cached := none } else s) := by
    split <;> exact of_same rfl rfl fun _ => rfl
  have hinvite : ∀ t : Session ρ, Mirrors typed
      (fun v => if f.kind = .authentication ∧ v.mayInvite then v.inviting else v) t
      (if f.kind = .authentication ∧ t.mayInvite then t.inviting else t) := by
    intro t
    by_cases hi : f.kind = .authentication ∧ t.mayInvite = true
    · rw [if_pos hi]
      exact (inviting t).congr fun rest => if_pos hi
    · rw [if_neg hi]
      exact (refl t).congr fun rest => if_neg hi
  exact hforget.trans ((failing _ _ _).trans ((hinvite _).trans (ended _)))

end Mirrors

end Session

end TerminalGateway
