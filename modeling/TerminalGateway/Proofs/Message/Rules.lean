import TerminalGateway.Proofs.Message.Records

/-!
The rules of each kind of message, as a list in the order in which they are applied. A payload that
keeps all of them is accepted as it stands; of any other one the first broken rule is reported.
-/

namespace TerminalGateway

open Json

/-- A rule about one part of a message, and what it is called to break it. -/
structure Rule where
  field : Field
  violation : Violation
  holds : Bool

namespace Rule

def present {α : Type} (field : Field) (given : Option α) : Rule :=
  ⟨field, .missing, given.isSome⟩

def filled (field : Field) (given : Option String) : Rule :=
  ⟨field, .blank, given.all fun s => !Text.isAllBlank s.toList⟩

def within (field : Field) (low high : Nat) (given : Option Int) : Rule :=
  ⟨field, .outside low high, given.all fun i => (low : Int) ≤ i && i ≤ high⟩

def positive (field : Field) (given : Option Int) : Rule :=
  ⟨field, .notPositive, given.all fun i => 0 < i⟩

/-- A pair of an `env` object has a string. -/
def string (pair : String × Value) : Rule :=
  ⟨.env, .valueNotString pair.1, (Value.text? (some pair.2)).isSome⟩

def known (name : Option String) : Rule :=
  ⟨.action, .unknownAction (name.getD ""), name.all fun n => (ControlAction.ofName? n).isSome⟩

end Rule

/-- An outcome of rules that are applied one after another: either all of them are kept and the
result is as it should be, or the first broken one is reported. -/
inductive Obeys {α : Type} (rules : List Rule) (post : α → Prop) : Except Rejection α → Prop
  | kept {a : α} (h : ∀ r ∈ rules, r.holds = true) (ha : post a) : Obeys rules post (.ok a)
  | broken (before after : List Rule) (r : Rule) (hs : rules = before ++ r :: after)
      (hb : ∀ b ∈ before, b.holds = true) (hr : r.holds = false) :
      Obeys rules post (.error (.invalid r.field r.violation))

namespace Obeys

variable {α β : Type} {rules more : List Rule} {post : α → Prop} {post' : β → Prop}

theorem pure {a : α} (h : post a) : Obeys [] post (.ok a) :=
  .kept (by simp) h

theorem first {r : Rule} (hr : r.holds = false) :
    Obeys (r :: rules) post (.error (.invalid r.field r.violation)) :=
  .broken [] rules r rfl (by simp) hr

theorem bind {x : Except Rejection α} {k : α → Except Rejection β} (h : Obeys rules post x)
    (hk : ∀ a, post a → Obeys more post' (k a)) : Obeys (rules ++ more) post' (x >>= k) := by
  cases h with
  | broken before after r hs hb hr =>
      refine .broken before (after ++ more) r ?_ hb hr
      rw [hs, List.append_assoc, List.cons_append]
  | @kept a h ha =>
      change Obeys _ _ (k a)
      have hnext := hk a ha
      generalize k a = y at hnext
      cases hnext with
      | kept h' hb => exact .kept (fun r hr => (List.mem_append.mp hr).elim (h r) (h' r)) hb
      | broken before after r hs hb hr =>
          refine .broken (rules ++ before) after r (by rw [hs, List.append_assoc]) ?_ hr
          exact fun b hm => (List.mem_append.mp hm).elim (h b) (hb b)

theorem bind_pure {f : α → β} {x : Except Rejection α} (h : Obeys rules post x)
    (hf : ∀ a, post a → post' (f a)) : Obeys rules post' (x >>= fun a => .ok (f a)) := by
  simpa using h.bind fun a ha => Obeys.pure (hf a ha)

theorem map {f : α → β} {x : Except Rejection α} (h : Obeys rules post x)
    (hf : ∀ a, post a → post' (f a)) : Obeys rules post' (x.map f) := by
  cases h with
  | kept h ha => exact .kept h (hf _ ha)
  | broken before after r hs hb hr => exact .broken before after r hs hb hr

/-- A step that one more rule allows. -/
theorem step {r : Rule} {x : Except Rejection α} (hr : r.holds = true) (h : Obeys rules post x) :
    Obeys (r :: rules) post x := by
  cases h with
  | kept h ha => exact .kept (List.forall_mem_cons.mpr ⟨hr, h⟩) ha
  | broken before after s hs hb hs' =>
      exact .broken (r :: before) after s (by rw [hs, List.cons_append])
        (List.forall_mem_cons.mpr ⟨hr, hb⟩) hs'

theorem of_ok {a : α} (h : Obeys rules post (.ok a)) : post a := by
  cases h with
  | kept _ ha => exact ha

theorem exists_ok_iff {x : Except Rejection α} (h : Obeys rules post x) :
    (∃ a, x = .ok a) ↔ ∀ r ∈ rules, r.holds = true := by
  cases h with
  | kept h _ => exact ⟨fun _ => h, fun _ => ⟨_, rfl⟩⟩
  | broken front back r hs _ hr =>
      refine ⟨fun ⟨a, ha⟩ => by simp at ha, fun hall => ?_⟩
      simp [hall r (by simp [hs])] at hr

/-- There is but one first broken rule. -/
theorem eq_error {before after : List Rule} {r : Rule} {x : Except Rejection α}
    (h : Obeys rules post x) (hs : rules = before ++ r :: after)
    (hb : ∀ b ∈ before, b.holds = true) (hr : r.holds = false) :
    x = .error (.invalid r.field r.violation) := by
  have hfirst : ∀ {front back : List Rule} {s : Rule}, rules = front ++ s :: back →
      (∀ b ∈ front, b.holds = true) → s.holds = false →
      rules.find? (fun s => !s.holds) = some s := by
    intro front back s hs hb hr
    rw [List.find?_eq_some_iff_append]
    exact ⟨by simp [hr], front, back, hs, fun b hm => by simp [hb b hm]⟩
  cases h with
  | kept h _ => simp [h r (by simp [hs])] at hr
  | broken front back s hs' hb' hr' =>
      obtain rfl : s = r := Option.some.inj ((hfirst hs' hb' hr').symm.trans (hfirst hs hb hr))
      rfl

end Obeys

theorem obeys_requireText (field : Field) (given : Option String) :
    Obeys [.present field given, .filled field given] (fun s => given = some s)
      (requireText field given) := by
  cases given with
  | none => exact .first rfl
  | some s =>
      refine .step rfl ?_
      cases hb : Text.isAllBlank s.toList with
      | true =>
          simp only [requireText, hb, if_true]
          exact .first (by simp [Rule.filled, hb])
      | false =>
          simp only [requireText, hb, Bool.false_eq_true, if_false]
          exact .step (by simp [Rule.filled, hb]) (.pure rfl)

theorem obeys_requireWithin (field : Field) (low high : Nat) (i : Int) :
    Obeys [.within field low high (some i)] (fun n : Nat => i = n)
      (requireWithin field low high i) := by
  unfold requireWithin
  split
  · rename_i h
    refine .step (by simpa [Rule.within] using h) (.pure ?_)
    omega
  · rename_i h
    exact .first (by simpa [Rule.within] using h)

theorem obeys_optionalWithin (field : Field) (low high : Nat) (given : Option Int) :
    Obeys [.within field low high given] (fun n => given = n.map Int.ofNat)
      (optionalWithin field low high given) := by
  cases given with
  | none => exact .step rfl (.pure rfl)
  | some i =>
      refine Obeys.map (f := some) (obeys_requireWithin field low high i) ?_
      rintro n rfl
      rfl

theorem obeys_optionalPositive (field : Field) (given : Option Int) :
    Obeys [.positive field given] (fun n => given = n.map Int.ofNat)
      (optionalPositive field given) := by
  cases given with
  | none => exact .step rfl (.pure rfl)
  | some i =>
      simp only [optionalPositive]
      split
      · rename_i h
        refine .step (by simpa [Rule.positive] using h) (.pure ?_)
        rw [Option.map_some, Option.some.injEq, Int.ofNat_eq_natCast]
        omega
      · rename_i h
        exact .first (by simpa [Rule.positive] using h)

theorem obeys_requirePairs (pairs : List (String × Value)) :
    Obeys (pairs.map .string) (fun env => pairs = env.map fun p => (p.1, .string p.2))
      (requirePairs pairs) := by
  induction pairs with
  | nil => exact .pure rfl
  | cons pair rest ih =>
      obtain ⟨key, v⟩ := pair
      cases v with
      | string s =>
          refine .step rfl (ih.map ?_)
          rintro env rfl
          rfl
      | null | bool _ | number _ | array _ | object _ => exact .first rfl

/-! ### The kinds of messages -/

def AuthFields.rules (f : AuthFields) : List Rule :=
  [.present .username f.username, .filled .username f.username,
    .present .host f.host, .filled .host f.host,
    .within .port 1 65535 f.port, .within .cols 1 9999 f.cols, .within .rows 1 9999 f.rows]

/-- A text that is kept unless it is empty. -/
def Keeps (given result : Option String) : Prop :=
  given = result ∧ result ≠ some "" ∨ given = some "" ∧ result = none

/-- A number that stands as it was given, or else for the standard one. -/
def Stands (given : Option Int) (standard n : Nat) : Prop := (n : Int) = given.getD standard

structure AuthFields.Grants (f : AuthFields) (r : AuthRequest) : Prop where
  username : f.username = some r.credentials.username
  host : ∃ host, f.host = some host ∧ r.credentials.host = Credentials.unbracket host
  port : Stands f.port 22 r.credentials.port
  password : Keeps f.password r.credentials.password
  privateKey : Keeps f.privateKey r.credentials.privateKey
  passphrase : Keeps f.passphrase r.credentials.passphrase
  term : Keeps f.term r.term
  unsized : r.dimensions = none ↔ f.rows = none ∧ f.cols = none
  sized : ∀ d, r.dimensions = some d → Stands f.rows 24 d.rows ∧ Stands f.cols 80 d.cols

theorem keeps_nonempty (given : Option String) : Keeps given (nonempty given) := by
  cases given with
  | none => exact .inl ⟨rfl, by simp [nonempty]⟩
  | some s =>
      by_cases h : s = ""
      · exact .inr ⟨by rw [h], by simp [nonempty, h]⟩
      · exact .inl ⟨by simp [nonempty, Option.filter, h], by simp [nonempty]⟩

theorem stands_getD {given : Option Int} {n : Option Nat} (h : given = n.map Int.ofNat)
    (standard : Nat) : Stands given standard (n.getD standard) := by
  subst h
  cases n <;> rfl

theorem AuthFields.obeys_check (f : AuthFields) : Obeys f.rules f.Grants f.check := by
  refine Obeys.bind (obeys_requireText _ _) fun user hu => ?_
  refine Obeys.bind (obeys_requireText _ _) fun host hh => ?_
  refine Obeys.bind (obeys_optionalWithin _ _ _ _) fun port hp => ?_
  refine Obeys.bind (obeys_optionalWithin _ _ _ _) fun cols hc => ?_
  refine Obeys.bind (obeys_optionalWithin _ _ _ _) fun rows hr => ?_
  refine .pure ⟨hu, ⟨host, hh, rfl⟩, stands_getD hp 22, keeps_nonempty _, keeps_nonempty _,
    keeps_nonempty _, keeps_nonempty _, ?_, ?_⟩
  · rw [hr, hc]
    cases rows <;> cases cols <;> simp
  · intro d hd
    split at hd
    · simp at hd
    · obtain rfl := Option.some.inj hd
      exact ⟨stands_getD hr 24, stands_getD hc 80⟩

def TerminalFields.rules (f : TerminalFields) : List Rule :=
  [.within .rows 1 9999 f.rows, .within .cols 1 9999 f.cols]

structure TerminalFields.Grants (f : TerminalFields) (r : TerminalRequest) : Prop where
  term : Keeps f.term r.term
  rows : Stands f.rows 24 r.dimensions.rows
  cols : Stands f.cols 80 r.dimensions.cols

theorem TerminalFields.obeys_check (f : TerminalFields) : Obeys f.rules f.Grants f.check := by
  refine Obeys.bind (obeys_optionalWithin _ _ _ _) fun rows hr => ?_
  refine Obeys.bind (obeys_optionalWithin _ _ _ _) fun cols hc => ?_
  exact .pure ⟨keeps_nonempty _, stands_getD hr 24, stands_getD hc 80⟩

/-- Both numbers have to be there before either of them is looked at. -/
def ResizeFields.rules (f : ResizeFields) : List Rule :=
  [.present .rows f.rows, .present .cols f.cols, .within .rows 1 9999 f.rows,
    .within .cols 1 9999 f.cols]

structure ResizeFields.Grants (f : ResizeFields) (d : Dimensions) : Prop where
  rows : f.rows = some (d.rows : Int)
  cols : f.cols = some (d.cols : Int)

theorem ResizeFields.obeys_check (f : ResizeFields) : Obeys f.rules f.Grants f.check := by
  obtain ⟨rows, cols⟩ := f
  cases rows with
  | none => exact .first rfl
  | some rows =>
      cases cols with
      | none => exact .step rfl (.first rfl)
      | some cols =>
          refine .step rfl (.step rfl ?_)
          refine Obeys.bind (obeys_requireWithin _ _ _ _) fun r hr => ?_
          refine Obeys.bind (obeys_requireWithin _ _ _ _) fun c hc => ?_
          exact .pure ⟨congrArg some hr, congrArg some hc⟩

def ExecFields.rules (f : ExecFields) : List Rule :=
  .present .command f.command :: .filled .command f.command :: .within .cols 1 9999 f.cols ::
    .within .rows 1 9999 f.rows :: ((f.env.getD []).map .string ++ [.positive .timeout f.timeout])

structure ExecFields.Grants (f : ExecFields) (r : ExecRequest) : Prop where
  command : f.command = some r.command
  pty : r.pty = f.pty.getD false
  term : Keeps f.term r.term
  rows : Stands f.rows 24 r.dimensions.rows
  cols : Stands f.cols 80 r.dimensions.cols
  env : f.env.getD [] = r.env.map fun p => (p.1, .string p.2)
  timeout : f.timeout = r.timeout.map Int.ofNat

theorem ExecFields.obeys_check (f : ExecFields) : Obeys f.rules f.Grants f.check := by
  refine Obeys.bind (obeys_requireText _ _) fun command hcommand => ?_
  refine Obeys.bind (obeys_optionalWithin _ _ _ _) fun cols hc => ?_
  refine Obeys.bind (obeys_optionalWithin _ _ _ _) fun rows hr => ?_
  refine Obeys.bind (obeys_requirePairs _) fun env he => ?_
  refine (obeys_optionalPositive _ _).bind_pure fun timeout ht => ?_
  exact ⟨hcommand, rfl, keeps_nonempty _, stands_getD hr 24, stands_getD hc 80, he, ht⟩

def ControlFields.rules (f : ControlFields) : List Rule :=
  [.present .action f.action, .known f.action]

structure ControlFields.Grants (f : ControlFields) (a : ControlAction) : Prop where
  action : f.action = some a.name

theorem ControlAction.name_of_ofName? {name : String} {a : ControlAction}
    (h : ofName? name = some a) : name = a.name := by
  unfold ofName? at h
  repeat' split at h
  all_goals cases h
  all_goals assumption

theorem ControlFields.obeys_check (f : ControlFields) : Obeys f.rules f.Grants f.check := by
  obtain ⟨action⟩ := f
  cases action with
  | none => exact .first rfl
  | some name =>
      refine .step rfl ?_
      cases h : ControlAction.ofName? name with
      | none =>
          simp only [check, h]
          exact .first (by simp [Rule.known, h])
      | some a =>
          simp only [check, h]
          exact .step (by simp [Rule.known, h])
            (.pure ⟨congrArg some (ControlAction.name_of_ofName? h)⟩)

/-! ### Whole messages -/

namespace Envelope

/-- The payload can be read as a record of its kind. -/
def Decodes (e : Envelope) : Prop :=
  match e.kind with
  | "auth" => ∃ f, ClientMessage.readPayload AuthFields.layout e.payload = .ok f
  | "terminal" => ∃ f, ClientMessage.readPayload TerminalFields.layout e.payload = .ok f
  | "resize" => ∃ f, ClientMessage.readPayload ResizeFields.layout e.payload = .ok f
  | "exec" => ∃ f, ClientMessage.readPayload ExecFields.layout e.payload = .ok f
  | "control" => ∃ f, ClientMessage.readPayload ControlFields.layout e.payload = .ok f
  | "data" => True
  | _ => False

def auth (e : Envelope) : AuthFields := .ofEntries (e.payload.entry? AuthFields.layout.fields)

def terminal (e : Envelope) : TerminalFields :=
  .ofEntries (e.payload.entry? TerminalFields.layout.fields)

def resize (e : Envelope) : ResizeFields :=
  .ofEntries (e.payload.entry? ResizeFields.layout.fields)

def exec (e : Envelope) : ExecFields := .ofEntries (e.payload.entry? ExecFields.layout.fields)

def control (e : Envelope) : ControlFields :=
  .ofEntries (e.payload.entry? ControlFields.layout.fields)

/-- The rules of its kind, in the order in which they are applied. -/
def rules (e : Envelope) : List Rule :=
  match e.kind with
  | "auth" => e.auth.rules
  | "terminal" => e.terminal.rules
  | "resize" => e.resize.rules
  | "exec" => e.exec.rules
  | "control" => e.control.rules
  | "data" => [⟨.data, .notString, (Value.text? (some e.payload)).isSome⟩]
  | _ => []

/-- A message says what its envelope says. -/
def Says (e : Envelope) : ClientMessage → Prop
  | .auth r => e.kind = "auth" ∧ e.auth.Grants r
  | .terminal r => e.kind = "terminal" ∧ e.terminal.Grants r
  | .resize d => e.kind = "resize" ∧ e.resize.Grants d
  | .exec r => e.kind = "exec" ∧ e.exec.Grants r
  | .control a => e.kind = "control" ∧ e.control.Grants a
  | .data bytes => e.kind = "data" ∧ ∃ s, e.payload = .string s ∧ bytes = Text.Utf8.encode s.toList

theorem obeys_of_describes {ρ α : Type} {layout : Layout ρ} {record : (String → Option Value) → ρ}
    (h : layout.Describes record) (hn : layout.fields.Nodup) {payload : Value} (hp : IsTidy payload)
    (hd : ∃ f, ClientMessage.readPayload layout payload = .ok f) {rules : ρ → List Rule}
    {grants : ρ → α → Prop} {check : ρ → Except Rejection α}
    (hcheck : ∀ f, Obeys (rules f) (grants f) (check f)) {wrap : α → ClientMessage}
    {post : ClientMessage → Prop}
    (hpost : ∀ a, grants (record (payload.entry? layout.fields)) a → post (wrap a)) :
    Obeys (rules (record (payload.entry? layout.fields))) post
      (do return wrap (← check (← ClientMessage.readPayload layout payload))) := by
  obtain ⟨f, hf⟩ := hd
  obtain rfl := ClientMessage.eq_of_readPayload h hn hp hf
  rw [hf]
  exact (hcheck _).bind_pure hpost

theorem obeys_ofEnvelope {e : Envelope} (hp : IsTidy e.payload) (hd : e.Decodes) :
    Obeys e.rules e.Says (ClientMessage.ofEnvelope e) := by
  unfold Decodes at hd
  split at hd
  case h_1 hk =>
    simp only [rules, ClientMessage.ofEnvelope, hk]
    exact obeys_of_describes AuthFields.fills.describes (by decide) hp hd AuthFields.obeys_check
      fun r hr => ⟨hk, hr⟩
  case h_2 hk =>
    simp only [rules, ClientMessage.ofEnvelope, hk]
    exact obeys_of_describes TerminalFields.fills.describes (by decide) hp hd
      TerminalFields.obeys_check fun r hr => ⟨hk, hr⟩
  case h_3 hk =>
    simp only [rules, ClientMessage.ofEnvelope, hk]
    exact obeys_of_describes ResizeFields.fills.describes (by decide) hp hd ResizeFields.obeys_check
      fun d hr => ⟨hk, hr⟩
  case h_4 hk =>
    simp only [rules, ClientMessage.ofEnvelope, hk]
    exact obeys_of_describes ExecFields.fills.describes (by decide) hp hd ExecFields.obeys_check
      fun r hr => ⟨hk, hr⟩
  case h_5 hk =>
    simp only [rules, ClientMessage.ofEnvelope, hk]
    exact obeys_of_describes ControlFields.fills.describes (by decide) hp hd
      ControlFields.obeys_check fun a hr => ⟨hk, hr⟩
  case h_6 hk =>
    simp only [rules, ClientMessage.ofEnvelope, hk]
    cases h : e.payload with
    | string s => exact .step rfl (.pure ⟨hk, s, h, rfl⟩)
    | null | bool _ | number _ | array _ | object _ => exact .first rfl
  case h_7 => exact hd.elim

theorem ofEnvelope_perm {kind : String} {fields more : List (String × Value)}
    (hf : (names fields).Nodup) (hp : fields.Perm more) (hd : Decodes ⟨kind, .object fields⟩) :
    ClientMessage.ofEnvelope ⟨kind, .object more⟩ =
      ClientMessage.ofEnvelope ⟨kind, .object fields⟩ := by
  unfold Decodes at hd
  unfold ClientMessage.ofEnvelope
  simp only at hd ⊢
  split at hd
  case h_1 =>
    obtain ⟨f, hr⟩ := hd
    simp only [hr, ClientMessage.readPayload_perm AuthFields.fills.describes hf hp hr]
  case h_2 =>
    obtain ⟨f, hr⟩ := hd
    simp only [hr, ClientMessage.readPayload_perm TerminalFields.fills.describes hf hp hr]
  case h_3 =>
    obtain ⟨f, hr⟩ := hd
    simp only [hr, ClientMessage.readPayload_perm ResizeFields.fills.describes hf hp hr]
  case h_4 =>
    obtain ⟨f, hr⟩ := hd
    simp only [hr, ClientMessage.readPayload_perm ExecFields.fills.describes hf hp hr]
  case h_5 =>
    obtain ⟨f, hr⟩ := hd
    simp only [hr, ClientMessage.readPayload_perm ControlFields.fills.describes hf hp hr]
  case h_6 => rfl
  case h_7 => exact hd.elim

end Envelope

/-- Both numbers are out of range, and the columns stand first. -/
def strayText : String :=
  "\x7b\"payload\":\x7b\"cols\":0,\"rows\":10000\x7d,\"type\":\"resize\"\x7d"

def strayEnvelope : Envelope :=
  ⟨"resize", .object [("cols", .number (.integer 0)), ("rows", .number (.integer 10000))]⟩

/-- The envelope of a resize with these numbers, the columns first. -/
def holdsCorner (cols rows : Int) : Except Json.Fault Envelope → Bool
  | .ok ⟨kind, .object [(first, .number (.integer i)), (second, .number (.integer j))]⟩ =>
      kind = "resize" && first = "cols" && i = cols && second = "rows" && j = rows
  | _ => false

theorem eq_of_holdsCorner {cols rows : Int} {x : Except Json.Fault Envelope}
    (h : holdsCorner cols rows x = true) :
    x = .ok ⟨"resize",
      .object [("cols", .number (.integer cols)), ("rows", .number (.integer rows))]⟩ := by
  unfold holdsCorner at h
  split at h
  · simp only [Bool.and_eq_true, decide_eq_true_eq] at h
    obtain ⟨⟨⟨⟨rfl, rfl⟩, rfl⟩, rfl⟩, rfl⟩ := h
    rfl
  · simp at h

theorem Envelope.ofText_strayText : ofText strayText = .ok strayEnvelope := by
  have h : holdsCorner 0 10000 (ofText strayText) = true := by decide +kernel
  exact eq_of_holdsCorner h

end TerminalGateway
