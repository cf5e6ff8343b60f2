import TerminalGateway.Http.Frame
import TerminalGateway.Proofs.Message.Envelope
import TerminalGateway.Proofs.Message.Records

/-!
Messages as text. A message can be written in many ways: with gaps, with any spelling of its
strings, and with the fields of its payload in any order. In each of them it is read back as it was.
-/

namespace TerminalGateway

open Json

/-! ### The fields of a message -/

/-- A natural number as a value. -/
def Json.Value.natural (n : Nat) : Value := .number (.integer n)

/-- A field, if there is something to say in it. -/
def given (name : String) (v : Option Value) : List (String × Value) := v.toList.map (name, ·)

def AuthRequest.fields (r : AuthRequest) : List (String × Value) :=
  [("username", .string r.credentials.username), ("host", .string r.credentials.host),
      ("port", .natural r.credentials.port)]
    ++ given "password" (r.credentials.password.map .string)
    ++ given "privateKey" (r.credentials.privateKey.map .string)
    ++ given "passphrase" (r.credentials.passphrase.map .string)
    ++ given "term" (r.term.map .string)
    ++ given "cols" (r.dimensions.map fun d => .natural d.cols)
    ++ given "rows" (r.dimensions.map fun d => .natural d.rows)

def TerminalRequest.fields (r : TerminalRequest) : List (String × Value) :=
  given "term" (r.term.map .string)
    ++ [("rows", .natural r.dimensions.rows), ("cols", .natural r.dimensions.cols)]

def Dimensions.fields (d : Dimensions) : List (String × Value) :=
  [("rows", .natural d.rows), ("cols", .natural d.cols)]

/-- An environment as an object. -/
def Environment.members (env : Environment.Pairs) : List (String × Value) :=
  env.map fun pair => (pair.1, .string pair.2)

def ExecRequest.fields (r : ExecRequest) : List (String × Value) :=
  [("command", .string r.command), ("pty", .bool r.pty)]
    ++ given "term" (r.term.map .string)
    ++ [("cols", .natural r.dimensions.cols), ("rows", .natural r.dimensions.rows),
      ("env", .object (Environment.members r.env))]
    ++ given "timeoutMs" (r.timeout.map .natural)

def ControlAction.fields (a : ControlAction) : List (String × Value) :=
  [("action", .string a.name)]

namespace ClientMessage

def kind : ClientMessage → String
  | .auth _ => "auth"
  | .terminal _ => "terminal"
  | .resize _ => "resize"
  | .exec _ => "exec"
  | .control _ => "control"
  | .data _ => "data"

/-- A payload of a message, with its fields in some order. -/
inductive Carries : ClientMessage → Value → Prop
  | auth (r : AuthRequest) {fields : List (String × Value)} (h : r.fields.Perm fields) :
      Carries (.auth r) (.object fields)
  | terminal (r : TerminalRequest) {fields : List (String × Value)} (h : r.fields.Perm fields) :
      Carries (.terminal r) (.object fields)
  | resize (d : Dimensions) {fields : List (String × Value)} (h : d.fields.Perm fields) :
      Carries (.resize d) (.object fields)
  | exec (r : ExecRequest) {fields : List (String × Value)} (h : r.fields.Perm fields) :
      Carries (.exec r) (.object fields)
  | control (a : ControlAction) {fields : List (String × Value)} (h : a.fields.Perm fields) :
      Carries (.control a) (.object fields)
  | data (s : String) : Carries (.data (Text.Utf8.encode s.toList)) (.string s)

/-- A text that is nothing but a message. -/
def WrittenAs (m : ClientMessage) (text : String) : Prop :=
  ∃ payload, m.Carries payload ∧ Envelope.WrittenAs ⟨m.kind, payload⟩ text

end ClientMessage

/-! ### Messages as the rules leave them -/

def Dimensions.InRange (d : Dimensions) : Prop :=
  (1 ≤ d.rows ∧ d.rows ≤ 9999) ∧ 1 ≤ d.cols ∧ d.cols ≤ 9999

theorem Dimensions.InRange.small {d : Dimensions} (h : d.InRange) :
    d.rows < 0x8000000000000000 ∧ d.cols < 0x8000000000000000 := by
  obtain ⟨⟨-, hrows⟩, -, hcols⟩ := h
  omega

structure AuthRequest.InRange (r : AuthRequest) : Prop where
  username : Text.isAllBlank r.credentials.username.toList = false
  host : Text.isAllBlank r.credentials.host.toList = false
  bare : ∀ x, x ≠ [] → r.credentials.host.toList ≠ '[' :: (x ++ [']'])
  port : 1 ≤ r.credentials.port ∧ r.credentials.port ≤ 65535
  password : r.credentials.password ≠ some ""
  privateKey : r.credentials.privateKey ≠ some ""
  passphrase : r.credentials.passphrase ≠ some ""
  term : r.term ≠ some ""
  dimensions : ∀ d ∈ r.dimensions, d.InRange

structure TerminalRequest.InRange (r : TerminalRequest) : Prop where
  term : r.term ≠ some ""
  dimensions : r.dimensions.InRange

structure ExecRequest.InRange (r : ExecRequest) : Prop where
  command : Text.isAllBlank r.command.toList = false
  term : r.term ≠ some ""
  dimensions : r.dimensions.InRange
  env : (r.env.map (·.1)).Nodup
  timeout : ∀ t ∈ r.timeout, 1 ≤ t ∧ t < 0x8000000000000000

def ClientMessage.InRange : ClientMessage → Prop
  | .auth r => r.InRange
  | .terminal r => r.InRange
  | .resize d => d.InRange
  | .exec r => r.InRange
  | .control _ => True
  | .data bytes => ∃ s : String, bytes = Text.Utf8.encode s.toList

/-! ### Payloads -/

variable {name : String} {v : Value} {fields more : List (String × Value)}

theorem forall_mem_given {α : Type} {a : Option α} {g : α → Value} {q : String × Value → Prop} :
    (∀ f ∈ given name (a.map g), q f) ↔ ∀ x ∈ a, q (name, g x) := by
  cases a <;> simp [given]

theorem names_given_sublist (name : String) (v : Option Value) :
    (names (given name v)).Sublist [name] := by
  cases v <;> simp [given]

theorem field?_given (n name : String) (v : Option Value) :
    field? (given n v) name = if n = name then v else none := by
  cases v <;> simp [given, field?]

@[simp] theorem Json.Value.text?_string (s : String) : text? (some (.string s)) = some s := rfl

@[simp] theorem Json.Value.truth?_bool (b : Bool) : truth? (some (.bool b)) = some b := rfl

@[simp] theorem Json.Value.members?_object (fields : List (String × Value)) :
    members? (some (.object fields)) = some fields := rfl

@[simp] theorem Json.Value.integer?_natural (n : Nat) :
    integer? (some (.natural n)) = some (n : Int) := rfl

@[simp] theorem Json.Value.text?_map_string (s : Option String) : text? (s.map .string) = s := by
  cases s <;> rfl

@[simp] theorem Json.Value.integer?_map_natural {α : Type} (n : Option α) (f : α → Nat) :
    integer? (n.map fun a => .natural (f a)) = n.map fun a => (f a : Int) := by
  cases n <;> rfl

@[simp] theorem Json.Value.integer?_map (n : Option Nat) :
    integer? (n.map .natural) = n.map Int.ofNat := by
  cases n <;> rfl

/-- A number of 63 bits fits where an integer is wanted. -/
theorem Json.optionalInteger_natural {n : Nat} (hn : n < 0x8000000000000000) :
    optionalInteger (.natural n) = .ok (some n) := by
  have hlt : (n : Int) < 0x8000000000000000 := by omega
  simp [optionalInteger, Value.natural, hlt]

namespace Json.Layout

variable {ρ : Type} {layout : Layout ρ}

/-- A field of a payload can be written, one level below the payload, and its value fits. -/
def Takes (layout : Layout ρ) (f : String × Value) : Prop :=
  layout.fault? f.1 f.2 = none ∧ CanBeWritten 125 f.2

theorem takes_string {s : String} (h : layout.fault? name (.string s) = none) :
    layout.Takes (name, .string s) :=
  ⟨h, canBeWritten_string 125 s⟩

theorem fault?_natural {put : Option Int → ρ} {n : Nat}
    (hput : ∀ v, layout.put layout.blank name v = (optionalInteger v).map put)
    (hn : n < 0x8000000000000000) : layout.fault? name (.natural n) = none := by
  rw [fault?, hput, optionalInteger_natural hn]
  rfl

theorem takes_natural {put : Option Int → ρ} {n : Nat}
    (hput : ∀ v, layout.put layout.blank name v = (optionalInteger v).map put)
    (hn : n < 0x8000000000000000) : layout.Takes (name, .natural n) :=
  ⟨fault?_natural hput hn, canBeWritten_integer 125 (by omega)⟩

end Json.Layout

/-- A payload whose fields fit, in any order, is the message that the rules make of its record. -/
theorem ClientMessage.message_of_takes {ρ α : Type} {layout : Layout ρ}
    {record : (String → Option Value) → ρ} (h : layout.Describes record)
    (hn : (names fields).Nodup) (hp : fields.Perm more) (ht : ∀ f ∈ fields, layout.Takes f)
    {check : ρ → Except Rejection α} {a : α} (hcheck : check (record (field? fields)) = .ok a)
    {wrap : α → ClientMessage} :
    (do return wrap (← check (← readPayload layout (.object more)))) =
      (.ok (wrap a) : Except Rejection ClientMessage) := by
  have hfit := Layout.firstFault?_eq_none_iff.mpr fun f hf => (ht f hf).1
  have hread : readPayload layout (.object fields) = .ok (record (field? fields)) := by
    simp only [readPayload, Layout.read, h.putAll_blank hn, hfit]
  simp only [readPayload_perm h hn hp hread, bind, Except.bind, hcheck]
  rfl

/-! ### Logins -/

namespace AuthRequest

theorem nodup_fields (r : AuthRequest) : (names r.fields).Nodup := by
  have hsub : (names r.fields).Sublist AuthFields.layout.fields := by
    simp only [fields, names, List.map_append]
    exact (((((((List.Sublist.refl _).append (names_given_sublist _ _)).append
      (names_given_sublist _ _)).append (names_given_sublist _ _)).append
      (names_given_sublist _ _)).append (names_given_sublist _ _)).append
      (names_given_sublist _ _))
  exact hsub.nodup (by decide)

theorem InRange.takes {r : AuthRequest} (hr : r.InRange) :
    ∀ f ∈ r.fields, AuthFields.layout.Takes f := by
  have hport : r.credentials.port < 0x8000000000000000 := by
    have := hr.port
    omega
  simp only [fields, List.forall_mem_append, List.forall_mem_cons, forall_mem_given,
    List.not_mem_nil, false_implies, implies_true, and_true]
  have hstring : ∀ {name} {s : Option String},
      (∀ x, AuthFields.layout.fault? name (.string x) = none) →
      ∀ x ∈ s, AuthFields.layout.Takes (name, .string x) :=
    fun h x _ => Layout.takes_string (h x)
  exact ⟨⟨⟨⟨⟨⟨⟨Layout.takes_string rfl, Layout.takes_string rfl,
    Layout.takes_natural (fun _ => rfl) hport⟩, hstring fun _ => rfl⟩, hstring fun _ => rfl⟩,
    hstring fun _ => rfl⟩, hstring fun _ => rfl⟩,
    fun d hd => Layout.takes_natural (fun _ => rfl) (hr.dimensions d hd).small.2⟩,
    fun d hd => Layout.takes_natural (fun _ => rfl) (hr.dimensions d hd).small.1⟩

theorem ofEntries_fields (r : AuthRequest) : AuthFields.ofEntries (field? r.fields) =
    { username := some r.credentials.username
      host := some r.credentials.host
      port := some r.credentials.port
      password := r.credentials.password
      privateKey := r.credentials.privateKey
      passphrase := r.credentials.passphrase
      term := r.term
      cols := r.dimensions.map fun d => (d.cols : Int)
      rows := r.dimensions.map fun d => (d.rows : Int) } := by
  simp [AuthFields.ofEntries, fields, field?_append, field?_given, field?_cons]

end AuthRequest

/-! ### Rules that are kept -/

theorem requireText_of_filled (field : Field) {s : String} (h : Text.isAllBlank s.toList = false) :
    requireText field (some s) = .ok s := by
  simp [requireText, h]

theorem requireWithin_natural (field : Field) {low high n : Nat} (h : low ≤ n ∧ n ≤ high) :
    requireWithin field low high n = .ok n := by
  have hbounds : (low : Int) ≤ n ∧ (n : Int) ≤ high := by omega
  simp [requireWithin, hbounds]

theorem optionalWithin_natural (field : Field) {low high n : Nat} (h : low ≤ n ∧ n ≤ high) :
    optionalWithin field low high (some (n : Int)) = .ok (some n) := by
  simp [optionalWithin, requireWithin_natural field h, Except.map]

theorem optionalWithin_map {α : Type} (field : Field) {low high : Nat} {a : Option α} {f : α → Nat}
    (h : ∀ x ∈ a, low ≤ f x ∧ f x ≤ high) :
    optionalWithin field low high (a.map fun x => (f x : Int)) = .ok (a.map f) := by
  cases a with
  | none => rfl
  | some x => exact optionalWithin_natural field (h x rfl)

theorem nonempty_of_ne {s : Option String} (h : s ≠ some "") : nonempty s = s := by
  cases s with
  | none => rfl
  | some s =>
      have hs : s ≠ "" := fun hs => h (congrArg some hs)
      simp [nonempty, Option.filter, hs]

theorem Credentials.unbracket_of_bare {host : String}
    (h : ∀ x, x ≠ [] → host.toList ≠ '[' :: (x ++ [']'])) : unbracket host = host := by
  unfold unbracket
  split
  · rename_i r hr
    split
    · rename_i hlast
      obtain ⟨xs, rfl⟩ := List.getLast?_eq_some_iff.mp hlast.1
      exact absurd hr (h xs (by simpa using hlast.2))
    · rfl
  · rfl

theorem AuthRequest.InRange.check {r : AuthRequest} (hr : r.InRange) :
    (AuthFields.ofEntries (field? r.fields)).check = .ok r := by
  have hcols := optionalWithin_map .cols fun d hd => (hr.dimensions d hd).2
  have hrows := optionalWithin_map .rows fun d hd => (hr.dimensions d hd).1
  rw [r.ofEntries_fields]
  simp only [AuthFields.check, optionalExtent, requireText_of_filled _ hr.username,
    requireText_of_filled _ hr.host, optionalWithin_natural .port hr.port, hcols, hrows,
    nonempty_of_ne hr.password, nonempty_of_ne hr.privateKey, nonempty_of_ne hr.passphrase,
    nonempty_of_ne hr.term, Credentials.unbracket_of_bare hr.bare, bind, Except.bind, pure,
    Except.pure]
  obtain ⟨credentials, term, dimensions⟩ := r
  cases dimensions <;> rfl

/-! ### The other records -/

namespace TerminalRequest

theorem nodup_fields (r : TerminalRequest) : (names r.fields).Nodup := by
  have hsub : (names r.fields).Sublist TerminalFields.layout.fields := by
    simp only [fields, names, List.map_append]
    exact (names_given_sublist _ _).append (.refl _)
  exact hsub.nodup (by decide)

theorem InRange.takes {r : TerminalRequest} (hr : r.InRange) :
    ∀ f ∈ r.fields, TerminalFields.layout.Takes f := by
  simp only [fields, List.forall_mem_append, List.forall_mem_cons, forall_mem_given,
    List.not_mem_nil, false_implies, implies_true, and_true]
  exact ⟨fun _ _ => Layout.takes_string rfl,
    Layout.takes_natural (fun _ => rfl) hr.dimensions.small.1,
    Layout.takes_natural (fun _ => rfl) hr.dimensions.small.2⟩

theorem ofEntries_fields (r : TerminalRequest) : TerminalFields.ofEntries (field? r.fields) =
    { term := r.term, rows := some r.dimensions.rows, cols := some r.dimensions.cols } := by
  simp [TerminalFields.ofEntries, fields, field?_append, field?_given, field?_cons]

theorem InRange.check {r : TerminalRequest} (hr : r.InRange) :
    (TerminalFields.ofEntries (field? r.fields)).check = .ok r := by
  rw [r.ofEntries_fields]
  simp only [TerminalFields.check, optionalExtent, optionalWithin_natural .rows hr.dimensions.1,
    optionalWithin_natural .cols hr.dimensions.2, nonempty_of_ne hr.term, bind, Except.bind, pure,
    Except.pure]
  rfl

end TerminalRequest

namespace Dimensions

theorem nodup_fields (d : Dimensions) : (names d.fields).Nodup := by
  simp [fields]

theorem InRange.takes {d : Dimensions} (hd : d.InRange) :
    ∀ f ∈ d.fields, ResizeFields.layout.Takes f := by
  simp only [fields, List.forall_mem_cons, List.not_mem_nil, false_implies, implies_true,
    and_true]
  exact ⟨Layout.takes_natural (fun _ => rfl) hd.small.1,
    Layout.takes_natural (fun _ => rfl) hd.small.2⟩

theorem ofEntries_fields (d : Dimensions) : ResizeFields.ofEntries (field? d.fields) =
    { rows := some d.rows, cols := some d.cols } := by
  simp [ResizeFields.ofEntries, fields, field?_cons]

theorem InRange.check {d : Dimensions} (hd : d.InRange) :
    (ResizeFields.ofEntries (field? d.fields)).check = .ok d := by
  rw [d.ofEntries_fields]
  simp only [ResizeFields.check, requireWithin_natural .rows hd.1, requireWithin_natural .cols hd.2,
    bind, Except.bind, pure, Except.pure]

end Dimensions

namespace ExecRequest

theorem nodup_fields (r : ExecRequest) : (names r.fields).Nodup := by
  have hsub : (names r.fields).Sublist ExecFields.layout.fields := by
    simp only [fields, names, List.map_append]
    exact (((List.Sublist.refl _).append (names_given_sublist _ _)).append (.refl _)).append
      (names_given_sublist _ _)
  exact hsub.nodup (by decide)

theorem InRange.canBeWritten_env {r : ExecRequest} (hr : r.InRange) :
    CanBeWritten 125 (.object (Environment.members r.env)) := by
  have hnodup : (names (Environment.members r.env)).Nodup := by
    simpa [Environment.members, names, Function.comp_def] using hr.env
  refine canBeWritten_object hnodup fun f hf => ?_
  obtain ⟨pair, -, rfl⟩ := List.mem_map.mp hf
  exact canBeWritten_string _ _

theorem InRange.takes {r : ExecRequest} (hr : r.InRange) :
    ∀ f ∈ r.fields, ExecFields.layout.Takes f := by
  simp only [fields, List.forall_mem_append, List.forall_mem_cons, forall_mem_given,
    List.not_mem_nil, false_implies, implies_true, and_true]
  exact ⟨⟨⟨⟨Layout.takes_string rfl, rfl, canBeWritten_bool _ _⟩,
    fun _ _ => Layout.takes_string rfl⟩, Layout.takes_natural (fun _ => rfl) hr.dimensions.small.2,
    Layout.takes_natural (fun _ => rfl) hr.dimensions.small.1, rfl, hr.canBeWritten_env⟩,
    fun t ht => Layout.takes_natural (fun _ => rfl) (hr.timeout t ht).2⟩

theorem ofEntries_fields (r : ExecRequest) : ExecFields.ofEntries (field? r.fields) =
    { command := some r.command
      pty := some r.pty
      term := r.term
      cols := some r.dimensions.cols
      rows := some r.dimensions.rows
      env := some (Environment.members r.env)
      timeout := r.timeout.map Int.ofNat } := by
  simp [ExecFields.ofEntries, fields, field?_append, field?_given, field?_cons]

theorem requirePairs_members (env : Environment.Pairs) :
    requirePairs (Environment.members env) = .ok env := by
  induction env with
  | nil => rfl
  | cons pair env ih =>
      simp only [Environment.members] at ih
      simp [Environment.members, requirePairs, ih, Except.map]

theorem optionalPositive_map {timeout : Option Nat} (h : ∀ t ∈ timeout, 1 ≤ t) :
    optionalPositive .timeout (timeout.map Int.ofNat) = .ok timeout := by
  cases timeout with
  | none => rfl
  | some t =>
      have hpos : 0 < Int.ofNat t := Int.natCast_pos.mpr (h t rfl)
      simp only [optionalPositive, Option.map_some, if_pos hpos]
      rfl

theorem InRange.check {r : ExecRequest} (hr : r.InRange) :
    (ExecFields.ofEntries (field? r.fields)).check = .ok r := by
  rw [r.ofEntries_fields]
  simp only [ExecFields.check, optionalExtent, requireText_of_filled _ hr.command,
    optionalWithin_natural .cols hr.dimensions.2, optionalWithin_natural .rows hr.dimensions.1,
    Option.getD_some, requirePairs_members, optionalPositive_map fun t ht => (hr.timeout t ht).1,
    nonempty_of_ne hr.term, bind, Except.bind, pure, Except.pure]
  rfl

end ExecRequest

namespace ControlAction

theorem nodup_fields (a : ControlAction) : (names a.fields).Nodup := by
  simp [fields]

theorem takes (a : ControlAction) :
    ∀ f ∈ a.fields, ControlFields.layout.Takes f := by
  simp only [fields, List.forall_mem_cons, List.not_mem_nil, false_implies, implies_true,
    and_true]
  exact Layout.takes_string rfl

theorem check (a : ControlAction) : (ControlFields.ofEntries (field? a.fields)).check = .ok a := by
  simp [ControlFields.ofEntries, fields, field?_cons, ControlFields.check, a.ofName?_name]

end ControlAction

/-! ### Messages -/

namespace ClientMessage

theorem ofEnvelope_of_carries {m : ClientMessage} {payload : Value} (hm : m.InRange)
    (h : m.Carries payload) : ofEnvelope ⟨m.kind, payload⟩ = .ok m := by
  cases h with
  | auth r h =>
      have hr : r.InRange := hm
      exact message_of_takes AuthFields.fills.describes r.nodup_fields h hr.takes hr.check
  | terminal r h =>
      have hr : r.InRange := hm
      exact message_of_takes TerminalFields.fills.describes r.nodup_fields h hr.takes hr.check
  | resize d h =>
      have hd : d.InRange := hm
      exact message_of_takes ResizeFields.fills.describes d.nodup_fields h hd.takes hd.check
  | exec r h =>
      have hr : r.InRange := hm
      exact message_of_takes ExecFields.fills.describes r.nodup_fields h hr.takes hr.check
  | control a h =>
      exact message_of_takes ControlFields.fills.describes a.nodup_fields h a.takes a.check
  | data s => rfl

theorem canBeWritten_of_takes {ρ : Type} {layout : Layout ρ} (hn : (names fields).Nodup)
    (ht : ∀ f ∈ fields, layout.Takes f) : CanBeWritten Envelope.depthLimit (.object fields) :=
  canBeWritten_object hn fun f hf => (ht f hf).2

theorem exists_carries {m : ClientMessage} (hm : m.InRange) :
    ∃ payload, m.Carries payload ∧ CanBeWritten Envelope.depthLimit payload := by
  cases m with
  | auth r => exact ⟨_, .auth r (.refl _), canBeWritten_of_takes r.nodup_fields hm.takes⟩
  | terminal r => exact ⟨_, .terminal r (.refl _), canBeWritten_of_takes r.nodup_fields hm.takes⟩
  | resize d => exact ⟨_, .resize d (.refl _), canBeWritten_of_takes d.nodup_fields hm.takes⟩
  | exec r => exact ⟨_, .exec r (.refl _), canBeWritten_of_takes r.nodup_fields hm.takes⟩
  | control a => exact ⟨_, .control a (.refl _), canBeWritten_of_takes a.nodup_fields a.takes⟩
  | data bytes =>
      obtain ⟨s, rfl⟩ := hm
      exact ⟨_, .data s, canBeWritten_string _ s⟩

/-- A message can be written, and however it is written, it is read back as it was. The data of a
text frame are those of a binary frame with the octets of the same string. -/
theorem ofText_of_writtenAs {m : ClientMessage} (hm : m.InRange) :
    (∃ text, m.WrittenAs text) ∧ ∀ text, m.WrittenAs text →
      ofText text = .ok m ∧
        ∀ s : String, m = .data (Text.Utf8.encode s.toList) →
          (Http.Frame.text text).message? =
            (Http.Frame.binary (Text.Utf8.encode s.toList)).message? := by
  constructor
  · obtain ⟨payload, hcarries, hpayload⟩ := exists_carries hm
    obtain ⟨text, htext⟩ := Envelope.exists_writtenAs (e := ⟨m.kind, payload⟩) hpayload
    exact ⟨text, payload, hcarries, htext⟩
  · rintro text ⟨payload, hcarries, hwritten⟩
    have htext : ofText text = .ok m := by
      simp only [ofText, Envelope.read_of_writtenAs hwritten, ofEnvelope_of_carries hm hcarries]
    refine ⟨htext, ?_⟩
    rintro s rfl
    simp only [Http.Frame.message?, htext]

/-- A command with a quotation mark and a line end in it. -/
def listing : ExecRequest where
  command := "ls \"a\nb\""
  pty := true
  term := none
  dimensions := ⟨24, 9999⟩
  env := [("LANG", "C"), ("A", "")]
  timeout := some 0x7fffffffffffffff

theorem ofText_of_writtenAs_listing :
    listing.InRange ∧
      ∃ text, WrittenAs (.exec listing) text ∧ ofText text = .ok (.exec listing) := by
  have hr : listing.InRange :=
    { command := by decide
      term := by decide
      dimensions := by simp [listing, Dimensions.InRange]
      env := by decide
      timeout := by simp [listing] }
  obtain ⟨⟨text, htext⟩, hread⟩ := ofText_of_writtenAs (m := .exec listing) hr
  exact ⟨hr, text, htext, (hread text htext).1⟩

end ClientMessage

end TerminalGateway
