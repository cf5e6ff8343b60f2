import TerminalGateway.Message.Decode
import TerminalGateway.Proofs.Json.Layout

/-!
The payloads of messages as records: each kind declares its fields with their types, and a payload
is what its entries say in these fields.
-/

namespace TerminalGateway

open Json

/-! ### Declared fields -/

/-- What a declared field may hold besides null. -/
inductive FieldType
  | text
  | integer
  | truth
  | members
  deriving DecidableEq, Repr

namespace FieldType

abbrev Content : FieldType → Type
  | .text => String
  | .integer => Int
  | .truth => Bool
  | .members => List (String × Value)

def read : (t : FieldType) → Value → Except Cause (Option t.Content)
  | .text => optionalString
  | .integer => optionalInteger
  | .truth => optionalBool
  | .members => optionalFields

/-- What an entry says in a field of this type. -/
def sense : (t : FieldType) → Option Value → Option t.Content
  | .text => Value.text?
  | .integer => Value.integer?
  | .truth => Value.truth?
  | .members => Value.members?

theorem read_cases (t : FieldType) (v : Value) :
    t.read v = .ok (t.sense (some v)) ∨ ∃ cause, t.read v = .error cause := by
  cases t with
  | text => exact optionalString_cases v
  | integer => exact optionalInteger_cases v
  | truth => exact optionalBool_cases v
  | members => exact optionalFields_cases v

end FieldType

/-- The fields of the payloads of a kind, in the order of their declaration. -/
def Envelope.declared : String → List (String × FieldType)
  | "auth" =>
      [("username", .text), ("host", .text), ("port", .integer), ("password", .text),
        ("privateKey", .text), ("passphrase", .text), ("term", .text), ("cols", .integer),
        ("rows", .integer)]
  | "terminal" => [("term", .text), ("rows", .integer), ("cols", .integer)]
  | "resize" => [("rows", .integer), ("cols", .integer)]
  | "exec" =>
      [("command", .text), ("pty", .truth), ("term", .text), ("cols", .integer),
        ("rows", .integer), ("env", .members), ("timeoutMs", .integer)]
  | "control" => [("action", .text)]
  | _ => []

namespace Json.Layout

variable {ρ : Type} {layout : Layout ρ} {record : (String → Option Value) → ρ}
variable {declared : List (String × FieldType)}

/-- A record is filled field by field: each of its fields takes what it reads, leaves the others as
they are, and says no more than its entry. -/
structure Fills (layout : Layout ρ) (record : (String → Option Value) → ρ)
    (declared : List (String × FieldType)) : Prop where
  order : declared.map (·.1) = layout.fields
  nodup : layout.fields.Nodup
  blank : layout.blank = record fun _ => none
  put : ∀ d ∈ declared, ∃ set : ρ → Option d.2.Content → ρ,
    (∀ r v, layout.put r d.1 v = (d.2.read v).map (set r)) ∧
      ∀ look v, set (record look) (d.2.sense (some v)) = record (overlay look d.1 v)
  other : ∀ r name v, name ∉ layout.fields → layout.put r name v = .ok r
  only : ∀ look look' : String → Option Value,
    (∀ d ∈ declared, d.2.sense (look d.1) = d.2.sense (look' d.1)) → record look = record look'

namespace Fills

theorem mem_fields (h : layout.Fills record declared) {name : String} :
    name ∈ layout.fields ↔ ∃ d ∈ declared, d.1 = name := by
  rw [← h.order, List.mem_map]

theorem describes (h : layout.Fills record declared) : layout.Describes record where
  blank := h.blank
  put look name v := by
    by_cases hn : name ∈ layout.fields
    · obtain ⟨d, hd, rfl⟩ := h.mem_fields.mp hn
      obtain ⟨set, hput, hset⟩ := h.put d hd
      rcases d.2.read_cases v with hv | ⟨cause, hv⟩
      · simp [fault?, hput, hv, Except.map, hset]
      · simp [fault?, hput, hv, Except.map]
    · have hsame : record look = record (overlay look name v) := h.only _ _ fun d hd => by
        have hne : d.1 ≠ name := fun heq => hn (h.mem_fields.mpr ⟨d, hd, heq⟩)
        rw [overlay_of_ne look hne]
      simp only [fault?, h.other _ name v hn, hsame]

end Fills

end Json.Layout

/-! ### The records of messages -/

def AuthFields.ofEntries (look : String → Option Value) : AuthFields where
  username := Value.text? (look "username")
  host := Value.text? (look "host")
  port := Value.integer? (look "port")
  password := Value.text? (look "password")
  privateKey := Value.text? (look "privateKey")
  passphrase := Value.text? (look "passphrase")
  term := Value.text? (look "term")
  cols := Value.integer? (look "cols")
  rows := Value.integer? (look "rows")

def TerminalFields.ofEntries (look : String → Option Value) : TerminalFields where
  term := Value.text? (look "term")
  rows := Value.integer? (look "rows")
  cols := Value.integer? (look "cols")

def ResizeFields.ofEntries (look : String → Option Value) : ResizeFields where
  rows := Value.integer? (look "rows")
  cols := Value.integer? (look "cols")

def ExecFields.ofEntries (look : String → Option Value) : ExecFields where
  command := Value.text? (look "command")
  pty := Value.truth? (look "pty")
  term := Value.text? (look "term")
  cols := Value.integer? (look "cols")
  rows := Value.integer? (look "rows")
  env := Value.members? (look "env")
  timeout := Value.integer? (look "timeoutMs")

def ControlFields.ofEntries (look : String → Option Value) : ControlFields where
  action := Value.text? (look "action")

theorem AuthFields.fills : AuthFields.layout.Fills ofEntries (Envelope.declared "auth") where
  order := rfl
  nodup := by decide
  blank := rfl
  put := by
    simp only [Envelope.declared, List.forall_mem_cons, List.not_mem_nil, false_imp_iff,
      implies_true, and_true]
    and_intros
    all_goals exact ⟨_, fun _ _ => rfl, fun _ _ => by simp [ofEntries, FieldType.sense, overlay]⟩
  only look look' h := by
    simp only [Envelope.declared, List.forall_mem_cons, FieldType.sense] at h
    simp [ofEntries, h]
  other r name v hn := by
    simp only [layout] at hn ⊢
    split <;> simp_all

theorem TerminalFields.fills :
    TerminalFields.layout.Fills ofEntries (Envelope.declared "terminal") where
  order := rfl
  nodup := by decide
  blank := rfl
  put := by
    simp only [Envelope.declared, List.forall_mem_cons, List.not_mem_nil, false_imp_iff,
      implies_true, and_true]
    and_intros
    all_goals exact ⟨_, fun _ _ => rfl, fun _ _ => by simp [ofEntries, FieldType.sense, overlay]⟩
  only look look' h := by
    simp only [Envelope.declared, List.forall_mem_cons, FieldType.sense] at h
    simp [ofEntries, h]
  other r name v hn := by
    simp only [layout] at hn ⊢
    split <;> simp_all

theorem ResizeFields.fills : ResizeFields.layout.Fills ofEntries (Envelope.declared "resize") where
  order := rfl
  nodup := by decide
  blank := rfl
  put := by
    simp only [Envelope.declared, List.forall_mem_cons, List.not_mem_nil, false_imp_iff,
      implies_true, and_true]
    and_intros
    all_goals exact ⟨_, fun _ _ => rfl, fun _ _ => by simp [ofEntries, FieldType.sense, overlay]⟩
  only look look' h := by
    simp only [Envelope.declared, List.forall_mem_cons, FieldType.sense] at h
    simp [ofEntries, h]
  other r name v hn := by
    simp only [layout] at hn ⊢
    split <;> simp_all

theorem ExecFields.fills : ExecFields.layout.Fills ofEntries (Envelope.declared "exec") where
  order := rfl
  nodup := by decide
  blank := rfl
  put := by
    simp only [Envelope.declared, List.forall_mem_cons, List.not_mem_nil, false_imp_iff,
      implies_true, and_true]
    and_intros
    all_goals exact ⟨_, fun _ _ => rfl, fun _ _ => by simp [ofEntries, FieldType.sense, overlay]⟩
  only look look' h := by
    simp only [Envelope.declared, List.forall_mem_cons, FieldType.sense] at h
    simp [ofEntries, h]
  other r name v hn := by
    simp only [layout] at hn ⊢
    split <;> simp_all

theorem ControlFields.fills :
    ControlFields.layout.Fills ofEntries (Envelope.declared "control") where
  order := rfl
  nodup := by decide
  blank := rfl
  put := by
    simp only [Envelope.declared, List.forall_mem_cons, List.not_mem_nil, false_imp_iff,
      implies_true, and_true]
    exact ⟨_, fun _ _ => rfl, fun _ _ => by simp [ofEntries, FieldType.sense, overlay]⟩
  only look look' h := by
    simp only [Envelope.declared, List.forall_mem_cons, FieldType.sense] at h
    simp [ofEntries, h]
  other r name v hn := by
    simp only [layout] at hn ⊢
    split <;> simp_all

namespace ClientMessage

variable {ρ : Type} {layout : Layout ρ} {record : (String → Option Value) → ρ}

/-- A payload that was read as a record is what its entries say. -/
theorem eq_of_readPayload (h : layout.Describes record) (hn : layout.fields.Nodup) {payload : Value}
    (hp : Envelope.IsTidy payload) {r : ρ} (hr : readPayload layout payload = .ok r) :
    r = record (payload.entry? layout.fields) := by
  unfold readPayload at hr
  simp only at hr
  split at hr
  · rename_i r' hread
    obtain rfl := Except.ok.inj hr
    cases payload with
    | null =>
        have hempty : Envelope.IsTidy (.object []) := by simp [Envelope.IsTidy]
        exact h.eq_of_read hn hempty hread
    | bool _ | number _ | string _ | array _ | object _ => exact h.eq_of_read hn hp hread
  · simp at hr

/-- The order of the fields of a payload does not matter once all of them fit. -/
theorem readPayload_perm (h : layout.Describes record) {fields more : List (String × Value)}
    (hf : (names fields).Nodup) (hp : fields.Perm more) {r : ρ}
    (hr : readPayload layout (.object fields) = .ok r) :
    readPayload layout (.object more) = .ok r := by
  have hmore : (names more).Nodup := (hp.map _).nodup hf
  simp only [readPayload, Layout.read, h.putAll_blank hf, h.putAll_blank hmore] at hr ⊢
  cases hfault : layout.firstFault? fields with
  | some cause => simp [hfault] at hr
  | none =>
      have hnone : layout.firstFault? more = none := by
        rw [Layout.firstFault?_eq_none_iff] at hfault ⊢
        exact fun f hm => hfault f (hp.mem_iff.mpr hm)
      simpa [hfault, hnone, field?_perm hf hp] using hr

end ClientMessage

end TerminalGateway
