import TerminalGateway.Proofs.Message.Records

/-!
What declared fields may hold. A record depends on nothing but its declared fields, and a field that
is null counts as a missing one.
-/

namespace TerminalGateway

open Json

/-- A value that a field of this type takes. -/
def FieldType.Holds : FieldType → Value → Prop
  | _, .null => True
  | .text, .string _ => True
  | .integer, .number (.integer i) => i < 0x8000000000000000
  | .truth, .bool _ => True
  | .members, .object _ => True
  | _, _ => False

/-- An entry without the difference of null and nothing. -/
def Json.Value.told : Option Value → Option Value
  | some .null => none
  | v => v

theorem Json.Value.told_of_ne {v : Value} (h : v ≠ .null) : told (some v) = some v := by
  cases v <;> first | rfl | exact absurd rfl h

namespace FieldType

theorem sense_told (t : FieldType) (v : Option Value) : t.sense (Value.told v) = t.sense v := by
  cases t <;> rcases v with _ | _ | _ | _ | _ | _ | _ <;> rfl

theorem read_eq_ok_iff (t : FieldType) (v : Value) :
    t.read v = .ok (t.sense (some v)) ↔ t.Holds v := by
  cases t with
  | text => cases v <;> simp [read, sense, Holds, optionalString, Value.text?]
  | truth => cases v <;> simp [read, sense, Holds, optionalBool, Value.truth?]
  | members => cases v <;> simp [read, sense, Holds, optionalFields, Value.members?]
  | integer =>
      cases v with
      | number figure =>
          cases figure with
          | integer i =>
              by_cases hi : i < 0x8000000000000000 <;>
                simp [read, sense, Holds, optionalInteger, Value.integer?, hi]
          | real => simp [read, sense, Holds, optionalInteger, Value.integer?]
      | null | bool | string | array | object =>
          simp [read, sense, Holds, optionalInteger, Value.integer?]

end FieldType

namespace Json.Layout

variable {ρ : Type} {layout : Layout ρ} {record : (String → Option Value) → ρ} {name : String}
variable {v : Value}

/-- A record has these fields and no others. -/
structure Declares (layout : Layout ρ) (record : (String → Option Value) → ρ)
    (declared : List (String × FieldType)) : Prop where
  describes : layout.Describes record
  order : declared.map (·.1) = layout.fields
  nodup : layout.fields.Nodup
  fits : ∀ d ∈ declared, ∀ v, layout.fault? d.1 v = none ↔ d.2.Holds v
  other : ∀ name v, name ∉ layout.fields → layout.fault? name v = none
  told : ∀ look, record (fun name => Value.told (look name)) = record look
  only : ∀ look look' : String → Option Value,
    (∀ d ∈ declared, look d.1 = look' d.1) → record look = record look'

/-- Entries that are the same but for null fields give the same record. -/
theorem Declares.record_eq {declared : List (String × FieldType)}
    (h : layout.Declares record declared) {look look' : String → Option Value}
    (hlook : ∀ d ∈ declared, Value.told (look d.1) = Value.told (look' d.1)) :
    record look = record look' := by
  rw [← h.told look, ← h.told look']
  exact h.only _ _ hlook

theorem Declares.mem_fields {declared : List (String × FieldType)}
    (h : layout.Declares record declared) :
    name ∈ layout.fields ↔ ∃ d ∈ declared, d.1 = name := by
  rw [← h.order, List.mem_map]

theorem Declares.fault?_null {declared : List (String × FieldType)}
    (h : layout.Declares record declared) (name : String) : layout.fault? name .null = none := by
  by_cases hn : name ∈ layout.fields
  · obtain ⟨d, hd, rfl⟩ := h.mem_fields.mp hn
    exact (h.fits d hd .null).mpr (by cases d.2 <;> trivial)
  · exact h.other name .null hn

/-- A record that is filled field by field has just these fields. -/
theorem Fills.declares {declared : List (String × FieldType)} (h : layout.Fills record declared) :
    layout.Declares record declared where
  describes := h.describes
  order := h.order
  nodup := h.nodup
  fits d hd v := by
    obtain ⟨set, hput, -⟩ := h.put d hd
    rw [← d.2.read_eq_ok_iff, fault?, hput]
    rcases d.2.read_cases v with hv | ⟨cause, hv⟩ <;> simp [hv, Except.map]
  other name v hn := by rw [fault?, h.other _ name v hn]
  told look := h.only _ _ fun d _ => d.2.sense_told (look d.1)
  only look look' hlook := h.only look look' fun d hd => congrArg d.2.sense (hlook d hd)

end Json.Layout

end TerminalGateway
