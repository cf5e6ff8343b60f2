import TerminalGateway.Json.Layout
import TerminalGateway.Proofs.Json.Fields

/-!
Reading a record comes down to looking at each of its values by itself: the first value that does
not fit its field is the fault of the whole, and if all of them fit, the record is what its entries
say.
-/

namespace TerminalGateway.Json

/-- What stands under a name, with one entry put over others. -/
def overlay (look : String → Option Value) (name : String) (v : Value) : String → Option Value :=
  fun n => if n = name then some v else look n

@[simp] theorem overlay_self (look : String → Option Value) (name : String) (v : Value) :
    overlay look name v name = some v := by
  simp [overlay]

theorem overlay_of_ne (look : String → Option Value) {n name : String} (h : n ≠ name) (v : Value) :
    overlay look name v n = look n := by
  simp [overlay, h]

theorem foldl_overlay {fields : List (String × Value)} (h : (names fields).Nodup)
    (look : String → Option Value) (name : String) :
    fields.foldl (fun look f => overlay look f.1 f.2) look name =
      (field? fields name).or (look name) := by
  induction fields generalizing look with
  | nil => rfl
  | cons f rest ih =>
      obtain ⟨hf, hrest⟩ := List.nodup_cons.mp h
      rw [List.foldl_cons, ih hrest, field?_cons]
      by_cases hn : f.1 = name
      · subst hn
        have hnone : field? rest f.1 = none := field?_eq_none_iff.mpr hf
        simp [hnone]
      · simp [hn, overlay_of_ne look (Ne.symm hn)]

namespace Value

/-- What a value has under the name of a field: an object by name, a list by the place of the field
among those of a record. -/
def entry? (fields : List String) : Value → String → Option Value
  | .object given => field? given
  | .array items => field? (fields.zip items)
  | _ => fun _ => none

/-! What an entry says, if it is there and of the kind that is asked for. -/

def text? : Option Value → Option String
  | some (.string s) => some s
  | _ => none

def integer? : Option Value → Option Int
  | some (.number (.integer i)) => some i
  | _ => none

def truth? : Option Value → Option Bool
  | some (.bool b) => some b
  | _ => none

def members? : Option Value → Option (List (String × Value))
  | some (.object fields) => some fields
  | _ => none

end Value

theorem optionalString_cases (v : Value) :
    optionalString v = .ok (Value.text? (some v)) ∨ ∃ cause, optionalString v = .error cause := by
  cases v <;> simp [optionalString, Value.text?]

theorem optionalBool_cases (v : Value) :
    optionalBool v = .ok (Value.truth? (some v)) ∨ ∃ cause, optionalBool v = .error cause := by
  cases v <;> simp [optionalBool, Value.truth?]

theorem optionalInteger_cases (v : Value) :
    optionalInteger v = .ok (Value.integer? (some v)) ∨
      ∃ cause, optionalInteger v = .error cause := by
  match v with
  | .null | .bool _ | .number (.real _) | .string _ | .array _ | .object _ =>
      simp [optionalInteger, Value.integer?]
  | .number (.integer i) =>
      by_cases h : i < 0x8000000000000000 <;> simp [optionalInteger, Value.integer?, h]

theorem optionalFields_cases (v : Value) :
    optionalFields v = .ok (Value.members? (some v)) ∨
      ∃ cause, optionalFields v = .error cause := by
  cases v <;> simp [optionalFields, Value.members?]

namespace Layout

variable {ρ : Type} {layout : Layout ρ} {record : (String → Option Value) → ρ}

/-- What is wrong with a value under a name, if anything is. -/
def fault? (layout : Layout ρ) (name : String) (v : Value) : Option Cause :=
  match layout.put layout.blank name v with
  | .ok _ => none
  | .error cause => some cause

/-- The first fault among entries. -/
def firstFault? (layout : Layout ρ) (fields : List (String × Value)) : Option Cause :=
  fields.findSome? fun f => layout.fault? f.1 f.2

theorem firstFault?_eq_none_iff {fields : List (String × Value)} :
    layout.firstFault? fields = none ↔ ∀ f ∈ fields, layout.fault? f.1 f.2 = none := by
  simp [firstFault?]

/-- A record is what its entries say, and takes whatever fits. -/
structure Describes (layout : Layout ρ) (record : (String → Option Value) → ρ) : Prop where
  blank : layout.blank = record fun _ => none
  put : ∀ look name v, layout.put (record look) name v =
    match layout.fault? name v with
    | none => .ok (record (overlay look name v))
    | some cause => .error cause

theorem Describes.putAll (h : layout.Describes record) (look : String → Option Value)
    (fields : List (String × Value)) : layout.putAll (record look) fields =
      match layout.firstFault? fields with
      | none => .ok (record (fields.foldl (fun look f => overlay look f.1 f.2) look))
      | some cause => .error cause := by
  induction fields generalizing look with
  | nil => rfl
  | cons f rest ih =>
      rw [putAll.eq_2, h.put, firstFault?, List.findSome?_cons]
      cases layout.fault? f.1 f.2 with
      | none => exact ih _
      | some cause => rfl

/-- A record that is read from distinct entries. -/
theorem Describes.putAll_blank (h : layout.Describes record) {fields : List (String × Value)}
    (hf : (names fields).Nodup) : layout.putAll layout.blank fields =
      match layout.firstFault? fields with
      | none => .ok (record (field? fields))
      | some cause => .error cause := by
  have hlook :
      fields.foldl (fun look f => overlay look f.1 f.2) (fun _ => none) = field? fields := by
    funext name
    simp [foldl_overlay hf]
  rw [h.blank, h.putAll, hlook]

theorem nodup_names_zip {fields : List String} (h : fields.Nodup) (items : List Value) :
    (names (fields.zip items)).Nodup := by
  induction fields generalizing items with
  | nil => simp
  | cons name fields ih =>
      cases items with
      | nil => simp
      | cons v items =>
          obtain ⟨hname, hrest⟩ := List.nodup_cons.mp h
          rw [List.zip_cons_cons, names, List.map_cons]
          refine List.nodup_cons.mpr ⟨fun hm => ?_, ih hrest items⟩
          obtain ⟨⟨_, w⟩, hw, rfl⟩ := List.mem_map.mp hm
          exact hname (List.of_mem_zip hw).1

/-- A record that was read is what its entries say. -/
theorem Describes.eq_of_read (h : layout.Describes record) (hn : layout.fields.Nodup)
    {payload : Value} (hp : Envelope.IsTidy payload) {r : ρ} (hr : layout.read payload = .ok r) :
    r = record (payload.entry? layout.fields) := by
  unfold read at hr
  split at hr
  · rename_i fields
    rw [h.putAll_blank (hp fields rfl)] at hr
    split at hr
    · exact (Except.ok.inj hr).symm
    · simp at hr
  · rename_i items
    rw [h.putAll_blank (nodup_names_zip hn items)] at hr
    generalize layout.firstFault? (layout.fields.zip items) = fault at hr
    cases fault with
    | some cause => simp at hr
    | none =>
        simp only at hr
        split at hr
        · simp at hr
        split at hr
        · simp at hr
        · exact (Except.ok.inj hr).symm
  · simp at hr

end Layout

end TerminalGateway.Json
