import TerminalGateway.Json.Fault

/-!
Records in JSON: an object whose fields come in any order, or an array of all fields in the
order of the layout. Fields that the record does not have are passed over. Values are looked at
in the order in which they stand, so the first that does not fit is the one reported.
-/

namespace TerminalGateway.Json

/-- How a record is put together: its name and fields, the record without any of them, and the
record with one more. -/
structure Layout (ρ : Type) where
  name : String
  fields : List String
  blank : ρ
  put : ρ → String → Value → Except Cause ρ

namespace Layout

variable {ρ : Type}

def putAll (layout : Layout ρ) (r : ρ) : List (String × Value) → Except Cause ρ
  | [] => .ok r
  | (name, v) :: rest =>
      match layout.put r name v with
      | .ok r => layout.putAll r rest
      | .error cause => .error cause

def read (layout : Layout ρ) : Value → Except Cause ρ
  | .object fields => layout.putAll layout.blank fields
  | .array items =>
      match layout.putAll layout.blank (layout.fields.zip items) with
      | .error cause => .error cause
      | .ok r =>
          if items.length < layout.fields.length then
            .error (.tooFewItems items.length layout.name layout.fields.length)
          else if layout.fields.length < items.length then .error (.tooManyItems items.length)
          else .ok r
  | v => .error (.mismatch v.found (.record layout.name))

end Layout

def optionalString : Value → Except Cause (Option String)
  | .null => .ok none
  | .string s => .ok (some s)
  | v => .error (.mismatch v.found .string)

def optionalBool : Value → Except Cause (Option Bool)
  | .null => .ok none
  | .bool b => .ok (some b)
  | v => .error (.mismatch v.found .bool)

/-- An integer of 64 bits with a sign, or none for null. -/
def optionalInteger : Value → Except Cause (Option Int)
  | .null => .ok none
  | .number (.integer i) =>
      if i < 0x8000000000000000 then .ok (some i) else .error (.integerTooGreat i.toNat)
  | v => .error (.mismatch v.found .integer)

def optionalFields : Value → Except Cause (Option (List (String × Value)))
  | .null => .ok none
  | .object fields => .ok (some fields)
  | v => .error (.mismatch v.found .map)

end TerminalGateway.Json
