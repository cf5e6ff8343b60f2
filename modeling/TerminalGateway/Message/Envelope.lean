import TerminalGateway.Json.Reader

/-!
The envelope of a message: its kind and its payload, which may be missing.
-/

namespace TerminalGateway

structure Envelope where
  kind : String
  payload : Json.Value

namespace Envelope

open Json

/-- How deep the lists and objects of a payload may nest. -/
def depthLimit : Nat := 126

/-- A fault that belongs to the envelope as a whole stands after its end, if the end follows. -/
def faultAtEnd (cause : Cause) (c : Cursor) : Fault :=
  let c := c.skipGap
  (if c.sees (· = '\x7d') then c.advance else c).fault cause

def readFields : Nat → Bool → Option String → Option Value → Cursor →
    Except Fault (Envelope × Cursor)
  | 0, _, _, _, c => .error (c.fault .endInObject)
  | steps + 1, isFirst, kind, payload, c => do
      let (name, c) ← nextName isFirst c
      match name with
      | none =>
          match kind with
          | some kind => return (⟨kind, payload.getD .null⟩, c.advance)
          | none => throw (faultAtEnd (.missingField "type") c)
      | some name =>
          if name = "type" then
            if kind.isSome then throw (faultAtEnd (.repeatedField "type") c)
            let (kind, c) ← readText (← readColon c)
            readFields steps false (some kind) payload c
          else if name = "payload" then
            if payload.isSome then throw (faultAtEnd (.repeatedField "payload") c)
            let (v, c) ← readValue depthLimit (← readColon c)
            readFields steps false kind (some v) c
          else
            let c ← skipValue (← readColon c)
            readFields steps false kind payload c

def readListEnd (c : Cursor) : Except Fault Cursor :=
  let c := c.skipGap
  match c.rest with
  | [] => .error (c.fault .endInList)
  | x :: _ =>
      if x = ']' then .ok c.advance
      else if x = ',' then
        let c := c.advance.skipGap
        .error (c.faultAhead (if c.sees (· = ']') then .trailingComma else .trailingText))
      else .error (c.faultAhead .trailingText)

/-- The items of an envelope, after its opening bracket: the kind, and perhaps the payload. -/
def readItems (c : Cursor) : Except Fault (Envelope × Cursor) := do
  let (more, c) ← nextItem true c
  if !more then throw (c.advance.fault (.tooFewItems 0 "Envelope" 2))
  let (kind, c) ← readText c
  let (more, c) ← nextItem false c
  let (payload, c) ← if more then readValue depthLimit c else pure (.null, c)
  return (⟨kind, payload⟩, ← readListEnd c)

def ofText (text : String) : Except Fault Envelope := do
  let c := (Cursor.ofText text).skipGap
  let (envelope, c) ←
    if c.rest.isEmpty then throw (c.fault .endInValue)
    else if c.sees (· = '\x7b') then
      readFields (c.rest.length + 1) true none none c.advance
    else if c.sees (· = '[') then readItems c.advance
    else throw (mismatchFault (.record "Envelope") c)
  readEnd c
  return envelope

end Envelope

end TerminalGateway
