import TerminalGateway.Json.Figure
import TerminalGateway.Json.Quotation

/-!
Reading values. A reader stops at the first fault of the text; what it was asked for decides
what is a fault, so asking for a string where a list stands is one at the list.
-/

namespace TerminalGateway.Json

open Numeral (isDigit)

def readLiteral : List Char → Cursor → Except Fault Cursor
  | [], c => .ok c
  | e :: es, c =>
      match c.rest with
      | [] => .error (c.fault .endInValue)
      | x :: _ => if x = e then readLiteral es c.advance else .error (c.faultAhead .noLiteral)

/-- Whether another item of a list follows, up to the closing bracket. -/
def nextItem (isFirst : Bool) (c : Cursor) : Reading Bool :=
  let c := c.skipGap
  match c.rest with
  | [] => .error (c.fault .endInList)
  | x :: _ =>
      if x = ']' then .ok (false, c)
      else if isFirst then .ok (true, c)
      else if x = ',' then
        let c := c.advance.skipGap
        match c.rest with
        | [] => .error (c.fault .endInValue)
        | y :: _ => if y = ']' then .error (c.faultAhead .trailingComma) else .ok (true, c)
      else .error (c.faultAhead .noCommaOrBracket)

def nextName (isFirst : Bool) (c : Cursor) : Reading (Option String) :=
  let named (c : Cursor) : Reading (Option String) :=
    match c.rest with
    | [] => .error (c.fault .endInValue)
    | x :: _ =>
        if x = '"' then (readString c.advance).map fun (name, c) => (some name, c)
        else if x = '\x7d' then .error (c.faultAhead .trailingComma)
        else .error (c.faultAhead .keyNotString)
  let c := c.skipGap
  match c.rest with
  | [] => .error (c.fault .endInObject)
  | x :: _ =>
      if x = '\x7d' then .ok (none, c)
      else if isFirst then named c
      else if x = ',' then named c.advance.skipGap
      else .error (c.faultAhead .noCommaOrBrace)

def readColon (c : Cursor) : Except Fault Cursor :=
  let c := c.skipGap
  match c.rest with
  | [] => .error (c.fault .endInObject)
  | x :: _ => if x = ':' then .ok c.advance else .error (c.faultAhead .noColon)

def readItems (item : Cursor → Reading Value) :
    Nat → Bool → Cursor → Except Fault (List Value × Cursor)
  | 0, _, c => .error (c.fault .endInList)
  | steps + 1, isFirst, c => do
      let (more, c) ← nextItem isFirst c
      if more then
        let (v, c) ← item c
        let (vs, c) ← readItems item steps false c
        return (v :: vs, c)
      else return ([], c)

/-- The fields of an object, put to those already read, and the place of its closing brace. -/
def readFields (item : Cursor → Reading Value) :
    Nat → Bool → List (String × Value) → Cursor →
      Except Fault (List (String × Value) × Cursor)
  | 0, _, _, c => .error (c.fault .endInObject)
  | steps + 1, isFirst, fields, c => do
      let (name, c) ← nextName isFirst c
      match name with
      | none => return (fields, c)
      | some name =>
          let c ← readColon c
          let (v, c) ← item c
          readFields item steps false (putField fields name v) c

def readScalar (c : Cursor) : Reading Value :=
  match c.rest with
  | [] => .error (c.fault .endInValue)
  | x :: _ =>
      if x = 'n' then (readLiteral "ull".toList c.advance).map (.null, ·)
      else if x = 't' then (readLiteral "rue".toList c.advance).map (.bool true, ·)
      else if x = 'f' then (readLiteral "alse".toList c.advance).map (.bool false, ·)
      else if x = '"' then (readString c.advance).map fun (s, c) => (.string s, c)
      else if x = '-' then (readFigure true c.advance).map fun (n, c) => (.number n, c)
      else if isDigit x then (readFigure false c).map fun (n, c) => (.number n, c)
      else .error (c.faultAhead .noValue)

/-- A value whose lists and objects nest at most `depth` times. -/
def readValue : Nat → Cursor → Except Fault (Value × Cursor)
  | depth, c =>
      let c := c.skipGap
      if c.sees (· = '[') then
        match depth with
        | 0 => .error (c.faultAhead .tooDeep)
        | depth + 1 => do
            let (vs, after) ← readItems (readValue depth) (c.rest.length + 1) true c.advance
            return (.array vs, after.advance)
      else if c.sees (· = '\x7b') then
        match depth with
        | 0 => .error (c.faultAhead .tooDeep)
        | depth + 1 => do
            let (fs, after) ← readFields (readValue depth) (c.rest.length + 1) true [] c.advance
            return (.object fs, after.advance)
      else readScalar c

/-- The fault of finding another kind of value than was wanted: at the beginning of a list or
an object, and after any other value. -/
def mismatchFault (wanted : Wanted) (c : Cursor) : Fault :=
  if c.sees (· = '[') then c.fault (.mismatch .sequence wanted)
  else if c.sees (· = '\x7b') then c.fault (.mismatch .map wanted)
  else
    match readScalar c with
    | .error f => f
    | .ok (v, c) => c.fault (.mismatch v.found wanted)

def readText (c : Cursor) : Reading String :=
  let c := c.skipGap
  if c.sees (· = '"') then readString c.advance else .error (mismatchFault .string c)

/-- An open list or object. -/
inductive Frame
  | list
  | object
  deriving DecidableEq, Repr

def Frame.isEnd (f : Frame) (x : Char) : Bool :=
  match f with
  | .list => x = ']'
  | .object => x = '\x7d'

def Frame.endFault (f : Frame) (c : Cursor) : Fault :=
  match f with
  | .list => c.fault .endInList
  | .object => c.fault .endInObject

def Frame.commaFault (f : Frame) (c : Cursor) : Fault :=
  match f with
  | .list => c.faultAhead .noCommaOrBracket
  | .object => c.faultAhead .noCommaOrBrace

def Frame.skipName (f : Frame) (c : Cursor) : Except Fault Cursor :=
  match f with
  | .list => .ok c
  | .object => do
      let c := c.skipGap
      match c.rest with
      | [] => throw (c.fault .endInObject)
      | x :: _ =>
          if x = '"' then readColon (← skipString c.advance)
          else throw (c.faultAhead .keyNotString)

def skipScalar (c : Cursor) : Except Fault Cursor :=
  match c.rest with
  | [] => .error (c.fault .endInValue)
  | x :: _ =>
      if x = 'n' then readLiteral "ull".toList c.advance
      else if x = 't' then readLiteral "rue".toList c.advance
      else if x = 'f' then readLiteral "alse".toList c.advance
      else if x = '"' then skipString c.advance
      else if x = '-' then skipFigure c.advance
      else if isDigit x then skipFigure c
      else .error (c.faultAhead .noValue)

/-- Where skipping stands: before a value, before the first value of the innermost frame, or
after a value. -/
inductive Stage
  | before
  | opened
  | after
  deriving DecidableEq, Repr

/-- The place after a value of any depth, given at least as many steps as the text has
characters. The frames are those open around the place, the innermost first. -/
def skipWithin : Nat → Stage → List Frame → Cursor → Except Fault Cursor
  | 0, _, _, c => .error (c.fault .endInValue)
  | steps + 1, .before, frames, c =>
      let c := c.skipGap
      if c.sees (· = '[') then skipWithin steps .opened (.list :: frames) c.advance
      else if c.sees (· = '\x7b') then skipWithin steps .opened (.object :: frames) c.advance
      else
        match skipScalar c with
        | .error f => .error f
        | .ok c => skipWithin steps .after frames c
  | _ + 1, .opened, [], c => .ok c
  | steps + 1, .opened, frame :: frames, c =>
      let c := c.skipGap
      if c.rest.isEmpty then .error (frame.endFault c)
      else if c.sees frame.isEnd then skipWithin steps .after frames c.advance
      else
        match frame.skipName c with
        | .error f => .error f
        | .ok c => skipWithin steps .before (frame :: frames) c
  | _ + 1, .after, [], c => .ok c
  | steps + 1, .after, frame :: frames, c =>
      let c := c.skipGap
      if c.rest.isEmpty then .error (frame.endFault c)
      else if c.sees frame.isEnd then skipWithin steps .after frames c.advance
      else if c.sees (· = ',') then
        match frame.skipName c.advance with
        | .error f => .error f
        | .ok c => skipWithin steps .before (frame :: frames) c
      else .error (frame.commaFault c)

def skipValue (c : Cursor) : Except Fault Cursor :=
  skipWithin (2 * c.rest.length + 2) .before [] c

/-- Nothing but a gap may follow the end of a text. -/
def readEnd (c : Cursor) : Except Fault Unit :=
  let c := c.skipGap
  if c.rest.isEmpty then .ok () else .error (c.faultAhead .trailingText)

end TerminalGateway.Json
