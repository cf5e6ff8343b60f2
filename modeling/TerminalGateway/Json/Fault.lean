import TerminalGateway.Json.Value
import TerminalGateway.Text.Quoted

/-!
Why a text is not the JSON that was asked for, and where that shows.
-/

namespace TerminalGateway.Json

/-- A place in a text: its line, counted from 1, and the octets read of that line. -/
structure Position where
  line : Nat
  column : Nat
  deriving DecidableEq, Repr

def Position.start : Position := ⟨1, 0⟩

def Position.past (p : Position) (c : Char) : Position :=
  if c = '\n' then ⟨p.line + 1, 0⟩ else ⟨p.line, p.column + c.utf8Size⟩

def Position.pastOctet (p : Position) (c : Char) : Position :=
  if c = '\n' then ⟨p.line + 1, 0⟩ else ⟨p.line, p.column + 1⟩

/-- The place some columns further in the same line. -/
def Position.right (p : Position) (n : Nat) : Position := ⟨p.line, p.column + n⟩

/-- What stands where another kind of value was wanted. -/
inductive Found
  | null
  | bool (b : Bool)
  | integer (i : Int)
  | real (x : Numeral.Binary64)
  | string (s : String)
  | sequence
  | map
  deriving DecidableEq, Repr

def Found.text : Found → String
  | .null => "null"
  | .bool b => "boolean `" ++ (if b then "true" else "false") ++ "`"
  | .integer i => "integer `" ++ Numeral.signed i ++ "`"
  | .real x => "floating point `" ++ x.text ++ "`"
  | .string s => "string " ++ Text.quoted s
  | .sequence => "sequence"
  | .map => "map"

def Value.found : Value → Found
  | .null => .null
  | .bool b => .bool b
  | .number (.integer i) => .integer i
  | .number (.real x) => .real x
  | .string s => .string s
  | .array _ => .sequence
  | .object _ => .map

inductive Wanted
  | string
  | bool
  | integer
  | map
  | record (name : String)
  deriving DecidableEq, Repr

def Wanted.text : Wanted → String
  | .string => "a string"
  | .bool => "a boolean"
  | .integer => "i64"
  | .map => "a map"
  | .record name => "struct " ++ name

inductive Cause
  | endInValue
  | endInString
  | endInList
  | endInObject
  | noValue
  | noLiteral
  | noColon
  | noCommaOrBrace
  | noCommaOrBracket
  | keyNotString
  | trailingComma
  | trailingText
  | invalidNumber
  | numberTooGreat
  | invalidEscape
  | unfinishedPair
  | loneSurrogate
  | controlCharacter
  | tooDeep
  | mismatch (found : Found) (wanted : Wanted)
  | integerTooGreat (n : Nat)
  | missingField (name : String)
  | repeatedField (name : String)
  | tooFewItems (count : Nat) (record : String) (size : Nat)
  | tooManyItems (count : Nat)
  deriving DecidableEq, Repr

def Cause.text : Cause → String
  | .endInValue => "EOF while parsing a value"
  | .endInString => "EOF while parsing a string"
  | .endInList => "EOF while parsing a list"
  | .endInObject => "EOF while parsing an object"
  | .noValue => "expected value"
  | .noLiteral => "expected ident"
  | .noColon => "expected `:`"
  | .noCommaOrBrace => "expected `,` or `\x7d`"
  | .noCommaOrBracket => "expected `,` or `]`"
  | .keyNotString => "key must be a string"
  | .trailingComma => "trailing comma"
  | .trailingText => "trailing characters"
  | .invalidNumber => "invalid number"
  | .numberTooGreat => "number out of range"
  | .invalidEscape => "invalid escape"
  | .unfinishedPair => "unexpected end of hex escape"
  | .loneSurrogate => "lone leading surrogate in hex escape"
  | .controlCharacter => "control character (\\u0000-\\u001F) found while parsing a string"
  | .tooDeep => "recursion limit exceeded"
  | .mismatch found wanted => "invalid type: " ++ found.text ++ ", expected " ++ wanted.text
  | .integerTooGreat n =>
      "invalid value: integer `" ++ Numeral.decimal n ++ "`, expected " ++ Wanted.integer.text
  | .missingField name => "missing field `" ++ name ++ "`"
  | .repeatedField name => "duplicate field `" ++ name ++ "`"
  | .tooFewItems count record size =>
      "invalid length " ++ Numeral.decimal count ++ ", expected " ++ (Wanted.record record).text
        ++ " with " ++ Numeral.decimal size ++ (if size = 1 then " element" else " elements")
  | .tooManyItems count =>
      "invalid length " ++ Numeral.decimal count ++ ", expected fewer elements in array"

/-- A cause, with its place if it was met while reading a text. -/
structure Fault where
  cause : Cause
  position : Option Position
  deriving DecidableEq, Repr

def Fault.text (f : Fault) : String :=
  match f.position with
  | none => f.cause.text
  | some p =>
      f.cause.text ++ " at line " ++ Numeral.decimal p.line ++ " column "
        ++ Numeral.decimal p.column

end TerminalGateway.Json
