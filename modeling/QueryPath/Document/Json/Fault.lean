import QueryPath.Document.Mismatch
import QueryPath.Text.Offset

/-!
# Faults of a JSON text

What is wrong in a text, and at which line and column. Columns count the bytes before a place.
-/

namespace QueryPath.Document.Json

/-- What is wrong. -/
inductive Cause where
  | endInValue
  | endInList
  | endInRecord
  | endInString
  | noColon
  | noListEnd
  | noRecordEnd
  /-- A word that begins like `true`, `false` or `null` goes on differently. -/
  | noWord
  | noValue
  | badEscape
  | badNumber
  | numberTooLarge
  | control
  /-- The escape of a surrogate without its other half. -/
  | loneSurrogate
  | noSecondSurrogate
  | nameNotText
  | trailingComma
  | trailingText
  /-- The document is not of the form that is wanted. -/
  | mismatch (mismatch : Mismatch)
deriving DecidableEq, Repr

def Cause.message : Cause → String
  | endInValue => "EOF while parsing a value"
  | endInList => "EOF while parsing a list"
  | endInRecord => "EOF while parsing an object"
  | endInString => "EOF while parsing a string"
  | noColon => "expected `:`"
  | noListEnd => "expected `,` or `]`"
  | noRecordEnd => "expected `,` or `\x7d`"
  | noWord => "expected ident"
  | noValue => "expected value"
  | badEscape => "invalid escape"
  | badNumber => "invalid number"
  | numberTooLarge => "number out of range"
  | control => "control character (\\u0000-\\u001F) found while parsing a string"
  | loneSurrogate => "lone leading surrogate in hex escape"
  | noSecondSurrogate => "unexpected end of hex escape"
  | nameNotText => "key must be a string"
  | trailingComma => "trailing comma"
  | trailingText => "trailing characters"
  | mismatch m => m.message "null"

/-- What is wrong, and where. Lines are counted from 1. -/
structure Error where
  cause : Cause
  line : Nat
  column : Nat
deriving DecidableEq, Repr

def Error.message (e : Error) : String :=
  s!"{e.cause.message} at line {e.line} column {e.column}"

/-- Where reading stops, as the text that is left. -/
structure Stop where
  cause : Cause
  rest : List Char
  /-- Number of bytes that were looked at behind the place. -/
  ahead : Nat := 0
deriving DecidableEq, Repr

/-- The line and column behind the first `n` bytes of a text that begins at a line and column. -/
def placeBehind (line column : Nat) : (n : Nat) → List Char → Nat × Nat
  | 0, _ | _, [] => (line, column)
  | n + 1, c :: s =>
      if n + 1 < c.utf8Size then (line, column + (n + 1))
      else if c == '\n' then placeBehind (line + 1) 0 (n + 1 - c.utf8Size) s
      else placeBehind line (column + c.utf8Size) (n + 1 - c.utf8Size) s

/-- The error of reading a text that stopped there. -/
def Stop.error (whole : List Char) (stop : Stop) : Error :=
  let (line, column) := placeBehind 1 0 (Text.offsetOf whole stop.rest + stop.ahead) whole
  ⟨stop.cause, line, column⟩

end QueryPath.Document.Json
