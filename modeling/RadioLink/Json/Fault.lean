import RadioLink.Schema

/-!
# Why a JSON text is refused

Either the text breaks the grammar, or it is well formed and does not describe the value that is
wanted.
-/

namespace RadioLink.Json

/-- What was being read when the text ended. -/
inductive Unfinished where
  | value | string | object | list
  deriving DecidableEq, Repr

/-- Why a JSON text is refused. -/
inductive Fault where
  /-- The text ends inside something. -/
  | ended (inside : Unfinished)
  | expectedValue
  /-- A word starts like `null`, `true` or `false` and is none of them. -/
  | expectedWord
  | expectedColon
  | expectedObjectEnd
  | expectedListEnd
  | trailingComma
  | trailingCharacters
  | keyNotString
  | invalidNumber
  | numberOutOfRange
  | invalidEscape
  /-- A first half of a surrogate pair with no second escape after it. -/
  | unfinishedPair
  /-- Two escapes that do not make a surrogate pair. -/
  | loneSurrogate
  | controlCharacter
  /-- The text is well formed but does not fit. -/
  | schema (fault : Schema.Fault)
  deriving DecidableEq, Repr

/-- The word for what was being read. -/
def Unfinished.text : Unfinished → String
  | .value => "a value"
  | .string => "a string"
  | .object => "an object"
  | .list => "a list"

/-- The wording of the fault. -/
def Fault.message : Fault → String
  | .ended inside => "EOF while parsing " ++ inside.text
  | .expectedValue => "expected value"
  | .expectedWord => "expected ident"
  | .expectedColon => "expected `:`"
  | .expectedObjectEnd => "expected `,` or `\x7d`"
  | .expectedListEnd => "expected `,` or `]`"
  | .trailingComma => "trailing comma"
  | .trailingCharacters => "trailing characters"
  | .keyNotString => "key must be a string"
  | .invalidNumber => "invalid number"
  | .numberOutOfRange => "number out of range"
  | .invalidEscape => "invalid escape"
  | .unfinishedPair => "unexpected end of hex escape"
  | .loneSurrogate => "lone leading surrogate in hex escape"
  | .controlCharacter => "control character (\\u0000-\\u001F) found while parsing a string"
  | .schema fault => fault.message .compact

end RadioLink.Json
