import RadioLink.Config.Reader
import RadioLink.Toml.Document

/-!
# Configuration files

A configuration file holds a TOML document. What it says wrongly is told in the words of the reader
of its record; of a text that is no document only that is told.
-/

namespace RadioLink

open Schema

/-- What a path names. -/
inductive FileContent where
  | missing
  | directory
  | bytes (content : Bytes)

namespace LinkConfig

/-- How a configuration file is read: floating-point values are shown without exponents, a list may
have surplus elements, and an identifier may be a list of its octets. -/
def fileDialect : Dialect := ⟨.expanded, true, true⟩

/-- The first line of `s`. -/
def firstLine (s : String) : String := String.ofList (s.toList.takeWhile (· ≠ '\n'))

/-- The first line of the wording; of a fault in an identifier only that there is one. -/
def faultText (fault : Schema.Fault) : String :=
  let text := firstLine (fault.message fileDialect.style)
  if "UUID parsing failed".isPrefixOf text then "UUID parsing failed" else text

/-- The configuration that the document `text` describes. -/
def ofToml (text : String) : Except LinkError LinkConfig :=
  match Toml.parse text with
  | .error .malformed => .error (.config "Failed to parse TOML: syntax")
  | .ok d =>
    match record.ofDatum fileDialect d with
    | .ok c => .ok c
    | .error f => .error (.config ("Failed to parse TOML: " ++ faultText f))

/-- The configuration in a file. -/
def ofFile : FileContent → Except LinkError LinkConfig
  | .missing =>
    .error (.config "Failed to open config file: No such file or directory (os error 2)")
  | .directory => .error (.config "Failed to read config file: Is a directory (os error 21)")
  | .bytes content =>
    match Bytes.text? content with
    | none => .error (.config "Failed to read config file: stream did not contain valid UTF-8")
    | some text => ofToml text

end LinkConfig
end RadioLink
