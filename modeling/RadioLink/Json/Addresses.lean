import RadioLink.Error
import RadioLink.Json.Printer
import RadioLink.Json.Shape

/-!
# Addresses in JSON

An address is written as a text, and read from any text that stands for one.
-/

namespace RadioLink.Address

/-- Reads an address from a text that `Address.ofString` takes. -/
def jsonReader : Json.Reader Address :=
  Json.Reader.checkedText fun s =>
    match Address.ofString s with
    | .ok a => .ok a
    | .error e => .error e.message

theorem consumes_jsonReader : jsonReader.Consumes :=
  ((Json.Reader.consumes_take _).bind _).bind _

/-- The addresses in the list that `text` is. -/
def listOfJson (text : String) : Except Json.Fault (List Address) :=
  (Json.Reader.list jsonReader consumes_jsonReader).parse text

/-- The written form of a list of addresses. -/
def listToJson (as : List Address) : String :=
  String.ofList (Json.array (as.map fun a => Json.literal (toString a)))

end RadioLink.Address
