import RadioLink.Message.Basic
import RadioLink.Json.Shape

/-!
# Reading a message

The members of a message may come in any order, with blanks between them and with members nobody
knows, or as a list in their own order. The number and the type have to be there, and the type must
not be blank; the rest may be missing. A `Draft` is what has been read of them so far.
-/

namespace RadioLink

open Json Json.Reader Text.Reader

/-- The channel of a payload. -/
def Transfer.reader : Reader Transfer :=
  record "struct PayloadTransferInfo"
    (do
      let channel ← members (fun (seen : Option UInt8) name =>
        if name = "channel" then do return some (← field "channel" seen uint8)
        else do skippedField; return seen) none
      return ⟨← required "channel" channel⟩)
    (do return ⟨← element 0 "struct PayloadTransferInfo with 1 element" uint8⟩)

namespace Message

/-- The members of a message read so far. -/
structure Draft where
  id : Option Int64 := none
  kind : Option MessageKind := none
  body : Option Fields := none
  payloadSize : Option (Option UInt64) := none
  transfer : Option (Option Transfer) := none

/-- The type of a message: any text that `MessageKind.ofText` takes. -/
def kindReader : Reader MessageKind := checkedText MessageKind.ofText

/-- The fields of a message; of two with one name the later counts. -/
def bodyReader : Reader Fields := textObject Fields.insert ∅

/-- The declared size of a payload. -/
def payloadSizeReader : Reader (Option UInt64) := orNull uint64

/-- The channel of a payload, if there is one. -/
def transferReader : Reader (Option Transfer) := orNull Transfer.reader

/-- Takes in the member `name`; any other is passed over. -/
def Draft.member (d : Draft) (name : String) : Reader Draft :=
  if name = "id" then do return { d with id := some (← field "id" d.id int64) }
  else if name = "type" then do return { d with kind := some (← field "type" d.kind kindReader) }
  else if name = "body" then do return { d with body := some (← field "body" d.body bodyReader) }
  else if name = "payloadSize" then do
    return { d with payloadSize := some (← field "payloadSize" d.payloadSize payloadSizeReader) }
  else if name = "payloadTransferInfo" then do
    return { d with transfer := some (← field "payloadTransferInfo" d.transfer transferReader) }
  else do
    skippedField
    return d

/-- The message whose members have been read, if those are there that have to be. -/
def Draft.finish (d : Draft) : Reader Message := do
  let id ← required "id" d.id
  let kind ← required "type" d.kind
  return { id, kind, body := d.body.getD ∅, payloadSize := d.payloadSize.getD none,
           transfer := d.transfer.getD none, payload := none }

/-- What a list is expected to be that stands for a message. -/
def listShape : String := "struct Message with 5 elements"

/-- A message. -/
def reader : Reader Message :=
  record "struct Message"
    (do (← members Draft.member {}).finish)
    (do
      let id ← element 0 listShape int64
      let kind ← element 1 listShape kindReader
      let body ← elementOr ∅ bodyReader
      let payloadSize ← elementOr none payloadSizeReader
      let transfer ← elementOr none transferReader
      return { id, kind, body, payloadSize, transfer, payload := none })

/-- The message whose written form is `text`. -/
def ofJson (text : String) : Except Json.Fault Message := reader.parse text

end Message
end RadioLink
