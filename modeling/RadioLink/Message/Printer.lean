import RadioLink.Message.Basic
import RadioLink.Json.Printer

/-!
# The written form of a message

`toJson` writes a message as one JSON object without blanks: its number, its type, its fields, and,
where there are any, the declared size of its payload and the channel that serves it.
-/

namespace RadioLink

/-- The fields as an object. -/
def Fields.json (fs : Fields) : List Char :=
  Json.object (fs.entries.map fun e => Json.memberText e.1 (Json.literal e.2))

/-- The channel of a payload as an object. -/
def Transfer.json (t : Transfer) : List Char :=
  Json.object [Json.memberText "channel" (Json.integerText t.channel.toNat)]

namespace Message

/-- The members of the written form, in order. -/
def jsonMembers (m : Message) : List (List Char) :=
  [Json.memberText "id" (Json.integerText m.id.toInt),
   Json.memberText "type" (Json.literal m.kind.name),
   Json.memberText "body" m.body.json]
    ++ (m.payloadSize.map fun n =>
        Json.memberText "payloadSize" (Json.integerText n.toNat)).toList
    ++ (m.transfer.map fun t => Json.memberText "payloadTransferInfo" t.json).toList

/-- The written form; the payload is left out. -/
def toJson (m : Message) : String := String.ofList (Json.object m.jsonMembers)

end Message
end RadioLink
