import RadioLink.Config.Basic

/-!
# Endpoints

Where a device can be reached: under a service, whose channel is looked up, or on a channel with a
number. A listener tells others of its service in a record.
-/

namespace RadioLink

/-- Where a device can be reached: under a service, or on a channel. -/
inductive Endpoint where
  | service (uuid : Uuid)
  | channel (number : Nat)
  deriving DecidableEq, Repr

instance : ToString Endpoint where
  toString
    | .service uuid => "service " ++ toString uuid
    | .channel n => "channel " ++ toString n

/-- What a listener tells of its service. -/
structure ServiceRecord where
  uuid : Uuid := serviceUuid
  name : String := serviceName
  deriving DecidableEq

/-- The record of the service in `c`. -/
def ServiceConfig.toRecord (c : ServiceConfig) : ServiceRecord := ⟨c.uuid, c.name⟩

end RadioLink
