import RadioLink.Config.File
import RadioLink.Deadline
import RadioLink.Json.Addresses
import RadioLink.Proofs.Frame.Damaged
import RadioLink.Proofs.Frame.RoundTrip
import RadioLink.Proofs.World.Accounting
import RadioLink.Proofs.World.Announcements
import RadioLink.Proofs.World.Delivery
import RadioLink.World.Lifecycle
import RadioLink.Proofs.Air.Acts
import RadioLink.Proofs.Air.Matching
import RadioLink.Proofs.World.Advancing
import RadioLink.Proofs.World.Listening
import RadioLink.Proofs.World.OneAtATime
import RadioLink.Proofs.Air.Places
import RadioLink.Proofs.World.Attended
import RadioLink.Proofs.World.Receptions
import RadioLink.Proofs.Air.Ends
import RadioLink.Proofs.World.Ownership
import RadioLink.Proofs.World.Slot
import RadioLink.Proofs.World.OneFrame
import RadioLink.Proofs.Air.Power
import RadioLink.Proofs.Frame.Chunking
import RadioLink.Proofs.Frame.Codec
import RadioLink.Proofs.World.Lifecycle
import RadioLink.Proofs.World.Payloads
import RadioLink.Proofs.World.Routes
import RadioLink.Proofs.World.Tallies
import RadioLink.World.Asking
import RadioLink.Proofs.Frame.Writing
import RadioLink.Proofs.World.Retrying
import RadioLink.Proofs.World.Announced
import RadioLink.Proofs.World.Wanted
import RadioLink.Proofs.World.Rounds
import RadioLink.Proofs.World.Looping
import RadioLink.Proofs.Address.Text
import RadioLink.Proofs.Crypto.Sealing
import RadioLink.Proofs.Air.Registrations
import RadioLink.Proofs.Config.Logging
import RadioLink.Proofs.World.Waits
