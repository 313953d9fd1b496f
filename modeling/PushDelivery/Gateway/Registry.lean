import PushDelivery.Credential.Key
import PushDelivery.Time.Instant

namespace PushDelivery

structure Grant where
  key : VerificationKey
  topics : List String
deriving DecidableEq, Repr

inductive Authentication where
  /-- By a certificate of the connection, which stands for one topic and those derived from it. -/
  | certificate (baseTopic : String)
  /-- By a token in each request. The grants stand in the order in which they were made. -/
  | token (grants : List Grant)
deriving DecidableEq, Repr

namespace Authentication

/-- What a topic for calls and one for watch faces ends with. -/
def derivedEndings : List String := [".voip", ".complication"]

def certificateTopics (baseTopic : String) : List String :=
  baseTopic :: derivedEndings.map (baseTopic ++ ·)

/-- The key with an id; of several, the one that was granted last. -/
def key? (grants : List Grant) (keyId : String) : Option VerificationKey :=
  (grants.reverse.find? fun g => g.key.keyId == keyId).map Grant.key

/-- All topics that were ever granted to keys with an id. -/
def topicsOf (grants : List Grant) (keyId : String) : List String :=
  (grants.filter fun g => g.key.keyId == keyId).flatMap Grant.topics

end Authentication

structure Registry where
  authentication : Authentication
  /-- Topics, each with a device that takes notifications for it. -/
  devices : List (String × String)
  /-- Devices that take nothing any more, and since when. -/
  expired : List (String × Instant)
deriving DecidableEq, Repr

/-- What a gateway is told before it opens. -/
inductive Provision where
  | trust (x : Grant)
  | device (topic device : String)
  /-- The device has taken nothing since then. -/
  | expired (device : String) (since : Instant)
deriving DecidableEq, Repr

namespace Registry

def forCertificate (baseTopic : String) : Registry := ⟨.certificate baseTopic, [], []⟩

def forTokens : Registry := ⟨.token [], [], []⟩

/-- Keys are of no use where certificates are asked for. -/
def provide (g : Registry) : Provision → Registry
  | .trust x =>
    match g.authentication with
    | .certificate _ => g
    | .token grants => { g with authentication := .token (grants ++ [x]) }
  | .device topic device => { g with devices := g.devices ++ [(topic, device)] }
  | .expired device since => { g with expired := g.expired ++ [(device, since)] }

def provideAll (g : Registry) (told : List Provision) : Registry :=
  told.foldl provide g

/-- Since when a device takes nothing; what was said last counts. -/
def expiredSince? (g : Registry) (device : String) : Option Instant :=
  (g.expired.reverse.find? fun e => e.1 == device).map Prod.snd

def isRegistered (g : Registry) (topic device : String) : Bool :=
  g.devices.contains (topic, device)

end Registry

end PushDelivery
