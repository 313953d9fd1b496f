import PushDelivery.Gateway.Gatekeeper
import PushDelivery.Http.Reply
import PushDelivery.Http.Request

namespace PushDelivery

inductive GatewayPolicy where
  | acceptAll
  /-- Nothing can be judged. -/
  | failing (message : String)
  | validating (g : Registry)
deriving DecidableEq, Repr

namespace GatewayPolicy

def receive (p : GatewayPolicy) (now : Instant) (h : Gatekeeper) (r : GatewayRequest) :
    Option (Ruling × Gatekeeper) :=
  match p with
  | acceptAll => some (.accepted, h)
  | failing message => some (.failed message, h)
  | validating g => h.receive g now r

end GatewayPolicy

structure Gateway where
  policy : GatewayPolicy
  /-- The gatekeepers of the connections that have carried requests. -/
  gatekeepers : List (Nat × Gatekeeper) := []
deriving DecidableEq, Repr

namespace Gateway

def gatekeeper (g : Gateway) (conn : Nat) : Gatekeeper :=
  ((g.gatekeepers.find? fun c => c.1 == conn).map Prod.snd).getD {}

def setGatekeeper (g : Gateway) (conn : Nat) (h : Gatekeeper) : Gateway :=
  { g with gatekeepers := (conn, h) :: g.gatekeepers.filter fun c => c.1 != conn }

def receive (g : Gateway) (conn : Nat) (now : Instant) (r : GatewayRequest) :
    Option (Ruling × Gateway) :=
  (g.policy.receive now (g.gatekeeper conn) r).map fun (ruling, k) =>
    (ruling, g.setGatekeeper conn k)

def receiveAll (now : Instant) : Gateway → List (Nat × GatewayRequest) → Option (List Ruling)
  | _, [] => some []
  | g, (conn, r) :: rest => do
    let (ruling, g) ← g.receive conn now r
    return ruling :: (← receiveAll now g rest)

/-- The id that a reply carries: the request's own, a new one if it has none that can be read, none
at all if it is malformed. -/
def replyId (r : GatewayRequest) (fresh : Uuid) : Option Uuid :=
  match r.header? Protocol.apnsIdHeader with
  | some value => Uuid.ofText? value
  | none => some fresh

def idHeader (id : Option Uuid) : List (String × String) :=
  match id with
  | none => []
  | some id => [(Protocol.apnsIdHeader, id.toText)]

/-- The headers of every reply but one of success. -/
def contentType : List (String × String) :=
  [(Protocol.contentTypeHeader, "application/json")]

/-- The reply to a request. The two ids are new ones: for the request, if it has none, and for a
notification that was accepted. -/
def reply (r : GatewayRequest) (fresh unique : Uuid) (ruling : Ruling) : Reply :=
  let id := idHeader (replyId r fresh)
  match ruling with
  | .accepted => ⟨200, ⟨id ++ [(Protocol.uniqueIdHeader, unique.toText)]⟩, []⟩
  | .rejected reason since =>
    ⟨reason.status, ⟨id ++ contentType⟩, RefusalBody.encode reason since⟩
  | .failed _ =>
    let reason := Rejection.internalServerError
    ⟨reason.status, ⟨id ++ contentType⟩, RefusalBody.encode reason none⟩

end Gateway

/-- What a watcher of a gateway is told about a request. -/
inductive GatewayEvent where
  | accepted (r : GatewayRequest)
  | rejected (r : GatewayRequest) (reason : Rejection) (since : Option Instant)
deriving DecidableEq, Repr

namespace GatewayEvent

/-- A gateway that fails tells its watcher of an error of its own. -/
def ofRuling (r : GatewayRequest) : Ruling → GatewayEvent
  | .accepted => accepted r
  | .rejected reason since => rejected r reason since
  | .failed _ => rejected r .internalServerError none

end GatewayEvent

namespace GatewayRequest

def ofRequest (r : Request) (payload : List UInt8) : GatewayRequest :=
  ⟨r.method, String.ofList r.uri.path, r.headers, payload⟩

end GatewayRequest

end PushDelivery
