import PushDelivery.Http.Headers
import PushDelivery.Http.Uri
import PushDelivery.Notification
import PushDelivery.Protocol

namespace PushDelivery

structure Request where
  method : String
  uri : Uri
  headers : Headers
deriving DecidableEq, Repr

namespace Request

/-- A header without a value is not sent. -/
def orOmit (name : String) (value : Option String) : List (String × String) :=
  match value with
  | none => []
  | some v => [(name, v)]

def headerList (n : Notification) (authorization : Option String) : List (String × String) :=
  (Protocol.topicHeader, n.topic) ::
    (Protocol.priorityHeader, Text.Decimal.ofNat n.priority.code) ::
    (Protocol.expirationHeader, Protocol.expirationValue n.expiration) ::
    (orOmit Protocol.pushTypeHeader (n.pushType.map PushType.name) ++
      orOmit Protocol.collapseIdHeader n.collapseId ++
      orOmit Protocol.apnsIdHeader (n.apnsId.map Uuid.toText) ++
      orOmit Protocol.authorizationHeader authorization)

/-- Refuses what cannot be put into a request; the address is judged before the headers. -/
def build (scheme authority : String) (n : Notification) (authorization : Option String) :
    Except RequestError Request := do
  let uri ← Uri.build scheme.toList authority.toList (Protocol.devicePath n.token).toList
  let headers := headerList n authorization
  if headers.all fun h => h.2.toList.all Headers.carries then .ok ⟨"POST", uri, ⟨headers⟩⟩
  else .error .invalidHeaderValue

theorem build_eq_ok {scheme authority : String} {n : Notification} {authorization : Option String}
    {r : Request} (h : build scheme authority n authorization = .ok r) :
    Uri.build scheme.toList authority.toList (Protocol.devicePath n.token).toList = .ok r.uri ∧
      r.headers = ⟨headerList n authorization⟩ := by
  unfold build at h
  cases hu : Uri.build scheme.toList authority.toList (Protocol.devicePath n.token).toList with
  | error e => simp [hu, bind, Except.bind] at h
  | ok uri =>
    simp only [hu, bind, Except.bind] at h
    split at h
    · obtain rfl := Except.ok.inj h
      exact ⟨rfl, rfl⟩
    · cases h

end Request

end PushDelivery
