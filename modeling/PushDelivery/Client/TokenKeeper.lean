import PushDelivery.Client.Present
import PushDelivery.Http.Headers
import PushDelivery.Token

namespace PushDelivery

structure KeptToken where
  /-- The value of the authorization header. -/
  value : List Char
  expiresAt : Moment
deriving DecidableEq, Repr

/-- Mints a token when one is first needed, and keeps it until its lifetime is over or the gateway
has called it expired. -/
structure TokenKeeper where
  key : SigningKey
  lifetime : Duration
  current : Option KeptToken := none

namespace TokenKeeper

def mint (k : TokenKeeper) (now : Present) : Except TokenError (List Char) := do
  let t ← Token.mint k.key now.date now.secret
  if t.authorization.all Headers.carries then .ok t.authorization else .error .malformed

/-- The token that is kept, unless its lifetime is over. -/
def fresh? (k : TokenKeeper) (time : Moment) : Option KeptToken :=
  k.current.filter fun t => time < t.expiresAt

/-- The value for a request. When none can be minted, none is kept that was not there before. -/
def authorization (k : TokenKeeper) (now : Present) :
    Except TokenError (List Char × TokenKeeper) :=
  match k.fresh? now.time with
  | some t => .ok (t.value, k)
  | none => do
    let value ← k.mint now
    return (value, { k with current := some ⟨value, Moment.after now.time k.lifetime⟩ })

def expiresAt? (k : TokenKeeper) : Option Moment :=
  k.current.map KeptToken.expiresAt

def invalidate (k : TokenKeeper) : TokenKeeper :=
  { k with current := none }

end TokenKeeper

end PushDelivery
