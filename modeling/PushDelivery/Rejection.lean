namespace PushDelivery

inductive Rejection where
  | badCollapseId
  | badDeviceToken
  | badExpirationDate
  | badMessageId
  | badPriority
  | badTopic
  | deviceTokenNotForTopic
  | duplicateHeaders
  | idleTimeout
  | missingDeviceToken
  | missingTopic
  | payloadEmpty
  | topicDisallowed
  | badCertificate
  | badCertificateEnvironment
  | expiredProviderToken
  | forbidden
  | invalidProviderToken
  | missingProviderToken
  | badPath
  | methodNotAllowed
  | unregistered
  | payloadTooLarge
  | tooManyProviderTokenUpdates
  | tooManyRequests
  | internalServerError
  | serviceUnavailable
  | shutdown
  /-- A reason without a name of its own here. -/
  | other (text : String)
deriving DecidableEq, Repr

namespace Rejection

def known : List Rejection :=
  [badCollapseId, badDeviceToken, badExpirationDate, badMessageId, badPriority, badTopic,
    deviceTokenNotForTopic, duplicateHeaders, idleTimeout, missingDeviceToken, missingTopic,
    payloadEmpty, topicDisallowed, badCertificate, badCertificateEnvironment,
    expiredProviderToken, forbidden, invalidProviderToken, missingProviderToken, badPath,
    methodNotAllowed, unregistered, payloadTooLarge, tooManyProviderTokenUpdates,
    tooManyRequests, internalServerError, serviceUnavailable, shutdown]

def text : Rejection → String
  | badCollapseId => "BadCollapseId"
  | badDeviceToken => "BadDeviceToken"
  | badExpirationDate => "BadExpirationDate"
  | badMessageId => "BadMessageId"
  | badPriority => "BadPriority"
  | badTopic => "BadTopic"
  | deviceTokenNotForTopic => "DeviceTokenNotForTopic"
  | duplicateHeaders => "DuplicateHeaders"
  | idleTimeout => "IdleTimeout"
  | missingDeviceToken => "MissingDeviceToken"
  | missingTopic => "MissingTopic"
  | payloadEmpty => "PayloadEmpty"
  | topicDisallowed => "TopicDisallowed"
  | badCertificate => "BadCertificate"
  | badCertificateEnvironment => "BadCertificateEnvironment"
  | expiredProviderToken => "ExpiredProviderToken"
  | forbidden => "Forbidden"
  | invalidProviderToken => "InvalidProviderToken"
  | missingProviderToken => "MissingProviderToken"
  | badPath => "BadPath"
  | methodNotAllowed => "MethodNotAllowed"
  | unregistered => "Unregistered"
  | payloadTooLarge => "PayloadTooLarge"
  | tooManyProviderTokenUpdates => "TooManyProviderTokenUpdates"
  | tooManyRequests => "TooManyRequests"
  | internalServerError => "InternalServerError"
  | serviceUnavailable => "ServiceUnavailable"
  | shutdown => "Shutdown"
  | other text => text

def ofText (s : String) : Rejection :=
  (known.find? fun r => r.text == s).getD (other s)

def isKnown : Rejection → Bool
  | other _ => false
  | _ => true

/-- The status a gateway answers with. -/
def status : Rejection → Nat
  | badCertificate | badCertificateEnvironment | expiredProviderToken | forbidden
  | invalidProviderToken | missingProviderToken => 403
  | badPath => 404
  | methodNotAllowed => 405
  | unregistered => 410
  | payloadTooLarge => 413
  | tooManyProviderTokenUpdates | tooManyRequests => 429
  | internalServerError => 500
  | serviceUnavailable | shutdown => 503
  | _ => 400

/-- Whether the connection that carried the reason is to be replaced. -/
def closesConnection : Rejection → Bool
  | expiredProviderToken | serviceUnavailable | shutdown => true
  | _ => false

end Rejection

end PushDelivery
