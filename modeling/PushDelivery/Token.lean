import PushDelivery.Credential.Key
import PushDelivery.Json.Parser
import PushDelivery.Json.Printer
import PushDelivery.Json.Record
import PushDelivery.Text.Base64url
import PushDelivery.Text.Blank
import PushDelivery.Text.Split
import PushDelivery.Text.Utf8
import PushDelivery.Time.Instant

namespace PushDelivery

open Text

inductive TokenError where
  /-- There are not three segments, or the value does not begin as it has to. -/
  | malformed
  | encoding
  | json
  | unsupportedAlgorithm (name : String)
  | signing
deriving DecidableEq, Repr

namespace TokenError

def message? : TokenError → Option String
  | malformed => some "Token must have three dot-separated segments"
  | unsupportedAlgorithm name => some ("Unsupported token algorithm: " ++ name)
  | signing => some "Failed to sign token"
  | encoding | json => none

end TokenError

structure TokenHeader where
  algorithm : String
  type : Option String
  keyId : String
deriving DecidableEq, Repr

structure TokenClaims where
  teamId : String
  /-- Seconds since 1970. -/
  issuedAt : Int
deriving DecidableEq, Repr

namespace TokenHeader

def toJson (h : TokenHeader) : Json :=
  .object ((JsonText.ofString "alg", .ofString h.algorithm) ::
    ((h.type.map fun t => (JsonText.ofString "typ", Json.ofString t)).toList ++
      [(JsonText.ofString "kid", .ofString h.keyId)]))

def ofFields? : Json.Fields → Option TokenHeader
  | .named [some algorithm, type, some keyId] => do
    return ⟨← algorithm.string?, ← Json.optionalField? Json.string? type, ← keyId.string?⟩
  | .listed [algorithm, type, keyId] => do
    return ⟨← algorithm.string?, ← Json.optional? Json.string? type, ← keyId.string?⟩
  | _ => none

def ofJson? (j : Json) : Option TokenHeader :=
  (j.fields? ["alg", "typ", "kid"]).bind ofFields?

end TokenHeader

namespace TokenClaims

def toJson (c : TokenClaims) : Json :=
  .object [(JsonText.ofString "iss", .ofString c.teamId),
    (JsonText.ofString "iat", .ofInt c.issuedAt)]

def readSeconds? (j : Json) : Option Int :=
  j.int? (-(Numeral.signedLimit : Int)) (Numeral.signedLimit - 1)

def ofFields? : Json.Fields → Option TokenClaims
  | .named [some teamId, some issuedAt] | .listed [teamId, issuedAt] => do
    return ⟨← teamId.string?, ← readSeconds? issuedAt⟩
  | _ => none

def ofJson? (j : Json) : Option TokenClaims :=
  (j.fields? ["iss", "iat"]).bind ofFields?

end TokenClaims

/-- Three segments, each in base 64, with dots between them. The signature covers the text of the
other two. -/
structure Token where
  header : TokenHeader
  claims : TokenClaims
  signature : List UInt8
  /-- The text of the token. -/
  encoded : List Char
deriving DecidableEq, Repr

namespace Token

def algorithm : String := "ES256"

def tokenType : String := "JWT"

/-- What stands before a token in an authorization value. -/
def bearer : List Char := "bearer ".toList

def segments (text : List Char) : List (List Char) :=
  split '.' text

def decodeSegment (s : List Char) : Except TokenError (List UInt8) :=
  match Base64url.decode? s with
  | some bytes => .ok bytes
  | none => .error .encoding

def decodeJson {α : Type} (read? : Json → Option α) (s : List Char) : Except TokenError α := do
  let bytes ← decodeSegment s
  match (Json.ofBytes? bytes).bind read? with
  | some a => .ok a
  | none => .error .json

/-- Takes a token apart. That it can be read does not make it valid. -/
def parse (encoded : List Char) : Except TokenError Token :=
  match segments encoded with
  | [first, second, third] => do
    let header ← decodeJson TokenHeader.ofJson? first
    if header.algorithm = algorithm then
      let claims ← decodeJson TokenClaims.ofJson? second
      let signature ← decodeSegment third
      .ok ⟨header, claims, signature, encoded⟩
    else .error (.unsupportedAlgorithm header.algorithm)
  | _ => .error .malformed

/-- The token of an authorization value, behind the word `bearer` in whatever case and a space. -/
def ofAuthorization (value : List Char) : Except TokenError Token :=
  if (value.take bearer.length).map Char.toLower = bearer then
    parse (trim (value.drop bearer.length))
  else .error .malformed

/-- The text before the last dot, none without a dot. -/
def beforeLastDot? (cs : List Char) : Option (List Char) :=
  match cs.reverse.dropWhile (· != '.') with
  | [] => none
  | _ :: rest => some rest.reverse

/-- Whether the token comes from the holder of a key. -/
def verify (t : Token) (k : VerificationKey) : Bool :=
  if t.header.keyId = k.keyId ∧ t.claims.teamId = k.teamId then
    match beforeLastDot? t.encoded with
    | some signed => k.verify (Utf8.encode signed) t.signature
    | none => false
  else false

/-- A time that cannot be represented counts as the earliest one. -/
def issuedAt (t : Token) : Instant :=
  (Instant.ofSeconds? t.claims.issuedAt).getD .earliest

def authorization (t : Token) : List Char :=
  bearer ++ t.encoded

def encodeJson (j : Json) : List Char :=
  Base64url.encode (Utf8.encode j.render)

/-- What a signature covers. -/
def signingInput (h : TokenHeader) (c : TokenClaims) : List Char :=
  encodeJson h.toJson ++ '.' :: encodeJson c.toJson

def assemble (h : TokenHeader) (c : TokenClaims) (signature : List UInt8) : Token :=
  ⟨h, c, signature, signingInput h c ++ '.' :: Base64url.encode signature⟩

def headerOf (k : SigningKey) : TokenHeader :=
  ⟨algorithm, some tokenType, k.keyId⟩

def claimsOf (k : SigningKey) (issuedAt : Instant) : TokenClaims :=
  ⟨k.teamId, issuedAt.seconds⟩

/-- A new token, signed with the help of a secret number. Fractions of a second are dropped. -/
def mint (k : SigningKey) (issuedAt : Instant) (secret : P256.Scalar) : Except TokenError Token :=
  let h := headerOf k
  let c := claimsOf k issuedAt
  match k.sign? (Utf8.encode (signingInput h c)) secret with
  | some signature => .ok (assemble h c signature)
  | none => .error .signing

end Token

end PushDelivery
