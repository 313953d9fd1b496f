import PushDelivery.Proofs.GatekeeperStep
import PushDelivery.Proofs.MintedTokens

namespace PushDelivery

open Text

/-- The claims of a key's team and a date, which may be any number. -/
def SigningKey.claimsDated (k : SigningKey) (issuedAt : Int) : TokenClaims :=
  ⟨k.teamId, issuedAt⟩

/-- Whether a key signs a token with a date, by the secret number one, and its public half accepts
the signature. -/
def SigningKey.signsDated (k : SigningKey) (issuedAt : Int) : Bool :=
  let input := Utf8.encode (Token.signingInput (Token.headerOf k) (k.claimsDated issuedAt))
  (k.sign? input 1).any (k.verificationKey.verify input)

/-- A token of a key that names a date. -/
def SigningKey.tokenDated (k : SigningKey) (issuedAt : Int) : Token :=
  Token.assemble (Token.headerOf k) (k.claimsDated issuedAt)
    ((k.sign? (Utf8.encode (Token.signingInput (Token.headerOf k) (k.claimsDated issuedAt)))
      1).getD [])

namespace SigningKey

variable {k : SigningKey} {issuedAt : Int}

theorem sign?_of_signsDated (h : k.signsDated issuedAt = true) :
    (k.sign? (Utf8.encode (Token.signingInput (Token.headerOf k) (k.claimsDated issuedAt)))
      1).isSome = true := by
  unfold signsDated at h
  exact Option.isSome_of_any h

theorem verify_tokenDated (h : k.signsDated issuedAt = true) :
    (k.tokenDated issuedAt).verify k.verificationKey = true := by
  unfold signsDated at h
  obtain ⟨signature, hsign, hverify⟩ := (Option.any_eq_true _ _).mp h
  rw [tokenDated, Token.verify_of_team rfl, hsign, Option.getD_some]
  exact hverify

theorem parse_tokenDated (h : (k.claimsDated issuedAt).InRange) :
    Token.parse (k.tokenDated issuedAt).encoded = .ok (k.tokenDated issuedAt) :=
  Token.parse_assemble rfl h _

theorem signsDated_zero :
    signsDated ⟨⟨1, P256.generator, publicPoint?_one⟩, "T", "K"⟩ 0 = true := by
  decide +kernel

end SigningKey

namespace GatewayRequest

/-- A request for a device and a topic that shows a token. -/
def showing (device topic : String) (t : Token) : GatewayRequest :=
  ⟨"POST", Protocol.devicePath device, ⟨[(Protocol.topicHeader, topic),
    (Protocol.authorizationHeader, String.ofList t.authorization)]⟩, [0x7B]⟩

variable {device topic : String} {t : Token} {k : SigningKey} {issuedAt : Int}

theorem header?_showing_topic (htopic : Headers.isReadable topic = true) :
    (showing device topic t).header? Protocol.topicHeader = some topic := by
  rw [header?, Headers.get?, showing, Headers.first?_cons_same (by decide),
    Option.filter_some_pos htopic]

theorem header?_showing_other {name : String} (hname : name ≠ Protocol.topicHeader)
    (hother : name ≠ Protocol.authorizationHeader) :
    (showing device topic t).header? name = none := by
  rw [header?, Headers.get?, showing, Headers.first?_cons_other (by decide) hname.symm,
    Headers.first?_cons_other (by decide) hother.symm, Headers.first?_nil]
  rfl

theorem checkHeaders_showing (htopic : Headers.isReadable topic = true) :
    (showing device topic t).checkHeaders = .ok topic := by
  have hmethod : (showing device topic t).method = "POST" := rfl
  simp [checkHeaders, hasFairId, hasFairCollapseId, hasFairPriority, hmethod, Checked.require,
    Checked.found, header?_showing_topic htopic,
    header?_showing_other (show Protocol.apnsIdHeader ≠ _ by decide) (by decide),
    header?_showing_other (show Protocol.collapseIdHeader ≠ _ by decide) (by decide),
    header?_showing_other (show Protocol.priorityHeader ≠ _ by decide) (by decide),
    bind, Except.bind, pure, Except.pure]

theorem device?_showing : (showing device topic t).device? = some device :=
  device?_eq_some_iff.mpr rfl

theorem checkPayload_showing : (showing device topic t).checkPayload = .ok () := rfl

theorem tokenText?_showing :
    (showing device topic (k.tokenDated issuedAt)).tokenText? =
      some (k.tokenDated issuedAt).encoded := by
  have hread : Headers.isReadable (String.ofList (k.tokenDated issuedAt).authorization) = true :=
    Headers.isReadable_ofList Token.isPlain_of_mem_authorization
  refine tokenText?_of_header ?_
  rw [header?, Headers.get?, showing, Headers.first?_cons_other (by decide) (by decide),
    Headers.first?_cons_same (by decide)]
  exact Option.filter_some_pos hread

end GatewayRequest

theorem Registry.vouches_showing {g : Registry} {grants : List Grant} {device topic : String}
    {k : SigningKey} {issuedAt : Int} (hauth : g.authentication = .token grants)
    (hknown : Authentication.key? grants k.keyId = some k.verificationKey)
    (htopic : Headers.isReadable topic = true) (hdevice : GatewayRequest.isDeviceName device = true)
    (hactive : g.expiredSince? device = none) (hregistered : g.isRegistered topic device = true)
    (hrange : (k.claimsDated issuedAt).InRange) (hsigns : k.signsDated issuedAt = true) :
    g.Vouches (GatewayRequest.showing device topic (k.tokenDated issuedAt))
      (k.tokenDated issuedAt) := by
  have hnamed : (GatewayRequest.showing device topic (k.tokenDated issuedAt)).device? =
      some device := GatewayRequest.device?_showing
  have haddressed := checkDevice_of_registered hnamed hdevice hactive hregistered
  exact ⟨⟨topic, GatewayRequest.checkHeaders_showing htopic, haddressed⟩,
    grants, _, k.verificationKey, hauth, GatewayRequest.tokenText?_showing,
    SigningKey.parse_tokenDated hrange, hknown, SigningKey.verify_tokenDated hsigns⟩

end PushDelivery
