import PushDelivery.Client.TokenKeeper
import PushDelivery.Proofs.ReplyReading
import PushDelivery.Proofs.TokenReading

namespace PushDelivery

open Text

def Headers.IsVisible (c : Char) : Prop :=
  0x20 ≤ c.toNat ∧ c.toNat < 0x7F

theorem Headers.isVisible_of_not_blank {c : Char} (hblank : isBlank c = false)
    (hplain : isPlain c = true) : IsVisible c := by
  simp only [isPlain, Bool.or_eq_true, Bool.and_eq_true, decide_eq_true_eq, beq_iff_eq] at hplain
  rcases hplain with rfl | hvisible
  · cases hblank
  · exact hvisible

namespace Token

theorem inRange_claimsOf (k : SigningKey) {issued : Instant} (h : issued.Representable) :
    (claimsOf k issued).InRange := by
  have hlow := h.low
  have hhigh := h.high
  simp only [Instant.minSeconds, Instant.maxSeconds] at hlow hhigh
  simp only [TokenClaims.InRange, claimsOf, Numeral.signedLimit]
  omega

theorem issuedAt_assemble (k : SigningKey) {issued : Instant} (h : issued.Representable)
    (signature : List UInt8) :
    (assemble (headerOf k) (claimsOf k issued) signature).issuedAt = ⟨issued.seconds, 0⟩ := by
  rw [issuedAt, assemble, claimsOf, Instant.ofSeconds?, if_pos ⟨h.low, h.high⟩, Option.getD_some]

/-- A token is read back from its authorization value. -/
theorem ofAuthorization_assemble {h : TokenHeader} {c : TokenClaims}
    (halgorithm : h.algorithm = algorithm) (hc : c.InRange) (signature : List UInt8) :
    ofAuthorization (assemble h c signature).authorization = .ok (assemble h c signature) := by
  have hword : (((assemble h c signature).authorization.take bearer.length).map Char.toLower) =
      bearer := by
    rw [authorization, List.take_left]
    decide
  have hrest : (assemble h c signature).authorization.drop bearer.length =
      (assemble h c signature).encoded := by
    rw [authorization, List.drop_left]
  have htrim : trim (assemble h c signature).encoded = (assemble h c signature).encoded :=
    trim_of_not_blank fun d hd => (fair_of_mem_encoded d hd).1
  rw [ofAuthorization, if_pos hword, hrest, htrim, parse_assemble halgorithm hc]

theorem isVisible_of_mem_authorization {h : TokenHeader} {c : TokenClaims}
    {signature : List UInt8} :
    ∀ d ∈ (assemble h c signature).authorization, Headers.IsVisible d := by
  intro d hd
  rw [authorization] at hd
  rcases List.mem_append.mp hd with hbearer | hencoded
  · have hall : bearer.all (fun b => 0x20 ≤ b.toNat ∧ b.toNat < 0x7F) = true := by decide
    have hvisible : 0x20 ≤ d.toNat ∧ d.toNat < 0x7F :=
      of_decide_eq_true (List.all_eq_true.mp hall d hbearer)
    exact hvisible
  · obtain ⟨hblank, hplain⟩ := fair_of_mem_encoded d hencoded
    exact Headers.isVisible_of_not_blank hblank hplain

/-- What a token of a key and a time is to whoever reads it. -/
structure Stands (t : Token) (k : SigningKey) (issued : Instant) : Prop where
  parsed : parse t.encoded = .ok t
  authorized : ofAuthorization t.authorization = .ok t
  visible : ∀ c ∈ t.authorization, Headers.IsVisible c
  issued : t.issuedAt = ⟨issued.seconds, 0⟩
  /-- The key finds the token genuine if the signature is one of the first two segments. -/
  covered : ∃ first second third, segments t.encoded = [first, second, third] ∧
    t.verify k.verificationKey =
      k.verificationKey.verify (Utf8.encode (first ++ '.' :: second)) t.signature

/-- Whatever bytes the signature has, the token that they complete stands. -/
theorem stands_assemble (k : SigningKey) {issued : Instant} (h : issued.Representable)
    (signature : List UInt8) :
    (assemble (headerOf k) (claimsOf k issued) signature).Stands k issued where
  parsed := parse_assemble rfl (inRange_claimsOf k h) signature
  authorized := ofAuthorization_assemble rfl (inRange_claimsOf k h) signature
  visible := isVisible_of_mem_authorization
  issued := issuedAt_assemble k h signature
  covered := ⟨_, _, _, segments_assemble _ _ signature, verify_assemble_eq k issued signature⟩

theorem mint_of_not_signed {k : SigningKey} {issued : Instant} {secret : P256.Scalar}
    (h : k.sign? (Utf8.encode (signingInput (headerOf k) (claimsOf k issued))) secret = none) :
    mint k issued secret = .error .signing := by
  unfold mint
  dsimp only
  rw [h]

theorem mint_cases (k : SigningKey) (issued : Instant) (secret : P256.Scalar) :
    mint k issued secret = .error .signing ∨
      ∃ signature, mint k issued secret =
        .ok (assemble (headerOf k) (claimsOf k issued) signature) := by
  cases h : k.sign? (Utf8.encode (signingInput (headerOf k) (claimsOf k issued))) secret with
  | none => exact .inl (mint_of_not_signed h)
  | some signature => exact .inr ⟨signature, mint_of_sign h⟩

end Token

theorem GatewayRequest.tokenText?_of_header {r : GatewayRequest} {h : TokenHeader}
    {c : TokenClaims} {signature : List UInt8}
    (hr : r.header? Protocol.authorizationHeader =
      some (String.ofList (Token.assemble h c signature).authorization)) :
    r.tokenText? = some (Token.assemble h c signature).encoded := by
  have hsplit (cs : List Char) : afterBearer? (Token.bearer ++ cs) = some (' ' :: cs) := rfl
  have hne : (Token.assemble h c signature).encoded ≠ [] := by
    simp [Token.assemble, Token.signingInput]
  rw [tokenText?, hr, Option.map_some, String.toList_ofList, Token.authorization,
    Option.bind_some, hsplit, Option.map_some, Token.trim_authorization]
  exact Option.filter_some_pos (by simpa using hne)

namespace TokenKeeper

theorem mint_of_token {k : TokenKeeper} {now : Present} {h : TokenHeader} {c : TokenClaims}
    {signature : List UInt8}
    (hmint : Token.mint k.key now.date now.secret = .ok (Token.assemble h c signature)) :
    k.mint now = .ok (Token.assemble h c signature).authorization := by
  simp only [mint, hmint, bind, Except.bind]
  exact if_pos (List.all_eq_true.mpr fun d hd =>
    Headers.carries_of_isPlain (Token.isPlain_of_mem_authorization d hd))

theorem mint_error {k : TokenKeeper} {now : Present} {e : TokenError} (h : k.mint now = .error e) :
    e = .signing := by
  rcases Token.mint_cases k.key now.date now.secret with herror | ⟨signature, hok⟩
  · simp only [mint, herror, bind, Except.bind, Except.error.injEq] at h
    exact h.symm
  · rw [mint_of_token hok] at h
    cases h

theorem authorization_error {k : TokenKeeper} {now : Present} {e : TokenError}
    (h : k.authorization now = .error e) : e = .signing := by
  unfold authorization at h
  split at h
  · cases h
  · cases hmint : k.mint now with
    | ok value => simp [hmint, bind, Except.bind, pure, Except.pure] at h
    | error cause =>
      simp only [hmint, bind, Except.bind, Except.error.injEq] at h
      exact h ▸ mint_error hmint

end TokenKeeper

namespace Token

/-- A key that signs mints a token, with the signature that it gave, and whatever bytes that is, the
token stands. A key that does not sign mints none. That a keeper could not put a token into a
header never happens. -/
theorem minted_stands (k : SigningKey) (issued : Instant) (secret : P256.Scalar)
    (h : issued.Representable) :
    (∀ signature, k.sign? (Utf8.encode (signingInput (headerOf k) (claimsOf k issued))) secret =
        some signature →
      ∃ t, mint k issued secret = .ok t ∧ t.signature = signature ∧ t.Stands k issued) ∧
    (∀ signature, (assemble (headerOf k) (claimsOf k issued) signature).Stands k issued) ∧
    (k.sign? (Utf8.encode (signingInput (headerOf k) (claimsOf k issued))) secret = none →
      mint k issued secret = .error .signing) ∧
    ∀ keeper : TokenKeeper, ∀ present, keeper.authorization present ≠ .error .malformed := by
  refine ⟨?_, stands_assemble k h, mint_of_not_signed, ?_⟩
  · intro signature hsign
    exact ⟨_, mint_of_sign hsign, rfl, stands_assemble k h signature⟩
  · intro keeper present hmalformed
    cases TokenKeeper.authorization_error hmalformed

end Token

theorem publicPoint?_one : P256.publicPoint? 1 = some P256.generator := by decide +kernel

/-- A key whose team has a quote, a backslash and a control character in its name and whose own id
is empty, in a leap second before 1970. -/
theorem Token.stands_of_odd :
    let key : SigningKey := ⟨⟨1, P256.generator, publicPoint?_one⟩, "\"é\\\x01", ""⟩
    let issued : Instant := ⟨-86401, 1999999999⟩
    issued.Representable ∧ ∃ t, mint key issued 1 = .ok t ∧ t.Stands key issued := by
  intro key issued
  have h : issued.Representable := ⟨by decide, by decide, by decide⟩
  have hsigns : (key.sign? (Utf8.encode (signingInput (headerOf key) (claimsOf key issued)))
      1).isSome = true := by
    decide +kernel
  obtain ⟨signature, hsign⟩ := Option.isSome_iff_exists.mp hsigns
  obtain ⟨t, hmint, -, hstands⟩ := (minted_stands key issued 1 h).1 signature hsign
  exact ⟨h, t, hmint, hstands⟩

end PushDelivery
