import PushDelivery.Proofs.RecordReading
import PushDelivery.Token

namespace PushDelivery

namespace Text

namespace Base64url

theorem value?_digit {n : Nat} (h : n < 64) : value? (digit n) = some n := by
  have hall : ∀ n < 64, value? (digit n) = some n := by decide
  exact hall n h

/-- The alphabet has neither dots nor blanks, and nothing that a header could not carry. -/
theorem digit_fair {n : Nat} (h : n < 64) :
    digit n ≠ '.' ∧ isBlank (digit n) = false ∧ Headers.isPlain (digit n) = true := by
  have hall : ∀ n < 64, digit n ≠ '.' ∧ isBlank (digit n) = false ∧
      Headers.isPlain (digit n) = true := by decide
  exact hall n h

theorem exists_digit_of_mem_encode {bytes : List UInt8} :
    ∀ c ∈ encode bytes, ∃ n < 64, c = digit n := by
  induction bytes using encode.induct with
  | case1 => exact fun c hc => absurd hc List.not_mem_nil
  | case2 a =>
    have := a.toNat_lt
    intro c hc
    simp only [encode, List.mem_cons, List.not_mem_nil, or_false] at hc
    rcases hc with rfl | rfl <;> exact ⟨_, by omega, rfl⟩
  | case3 a b =>
    have := a.toNat_lt
    have := b.toNat_lt
    intro c hc
    simp only [encode, List.mem_cons, List.not_mem_nil, or_false] at hc
    rcases hc with rfl | rfl | rfl <;> exact ⟨_, by omega, rfl⟩
  | case4 a b c rest ih =>
    have := a.toNat_lt
    have := b.toNat_lt
    have := c.toNat_lt
    intro d hd
    simp only [encode, List.mem_cons] at hd
    rcases hd with rfl | rfl | rfl | rfl | hd
    iterate 4 exact ⟨_, by omega, rfl⟩
    exact ih d hd

theorem decode?_encode (bytes : List UInt8) : decode? (encode bytes) = some bytes := by
  have hbyte {n : Nat} {a : UInt8} (h : n = a.toNat) : UInt8.ofNat n = a := by
    rw [h, UInt8.ofNat_toNat]
  induction bytes using encode.induct with
  | case1 => rfl
  | case2 a =>
    have := a.toNat_lt
    simp only [encode, decode?, value?_digit (show a.toNat / 4 < 64 by omega),
      value?_digit (show a.toNat % 4 * 16 < 64 by omega), Option.bind_eq_bind, Option.bind_some]
    rw [if_pos (by omega), @hbyte _ a (by omega)]
  | case3 a b =>
    have := a.toNat_lt
    have := b.toNat_lt
    simp only [encode, decode?, value?_digit (show a.toNat / 4 < 64 by omega),
      value?_digit (show a.toNat % 4 * 16 + b.toNat / 16 < 64 by omega),
      value?_digit (show b.toNat % 16 * 4 < 64 by omega), Option.bind_eq_bind, Option.bind_some]
    rw [if_pos (by omega), @hbyte _ a (by omega), @hbyte _ b (by omega)]
  | case4 a b c rest ih =>
    have := a.toNat_lt
    have := b.toNat_lt
    have := c.toNat_lt
    simp only [encode, decode?, value?_digit (show a.toNat / 4 < 64 by omega),
      value?_digit (show a.toNat % 4 * 16 + b.toNat / 16 < 64 by omega),
      value?_digit (show b.toNat % 16 * 4 + c.toNat / 64 < 64 by omega),
      value?_digit (show c.toNat % 64 < 64 by omega), Option.bind_eq_bind, Option.bind_some, ih]
    rw [@hbyte _ a (by omega), @hbyte _ b (by omega), @hbyte _ c (by omega)]
    rfl

theorem dot_notMem_encode (bytes : List UInt8) : '.' ∉ encode bytes := by
  intro h
  obtain ⟨n, hn, hdot⟩ := exists_digit_of_mem_encode _ h
  exact (digit_fair hn).1 hdot.symm

end Base64url

theorem split_of_notMem {separator : Char} {cs : List Char} (h : separator ∉ cs) :
    split separator cs = [cs] := by
  induction cs with
  | nil => rfl
  | cons c cs ih =>
    rw [List.mem_cons, not_or] at h
    obtain ⟨hc, hcs⟩ := h
    rw [split, if_neg (Ne.symm hc), ih hcs]

theorem split_append {separator : Char} {cs : List Char} (h : separator ∉ cs) (rest : List Char) :
    split separator (cs ++ separator :: rest) = cs :: split separator rest := by
  induction cs with
  | nil => rw [List.nil_append, split, if_pos rfl]
  | cons c cs ih =>
    rw [List.mem_cons, not_or] at h
    obtain ⟨hc, hcs⟩ := h
    rw [List.cons_append, split, if_neg (Ne.symm hc), ih hcs]

theorem trimEnd_of_not_blank {cs : List Char} (h : ∀ c ∈ cs, isBlank c = false) :
    trimEnd cs = cs := by
  have hnone : cs.reverse.dropWhile isBlank = cs.reverse := by
    cases hr : cs.reverse with
    | nil => rfl
    | cons c rest =>
      have hc : c ∈ cs := List.mem_reverse.mp (hr ▸ List.mem_cons_self)
      exact List.dropWhile_cons_of_neg (by simp [h c hc])
  rw [trimEnd, hnone, List.reverse_reverse]

theorem trim_of_not_blank {cs : List Char} (h : ∀ c ∈ cs, isBlank c = false) : trim cs = cs := by
  have hstart : trimStart cs = cs := by
    cases cs with
    | nil => rfl
    | cons c rest => exact List.dropWhile_cons_of_neg (by simp [h c List.mem_cons_self])
  rw [trim, hstart, trimEnd_of_not_blank h]

theorem trim_cons_blank {c : Char} (hc : isBlank c = true) (cs : List Char) :
    trim (c :: cs) = trim cs := by
  rw [trim, trimStart, List.dropWhile_cons_of_pos hc]
  rfl

end Text

open Text

theorem TokenHeader.isWritten_toJson (h : TokenHeader) : h.toJson.IsWritten := by
  obtain ⟨algorithm, type, keyId⟩ := h
  rw [toJson, Json.IsWritten]
  cases type with
  | none =>
    exact ⟨JsonText.isWhole_ofString _, Json.isWritten_ofString _, JsonText.isWhole_ofString _,
      Json.isWritten_ofString _, trivial⟩
  | some type =>
    exact ⟨JsonText.isWhole_ofString _, Json.isWritten_ofString _, JsonText.isWhole_ofString _,
      Json.isWritten_ofString _, JsonText.isWhole_ofString _, Json.isWritten_ofString _, trivial⟩

theorem TokenHeader.ofJson?_toJson (h : TokenHeader) : ofJson? h.toJson = some h := by
  obtain ⟨algorithm, type, keyId⟩ := h
  cases type with
  | none =>
    simp [ofJson?, toJson, Json.fields?, Json.only?, JsonText.ofString_beq,
      JsonText.string?_ofString, ofFields?, Json.string?_ofString, Json.optionalField?]
  | some type =>
    simp [ofJson?, toJson, Json.fields?, Json.only?, JsonText.ofString_beq,
      JsonText.string?_ofString, ofFields?, Json.string?_ofString, Json.optionalField?_ofString]

theorem TokenClaims.isWritten_toJson (c : TokenClaims) : c.toJson.IsWritten := by
  rw [toJson, Json.IsWritten]
  exact ⟨JsonText.isWhole_ofString _, Json.isWritten_ofString _, JsonText.isWhole_ofString _,
    Json.isWritten_ofInt _, trivial⟩

/-- Whether the seconds of claims are a signed number of 64 bits. -/
def TokenClaims.InRange (c : TokenClaims) : Prop :=
  -(Numeral.signedLimit : Int) ≤ c.issuedAt ∧ c.issuedAt < Numeral.signedLimit

theorem TokenClaims.readSeconds?_ofInt {n : Int} (hlow : -(Numeral.signedLimit : Int) ≤ n)
    (hhigh : n < Numeral.signedLimit) : readSeconds? (Json.ofInt n) = some n := by
  rw [readSeconds?, Json.ofInt, Json.int?, Numeral.integer?_ofInt_signed hlow hhigh]
  exact Option.filter_some_pos (by simp; omega)

theorem TokenClaims.ofJson?_toJson {c : TokenClaims} (h : c.InRange) :
    ofJson? c.toJson = some c := by
  obtain ⟨teamId, issuedAt⟩ := c
  simp [ofJson?, toJson, Json.fields?, Json.only?, JsonText.ofString_beq,
    JsonText.string?_ofString, ofFields?, Json.string?_ofString, readSeconds?_ofInt h.1 h.2]

namespace Token

theorem decodeSegment_encode (bytes : List UInt8) :
    decodeSegment (Base64url.encode bytes) = .ok bytes := by
  rw [decodeSegment, Base64url.decode?_encode]

theorem decodeJson_encodeJson {α : Type} {read? : Json → Option α} {j : Json} {a : α}
    (hj : j.IsWritten) (ha : read? j = some a) : decodeJson read? (encodeJson j) = .ok a := by
  rw [decodeJson, encodeJson, decodeSegment_encode]
  simp [bind, Except.bind, Json.ofBytes?_encode hj, ha]

theorem dot_notMem_encodeJson (j : Json) : '.' ∉ encodeJson j :=
  Base64url.dot_notMem_encode _

theorem segments_assemble (h : TokenHeader) (c : TokenClaims) (signature : List UInt8) :
    segments (assemble h c signature).encoded =
      [encodeJson h.toJson, encodeJson c.toJson, Base64url.encode signature] := by
  rw [assemble, segments, signingInput, List.append_assoc, List.cons_append,
    split_append (dot_notMem_encodeJson _), split_append (dot_notMem_encodeJson _),
    split_of_notMem (Base64url.dot_notMem_encode _)]

/-- A token is read back from its text. -/
theorem parse_assemble {h : TokenHeader} {c : TokenClaims} (halgorithm : h.algorithm = algorithm)
    (hc : c.InRange) (signature : List UInt8) :
    parse (assemble h c signature).encoded = .ok (assemble h c signature) := by
  rw [parse, segments_assemble]
  simp only [decodeJson_encodeJson h.isWritten_toJson h.ofJson?_toJson,
    decodeJson_encodeJson c.isWritten_toJson (TokenClaims.ofJson?_toJson hc),
    decodeSegment_encode, bind, Except.bind, halgorithm, if_true]
  rfl

theorem beforeLastDot?_append {ys : List Char} (h : '.' ∉ ys) (xs : List Char) :
    beforeLastDot? (xs ++ '.' :: ys) = some xs := by
  have hdrop : (ys.reverse ++ '.' :: xs.reverse).dropWhile (· != '.') = '.' :: xs.reverse := by
    rw [List.dropWhile_append_of_pos, List.dropWhile_cons_of_neg (by simp)]
    intro c hc
    simp only [bne_iff_ne]
    rintro rfl
    exact h (List.mem_reverse.mp hc)
  rw [beforeLastDot?, List.reverse_append, List.reverse_cons, List.append_assoc,
    List.singleton_append, hdrop]
  simp

theorem team_of_verify {t : Token} {k : VerificationKey} (h : t.verify k = true) :
    t.claims.teamId = k.teamId := by
  unfold verify at h
  split at h
  · rename_i hids
    exact hids.2
  · cases h

/-- Whether a token that names a key and its team is genuine is decided by its signature alone,
which has to be one of the text before it. -/
theorem verify_of_team {k : SigningKey} {c : TokenClaims} (hteam : c.teamId = k.teamId)
    (signature : List UInt8) :
    (assemble (headerOf k) c signature).verify k.verificationKey =
      k.verificationKey.verify (Utf8.encode (signingInput (headerOf k) c)) signature := by
  rw [verify, if_pos ⟨rfl, hteam⟩, assemble,
    beforeLastDot?_append (Base64url.dot_notMem_encode signature)]

theorem verify_assemble_eq (k : SigningKey) (t : Instant) (signature : List UInt8) :
    (assemble (headerOf k) (claimsOf k t) signature).verify k.verificationKey =
      k.verificationKey.verify (Utf8.encode (signingInput (headerOf k) (claimsOf k t)))
        signature :=
  verify_of_team rfl signature

theorem mint_of_sign {k : SigningKey} {t : Instant} {secret : P256.Scalar}
    {signature : List UInt8}
    (hsign : k.sign? (Utf8.encode (signingInput (headerOf k) (claimsOf k t))) secret =
      some signature) :
    mint k t secret = .ok (assemble (headerOf k) (claimsOf k t) signature) := by
  unfold mint
  dsimp only
  rw [hsign]

theorem fair_of_mem_encoded {h : TokenHeader} {c : TokenClaims} {signature : List UInt8} :
    ∀ d ∈ (assemble h c signature).encoded, isBlank d = false ∧ Headers.isPlain d = true := by
  have hdigit (bytes : List UInt8) (d : Char) (hd : d ∈ Base64url.encode bytes) :
      isBlank d = false ∧ Headers.isPlain d = true := by
    obtain ⟨n, hn, rfl⟩ := Base64url.exists_digit_of_mem_encode d hd
    exact (Base64url.digit_fair hn).2
  intro d hd
  simp only [assemble, signingInput, encodeJson, List.mem_append, List.mem_cons] at hd
  rcases hd with (hd | rfl | hd) | rfl | hd
  · exact hdigit _ d hd
  · decide
  · exact hdigit _ d hd
  · decide
  · exact hdigit _ d hd

theorem isPlain_of_mem_authorization {h : TokenHeader} {c : TokenClaims}
    {signature : List UInt8} :
    ∀ d ∈ (assemble h c signature).authorization, Headers.isPlain d = true := by
  have hbearer : bearer.all Headers.isPlain = true := by decide
  rw [authorization]
  exact List.forall_mem_append.mpr
    ⟨List.all_eq_true.mp hbearer, fun d hd => (fair_of_mem_encoded d hd).2⟩

theorem trim_authorization (h : TokenHeader) (c : TokenClaims) (signature : List UInt8) :
    trim (' ' :: (assemble h c signature).encoded) = (assemble h c signature).encoded := by
  rw [trim_cons_blank (by decide)]
  exact trim_of_not_blank fun d hd => (fair_of_mem_encoded d hd).1

end Token

end PushDelivery
