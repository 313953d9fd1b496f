import PushDelivery.Proofs.TokenReading

namespace PushDelivery

open Text

namespace Text

namespace Base64url

theorem ofNat_add_sub {c base : Char} (h : base ≤ c) :
    Char.ofNat (base.toNat + (c.toNat - base.toNat)) = c := by
  have hle : base.toNat ≤ c.toNat := UInt32.le_iff_toNat_le.mp (Char.le_def.mp h)
  rw [Nat.add_sub_cancel' hle, Char.ofNat_toNat]

theorem toNat_sub_le {c low high : Char} (h : c ≤ high) :
    c.toNat - low.toNat ≤ high.toNat - low.toNat :=
  Nat.sub_le_sub_right (UInt32.le_iff_toNat_le.mp (Char.le_def.mp h)) _

theorem digit_of_value? {c : Char} {n : Nat} (h : value? c = some n) : n < 64 ∧ digit n = c := by
  unfold value? at h
  split at h
  · rename_i hrange
    obtain rfl := Option.some.inj h
    have hlt : c.toNat - 'A'.toNat ≤ 25 := toNat_sub_le hrange.2
    refine ⟨by omega, ?_⟩
    rw [digit, if_pos (by omega), ofNat_add_sub hrange.1]
  · split at h
    · rename_i hrange
      obtain rfl := Option.some.inj h
      have hlt : c.toNat - 'a'.toNat ≤ 25 := toNat_sub_le hrange.2
      refine ⟨by omega, ?_⟩
      rw [digit, if_neg (by omega), if_pos (by omega), Nat.add_sub_cancel, ofNat_add_sub hrange.1]
    · split at h
      · rename_i hrange
        obtain rfl := Option.some.inj h
        have hlt : c.toNat - '0'.toNat ≤ 9 := toNat_sub_le hrange.2
        refine ⟨by omega, ?_⟩
        rw [digit, if_neg (by omega), if_neg (by omega), if_pos (by omega), Nat.add_sub_cancel,
          ofNat_add_sub hrange.1]
      · split at h
        · rename_i hc
          obtain rfl := Option.some.inj h
          exact ⟨by decide, hc.symm⟩
        · split at h
          · rename_i hc
            obtain rfl := Option.some.inj h
            exact ⟨by decide, hc.symm⟩
          · cases h

theorem encode_of_decode? {cs : List Char} {bytes : List UInt8} (h : decode? cs = some bytes) :
    encode bytes = cs := by
  induction cs using decode?.induct generalizing bytes with
  | case1 =>
    obtain rfl := Option.some.inj h
    rfl
  | case2 => cases h
  | case3 p q =>
    simp only [decode?, Option.bind_eq_bind, Option.bind_eq_some_iff] at h
    obtain ⟨x, hx, y, hy, h⟩ := h
    split at h
    · rename_i hspare
      obtain rfl := Option.some.inj h
      obtain ⟨hlx, rfl⟩ := digit_of_value? hx
      obtain ⟨hly, rfl⟩ := digit_of_value? hy
      have hfirst : (x * 4 + y / 16) / 4 = x := by omega
      have hsecond : (x * 4 + y / 16) % 4 * 16 = y := by omega
      rw [encode, Utf8.toNat_ofNat_of_lt (by omega), hfirst, hsecond]
    · cases h
  | case4 p q r =>
    simp only [decode?, Option.bind_eq_bind, Option.bind_eq_some_iff] at h
    obtain ⟨x, hx, y, hy, z, hz, h⟩ := h
    split at h
    · rename_i hspare
      obtain rfl := Option.some.inj h
      obtain ⟨hlx, rfl⟩ := digit_of_value? hx
      obtain ⟨hly, rfl⟩ := digit_of_value? hy
      obtain ⟨hlz, rfl⟩ := digit_of_value? hz
      have hfirst : (x * 4 + y / 16) / 4 = x := by omega
      have hsecond : (x * 4 + y / 16) % 4 * 16 + (y % 16 * 16 + z / 4) / 16 = y := by omega
      have hthird : (y % 16 * 16 + z / 4) % 16 * 4 = z := by omega
      rw [encode, Utf8.toNat_ofNat_of_lt (by omega), Utf8.toNat_ofNat_of_lt (by omega), hfirst,
        hsecond, hthird]
    · cases h
  | case5 p q r s rest ih =>
    simp only [decode?, Option.bind_eq_bind, Option.bind_eq_some_iff, Option.pure_def,
      Option.some.injEq] at h
    obtain ⟨x, hx, y, hy, z, hz, w, hw, more, hmore, rfl⟩ := h
    obtain ⟨hlx, rfl⟩ := digit_of_value? hx
    obtain ⟨hly, rfl⟩ := digit_of_value? hy
    obtain ⟨hlz, rfl⟩ := digit_of_value? hz
    obtain ⟨hlw, rfl⟩ := digit_of_value? hw
    have hfirst : (x * 4 + y / 16) / 4 = x := by omega
    have hsecond : (x * 4 + y / 16) % 4 * 16 + (y % 16 * 16 + z / 4) / 16 = y := by omega
    have hthird : (y % 16 * 16 + z / 4) % 16 * 4 + (z % 4 * 64 + w) / 64 = z := by omega
    have hfourth : (z % 4 * 64 + w) % 64 = w := by omega
    rw [encode, Utf8.toNat_ofNat_of_lt (by omega), Utf8.toNat_ofNat_of_lt (by omega),
      Utf8.toNat_ofNat_of_lt (by omega), hfirst, hsecond, hthird, hfourth, ih hmore]

end Base64url

theorem split_ne_nil (separator : Char) (cs : List Char) : split separator cs ≠ [] := by
  cases cs with
  | nil => exact List.cons_ne_nil _ _
  | cons c cs =>
    rw [split]
    split
    · exact List.cons_ne_nil _ _
    · split
      · exact List.cons_ne_nil _ _
      · exact List.cons_ne_nil _ _

theorem append_of_split {separator : Char} {cs part next : List Char} {others : List (List Char)}
    (h : split separator cs = part :: next :: others) :
    ∃ rest, cs = part ++ separator :: rest ∧ split separator rest = next :: others := by
  induction cs generalizing part with
  | nil => simp [split] at h
  | cons c cs ih =>
    rw [split] at h
    split at h
    · rename_i hc
      obtain ⟨rfl, hrest⟩ := List.cons.inj h
      exact ⟨cs, by rw [hc, List.nil_append], hrest⟩
    · split at h
      · simp at h
      · rename_i hfirst
        obtain ⟨rfl, rfl⟩ := List.cons.inj h
        obtain ⟨rest, rfl, hrest⟩ := ih hfirst
        exact ⟨rest, rfl, hrest⟩

theorem eq_of_split {separator : Char} {cs part : List Char} (h : split separator cs = [part]) :
    cs = part := by
  induction cs generalizing part with
  | nil => exact (List.cons.inj h).1
  | cons c cs ih =>
    rw [split] at h
    split at h
    · exact absurd (List.cons.inj h).2 (split_ne_nil separator cs)
    · split at h
      · rename_i hnone
        exact absurd hnone (split_ne_nil separator cs)
      · rename_i hfirst
        obtain ⟨rfl, rfl⟩ := List.cons.inj h
        rw [ih hfirst]

end Text

namespace Token

/-- The segments of a text stand for these bytes. -/
def Decodes (text : List Char) (parts : List (List UInt8)) : Prop :=
  List.Forall₂ (fun segment bytes => Base64url.decode? segment = some bytes) (segments text) parts

/-- What a signature covers, when header and claims are these bytes. -/
def covered (header claims : List UInt8) : List Char :=
  Base64url.encode header ++ '.' :: Base64url.encode claims

def spell (header claims signature : List UInt8) : List Char :=
  covered header claims ++ '.' :: Base64url.encode signature

theorem decodes_iff {text : List Char} {header claims signature : List UInt8} :
    Decodes text [header, claims, signature] ↔ ∃ first second third,
      segments text = [first, second, third] ∧ Base64url.decode? first = some header ∧
      Base64url.decode? second = some claims ∧ Base64url.decode? third = some signature := by
  constructor
  · intro h
    unfold Decodes at h
    generalize segments text = parts at h
    cases h with
    | cons hfirst h =>
      cases h with
      | cons hsecond h =>
        cases h with
        | cons hthird h =>
          cases h with
          | nil => exact ⟨_, _, _, rfl, hfirst, hsecond, hthird⟩
  · rintro ⟨first, second, third, hsegments, hfirst, hsecond, hthird⟩
    rw [Decodes, hsegments]
    exact .cons hfirst (.cons hsecond (.cons hthird .nil))

/-- Only one text has segments with these bytes. -/
theorem Decodes.eq_spell {text : List Char} {header claims signature : List UInt8}
    (h : Decodes text [header, claims, signature]) : text = spell header claims signature := by
  obtain ⟨first, second, third, hsegments, hfirst, hsecond, hthird⟩ := decodes_iff.mp h
  obtain ⟨rest, rfl, hrest⟩ := append_of_split hsegments
  obtain ⟨last, rfl, hlast⟩ := append_of_split hrest
  obtain rfl := eq_of_split hlast
  rw [spell, covered, Base64url.encode_of_decode? hfirst, Base64url.encode_of_decode? hsecond,
    Base64url.encode_of_decode? hthird, List.append_assoc, List.cons_append]

theorem decodeSegment_eq_ok_iff {segment : List Char} {bytes : List UInt8} :
    decodeSegment segment = .ok bytes ↔ Base64url.decode? segment = some bytes := by
  rw [decodeSegment]
  split
  · rename_i h
    rw [h, Except.ok.injEq, Option.some.injEq]
  · rename_i h
    rw [h]
    simp

theorem decodeJson_eq_ok_iff {α : Type} {read? : Json → Option α} {segment : List Char} {a : α} :
    decodeJson read? segment = .ok a ↔
      ∃ bytes, Base64url.decode? segment = some bytes ∧
        (Json.ofBytes? bytes).bind read? = some a := by
  rw [decodeJson]
  cases h : Base64url.decode? segment with
  | none => simp [decodeSegment, h, bind, Except.bind]
  | some bytes =>
    simp only [decodeSegment, h, bind, Except.bind, Option.some.injEq, exists_eq_left']
    cases hread : (Json.ofBytes? bytes).bind read? with
    | none => simp [Option.bind] at hread ⊢
    | some b => simp

/-- A text is read as a token exactly if its three segments are the bytes of a header, of claims
and of a signature. -/
theorem parse_eq_ok_iff {text : List Char} {t : Token} :
    parse text = .ok t ↔ ∃ header claims signature,
      Decodes text [header, claims, signature] ∧
      (Json.ofBytes? header).bind TokenHeader.ofJson? = some t.header ∧
      t.header.algorithm = algorithm ∧
      (Json.ofBytes? claims).bind TokenClaims.ofJson? = some t.claims ∧
      t.signature = signature ∧ t.encoded = text := by
  constructor
  · intro h
    unfold parse at h
    split at h
    · rename_i first second third hsegments
      cases hheader : decodeJson TokenHeader.ofJson? first with
      | error e => simp [hheader, bind, Except.bind] at h
      | ok header =>
        simp only [hheader, bind, Except.bind] at h
        split at h
        · rename_i halgorithm
          cases hclaims : decodeJson TokenClaims.ofJson? second with
          | error e => simp [hclaims] at h
          | ok claims =>
            cases hsignature : decodeSegment third with
            | error e => simp [hclaims, hsignature] at h
            | ok signature =>
              simp only [hclaims, hsignature, Except.ok.injEq] at h
              obtain rfl := h
              obtain ⟨x, hx, hread⟩ := decodeJson_eq_ok_iff.mp hheader
              obtain ⟨y, hy, hclaimed⟩ := decodeJson_eq_ok_iff.mp hclaims
              have hz := decodeSegment_eq_ok_iff.mp hsignature
              exact ⟨x, y, signature, decodes_iff.mpr ⟨_, _, _, hsegments, hx, hy, hz⟩, hread,
                halgorithm, hclaimed, rfl, rfl⟩
        · cases h
    · cases h
  · rintro ⟨x, y, signature, hdecodes, hheader, halgorithm, hclaims, rfl, rfl⟩
    obtain ⟨first, second, third, hsegments, hfirst, hsecond, hthird⟩ := decodes_iff.mp hdecodes
    have h₁ := decodeJson_eq_ok_iff.mpr ⟨x, hfirst, hheader⟩
    have h₂ := decodeJson_eq_ok_iff.mpr ⟨y, hsecond, hclaims⟩
    have h₃ := decodeSegment_eq_ok_iff.mpr hthird
    rw [parse, hsegments]
    simp only [h₁, h₂, h₃, bind, Except.bind, halgorithm, if_true]

theorem verify_iff_of_spell {t : Token} {header claims : List UInt8} (k : VerificationKey)
    (h : t.encoded = spell header claims t.signature) :
    t.verify k = true ↔ (t.header.keyId = k.keyId ∧ t.claims.teamId = k.teamId) ∧
      k.verify (Utf8.encode (covered header claims)) t.signature = true := by
  have hlast : beforeLastDot? t.encoded = some (covered header claims) := by
    rw [h, spell, beforeLastDot?_append (Base64url.dot_notMem_encode t.signature)]
  rw [verify]
  split
  · rename_i hids
    simp [hlast, hids]
  · rename_i hids
    simp [hids]

/-- The text of a token is canonical. A text that is read as a token is the one written form of the
bytes of its header, its claims and its signature, so that no other text has the same bytes. The
ids and the time are those of these bytes, and a key finds the token genuine exactly if it has both
ids and the signature is one of the text of the first two segments. -/
theorem text_canonical (text : List Char) (t : Token) (h : parse text = .ok t) :
    ∃ header claims, Decodes text [header, claims, t.signature] ∧
      text = (Base64url.encode header ++ '.' :: Base64url.encode claims) ++
        '.' :: Base64url.encode t.signature ∧
      (∀ other, Decodes other [header, claims, t.signature] → other = text) ∧
      (Json.ofBytes? header).bind TokenHeader.ofJson? = some t.header ∧
      (Json.ofBytes? claims).bind TokenClaims.ofJson? = some t.claims ∧
      ∀ k : VerificationKey, t.verify k = true ↔
        (t.header.keyId = k.keyId ∧ t.claims.teamId = k.teamId) ∧
        k.verify (Utf8.encode (Base64url.encode header ++ '.' :: Base64url.encode claims))
          t.signature = true := by
  obtain ⟨header, claims, signature, hdecodes, hheader, -, hclaims, rfl, hencoded⟩ :=
    parse_eq_ok_iff.mp h
  have htext := hdecodes.eq_spell
  refine ⟨header, claims, hdecodes, htext, ?_, hheader, hclaims, ?_⟩
  · intro other hother
    exact hother.eq_spell.trans htext.symm
  · intro k
    exact verify_iff_of_spell k (hencoded.trans htext)

/-- A header and claims as nobody here would write them, and a signature of two bytes. -/
theorem canonical_of_blanks :
    let text := spell (Utf8.encode "\x7b \"kid\":\"K\", \"alg\":\"ES256\"\x7d".toList)
      (Utf8.encode "[\"T\", 1700000000]".toList) [7, 255]
    let t : Token := ⟨⟨"ES256", none, "K"⟩, ⟨"T", 1700000000⟩, [7, 255], text⟩
    parse text = .ok t ∧ ∃ header claims, Decodes text [header, claims, [7, 255]] ∧
      (∀ other, Decodes other [header, claims, [7, 255]] → other = text) ∧
      ∀ k : VerificationKey, k.keyId ≠ "K" → t.verify k = false := by
  intro text t
  have hparse : parse text = .ok t := by decide +kernel
  obtain ⟨header, claims, hdecodes, -, hunique, -, -, hverify⟩ := text_canonical text t hparse
  refine ⟨hparse, header, claims, hdecodes, hunique, fun k hk => ?_⟩
  have hforeign : ¬ t.verify k = true := fun hv => hk ((hverify k).mp hv).1.1.symm
  simpa using hforeign

end Token

end PushDelivery
