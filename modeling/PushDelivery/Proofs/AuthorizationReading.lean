import PushDelivery.Proofs.GatekeeperStep
import PushDelivery.Proofs.TokenReading

namespace PushDelivery

open Text

/-- Whether letters are the word that stands before a token, in whatever case. -/
def IsBearer (word : List Char) : Prop :=
  word.map Char.toLower = GatewayRequest.bearer

theorem IsBearer.length_eq {word : List Char} (h : IsBearer word) :
    word.length = GatewayRequest.bearer.length := by
  rw [← h, List.length_map]

theorem IsBearer.length_spaced {word : List Char} (h : IsBearer word) :
    (word ++ [' ']).length = Token.bearer.length := by
  rw [List.length_append, h.length_eq]
  rfl

theorem eq_space_of_toLower {c : Char} (h : c.toLower = ' ') : c = ' ' := by
  unfold Char.toLower at h
  split at h
  · rename_i hupper
    have hlow : 65 ≤ c.val.toNat := UInt32.le_iff_toNat_le.mp hupper.1
    have hhigh : c.val.toNat ≤ 90 := UInt32.le_iff_toNat_le.mp hupper.2
    have hsum : (c.val.toNat + 32) % 4294967296 = 32 :=
      (UInt32.toNat_add c.val 32).symm.trans (congrArg (fun d : Char => d.val.toNat) h)
    omega
  · exact h

namespace GatewayRequest

variable {value rest : List Char} {t : Token}

theorem afterBearer?_eq_some_iff :
    afterBearer? value = some rest ↔ ∃ word, IsBearer word ∧ value = word ++ rest := by
  rw [afterBearer?]
  constructor
  · intro h
    split at h
    · rename_i hword
      obtain rfl := Option.some.inj h
      exact ⟨_, hword, (List.take_append_drop _ _).symm⟩
    · cases h
  · rintro ⟨word, hword, rfl⟩
    rw [← hword.length_eq, List.take_left, List.drop_left]
    exact if_pos hword

/-- Whether a request has an authorization value in which the text of a token stands behind the
word. -/
def Offers (r : GatewayRequest) (text : List Char) : Prop :=
  ∃ v word rest, r.header? Protocol.authorizationHeader = some v ∧ IsBearer word ∧
    v.toList = word ++ rest ∧ text = trim rest ∧ text ≠ []

theorem tokenText?_eq_some_iff {r : GatewayRequest} {text : List Char} :
    r.tokenText? = some text ↔ r.Offers text := by
  simp only [tokenText?, Option.filter_eq_some_iff, Option.map_eq_some_iff, Option.bind_eq_some_iff,
    afterBearer?_eq_some_iff, decide_eq_true_eq]
  constructor
  · rintro ⟨⟨rest, ⟨_, ⟨v, hv, rfl⟩, word, hword, hvalue⟩, rfl⟩, hne⟩
    exact ⟨v, word, rest, hv, hword, hvalue, rfl, hne⟩
  · rintro ⟨v, word, rest, hv, hword, hvalue, rfl, hne⟩
    exact ⟨⟨rest, ⟨_, ⟨v, hv, rfl⟩, word, hword, hvalue⟩, rfl⟩, hne⟩

/-- Whether a request has a token that can be read. -/
def Bears (r : GatewayRequest) (t : Token) : Prop :=
  ∃ text, r.Offers text ∧ Token.parse text = .ok t

theorem Offers.unique {r : GatewayRequest} {text text' : List Char} (h : r.Offers text)
    (h' : r.Offers text') : text = text' :=
  Option.some.inj ((tokenText?_eq_some_iff.mpr h).symm.trans (tokenText?_eq_some_iff.mpr h'))

theorem Bears.unique {r : GatewayRequest} {t u : Token} (ht : r.Bears t) (hu : r.Bears u) :
    t = u := by
  obtain ⟨text, htext, ht⟩ := ht
  obtain ⟨text', htext', hu⟩ := hu
  obtain rfl := htext.unique htext'
  exact Except.ok.inj (ht.symm.trans hu)

def readToken? (value : List Char) : Option Token :=
  (((afterBearer? value).map trim).filter (· ≠ [])).bind fun text => (Token.parse text).toOption

theorem tokenText?_bind_parse (r : GatewayRequest) :
    (r.tokenText?.bind fun text => (Token.parse text).toOption) =
      (r.header? Protocol.authorizationHeader).bind fun v => readToken? v.toList := by
  cases h : r.header? Protocol.authorizationHeader with
  | none => rw [tokenText?, h]; rfl
  | some v => rw [tokenText?, h]; rfl

theorem ne_nil_of_parse {text : List Char} (h : Token.parse text = .ok t) : text ≠ [] := by
  rintro rfl
  cases h

theorem readToken?_eq_some_iff :
    readToken? value = some t ↔
      ∃ word rest, IsBearer word ∧ value = word ++ rest ∧ Token.parse (trim rest) = .ok t := by
  simp only [readToken?, Option.bind_eq_some_iff, Option.filter_eq_some_iff,
    Option.map_eq_some_iff, afterBearer?_eq_some_iff, toOption_eq_some_iff]
  constructor
  · rintro ⟨_, ⟨⟨rest, ⟨word, hword, hvalue⟩, rfl⟩, -⟩, hparse⟩
    exact ⟨word, rest, hword, hvalue, hparse⟩
  · rintro ⟨word, rest, hword, hvalue, hparse⟩
    exact ⟨_, ⟨⟨rest, ⟨word, hword, hvalue⟩, rfl⟩, by simpa using ne_nil_of_parse hparse⟩, hparse⟩

end GatewayRequest

theorem Registry.Vouches.bears {g : Registry} {r : GatewayRequest} {t : Token}
    (h : g.Vouches r t) : r.Bears t := by
  obtain ⟨-, -, text, -, -, htext, hparse, -⟩ := h
  exact ⟨text, GatewayRequest.tokenText?_eq_some_iff.mp htext, hparse⟩

namespace Token

open GatewayRequest (readToken? readToken?_eq_some_iff)

variable {value : List Char} {t : Token}

theorem map_take_eq_bearer_iff :
    (value.take bearer.length).map Char.toLower = bearer ↔
      ∃ word, IsBearer word ∧ value = word ++ ' ' :: value.drop bearer.length := by
  constructor
  · intro h
    obtain ⟨word, last, hfront, hword, hlast⟩ :=
      List.map_eq_append_iff.mp (h.trans (show bearer = GatewayRequest.bearer ++ [' '] from rfl))
    obtain ⟨c, rfl, hc⟩ := List.map_eq_singleton_iff.mp hlast
    obtain rfl := eq_space_of_toLower hc
    refine ⟨word, hword, ?_⟩
    calc value = value.take bearer.length ++ value.drop bearer.length :=
          (List.take_append_drop _ _).symm
      _ = word ++ ' ' :: value.drop bearer.length := by rw [hfront, List.append_assoc]; rfl
  · rintro ⟨word, hword, hvalue⟩
    have hfront : value.take bearer.length = word ++ [' '] := by
      rw [hvalue, List.append_cons, ← hword.length_spaced, List.take_left]
    rw [hfront, List.map_append, hword]
    rfl

theorem ofAuthorization_eq_ok_iff :
    ofAuthorization value = .ok t ↔
      ∃ word rest, IsBearer word ∧ value = word ++ ' ' :: rest ∧ parse (trim rest) = .ok t := by
  rw [ofAuthorization]
  constructor
  · intro h
    split at h
    · rename_i hfront
      obtain ⟨word, hword, hvalue⟩ := map_take_eq_bearer_iff.mp hfront
      exact ⟨word, _, hword, hvalue, h⟩
    · cases h
  · rintro ⟨word, rest, hword, rfl, hparse⟩
    have hrest : (word ++ ' ' :: rest).drop bearer.length = rest := by
      rw [List.append_cons, ← hword.length_spaced, List.drop_left]
    rw [if_pos (map_take_eq_bearer_iff.mpr ⟨word, hword, by rw [hrest]⟩), hrest, hparse]

/-- Whatever token the first reader finds, the gateway reads as well. -/
theorem readToken?_of_ofAuthorization (h : ofAuthorization value = .ok t) :
    readToken? value = some t := by
  obtain ⟨word, rest, hword, hvalue, hparse⟩ := ofAuthorization_eq_ok_iff.mp h
  refine readToken?_eq_some_iff.mpr ⟨word, ' ' :: rest, hword, hvalue, ?_⟩
  rw [trim_cons_blank (by decide), hparse]

theorem ofAuthorization_iff_of_readToken? (h : readToken? value = some t) :
    ofAuthorization value = .ok t ↔ value[6]? = some ' ' := by
  obtain ⟨word, rest, hword, rfl, hparse⟩ := readToken?_eq_some_iff.mp h
  have hbehind (cs : List Char) : (word ++ cs)[6]? = cs[0]? := by
    have hlen : word.length = 6 := hword.length_eq
    rw [List.getElem?_append_right hlen.le, hlen]
  rw [hbehind, ofAuthorization_eq_ok_iff]
  constructor
  · rintro ⟨word', rest', hword', heq, -⟩
    obtain ⟨-, rfl⟩ := List.append_inj heq (hword.length_eq.trans hword'.length_eq.symm)
    rfl
  · intro hspace
    cases rest with
    | nil => cases hspace
    | cons c rest =>
      obtain rfl := Option.some.inj hspace
      rw [trim_cons_blank (by decide)] at hparse
      exact ⟨word, rest, hword, rfl, hparse⟩

/-- The gateway reads a token that stands behind the word, the first reader one that stands behind
the word and a space. So what the first reader finds the gateway reads as well, and the two agree on
a value exactly if the gateway reads nothing from it or there is a space behind the word. -/
theorem readers_agree_iff (value : List Char) :
    (∀ r : GatewayRequest, (r.tokenText?.bind fun text => (parse text).toOption) =
      (r.header? Protocol.authorizationHeader).bind fun v => readToken? v.toList) ∧
    (∀ t, readToken? value = some t ↔
      ∃ word rest, IsBearer word ∧ value = word ++ rest ∧ parse (trim rest) = .ok t) ∧
    (∀ t, ofAuthorization value = .ok t ↔
      ∃ word rest, IsBearer word ∧ value = word ++ ' ' :: rest ∧ parse (trim rest) = .ok t) ∧
    (∀ t, ofAuthorization value = .ok t → readToken? value = some t) ∧
    ((∀ t, readToken? value = some t ↔ ofAuthorization value = .ok t) ↔
      readToken? value = none ∨ value[6]? = some ' ') := by
  refine ⟨GatewayRequest.tokenText?_bind_parse, fun _ => readToken?_eq_some_iff,
    fun _ => ofAuthorization_eq_ok_iff, fun _ => readToken?_of_ofAuthorization, ?_⟩
  constructor
  · intro hagree
    cases hread : readToken? value with
    | none => exact .inl rfl
    | some t => exact .inr ((ofAuthorization_iff_of_readToken? hread).mp ((hagree t).mp hread))
  · rintro hor t
    refine ⟨fun hread => ?_, readToken?_of_ofAuthorization⟩
    rcases hor with hnone | hspace
    · cases hnone.symm.trans hread
    · exact (ofAuthorization_iff_of_readToken? hread).mpr hspace

/-- Capital letters and blanks behind the space make no difference. -/
theorem readers_agree_of_blank :
    let value := "Bearer \t eyJhbGciOiJFUzI1NiIsImtpZCI6IksifQ.eyJpc3MiOiJUIiwiaWF0IjowfQ.".toList
    (∃ t, readToken? value = some t) ∧
      ∀ t, readToken? value = some t ↔ ofAuthorization value = .ok t := by
  intro value
  have hread : (readToken? value).isSome = true := by decide +kernel
  obtain ⟨-, -, -, -, hagree⟩ := readers_agree_iff value
  exact ⟨Option.isSome_iff_exists.mp hread, hagree.mpr (.inr (by decide +kernel))⟩

/-- A token right behind the word is read by the gateway alone. -/
theorem readers_not_always_agree :
    let value := "bearereyJhbGciOiJFUzI1NiIsImtpZCI6IksifQ.eyJpc3MiOiJUIiwiaWF0IjowfQ.".toList
    ¬ ∀ t, readToken? value = some t ↔ ofAuthorization value = .ok t := by
  intro value hagree
  have hread : (readToken? value).isSome = true := by decide +kernel
  have hmalformed : ofAuthorization value = .error .malformed := by decide +kernel
  obtain ⟨t, ht⟩ := Option.isSome_iff_exists.mp hread
  cases hmalformed.symm.trans ((hagree t).mp ht)

end Token

end PushDelivery
