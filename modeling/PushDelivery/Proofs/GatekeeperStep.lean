import PushDelivery.Gateway.Gatekeeper
import Mathlib.Tactic.Common

namespace PushDelivery

/-- Whether a ruling says that a token has expired. -/
def Ruling.IsExpired (x : Ruling) : Prop :=
  ∃ since, x = .rejected .expiredProviderToken since

/-- Whether a request shows the gateway a genuine token: nothing is wrong with its headers and its
device, and it has a token that can be read and whose signature is that of the key which is known by
its key id. -/
structure Registry.Vouches (g : Registry) (r : GatewayRequest) (t : Token) : Prop where
  addressed : ∃ topic, r.checkHeaders = .ok topic ∧ g.checkDevice topic r = .ok ()
  known : ∃ grants text key, g.authentication = .token grants ∧ r.tokenText? = some text ∧
    Token.parse text = .ok t ∧ Authentication.key? grants t.header.keyId = some key ∧
    t.verify key = true

namespace Checked

variable {α β : Type}

/-- Whether a check never finds a token expired. -/
def Spares (c : Checked α) : Prop :=
  ∀ e, c = .error e → e.reason ≠ .expiredProviderToken

theorem spares_ok (a : α) : Spares (.ok a) := by
  intro e he
  cases he

theorem spares_error {e : Refusal} (h : e.reason ≠ .expiredProviderToken) :
    Spares (.error e : Checked α) := by
  intro d hd
  exact Except.error.inj hd ▸ h

theorem spares_require (holds : Bool) {reason : Rejection} (h : reason ≠ .expiredProviderToken) :
    (require holds reason).Spares := by
  intro e he
  cases holds with
  | true => cases he
  | false => exact Except.error.inj he ▸ h

theorem spares_found (value : Option α) {reason : Rejection} (h : reason ≠ .expiredProviderToken) :
    (found value reason).Spares := by
  intro e he
  cases value with
  | some a => cases he
  | none => exact Except.error.inj he ▸ h

theorem Spares.bind {c : Checked α} (hc : c.Spares) {f : α → Checked β} (hf : ∀ a, (f a).Spares) :
    Spares (c >>= f) := by
  intro e he
  cases c with
  | error d =>
    obtain rfl : d = e := Except.error.inj he
    exact hc d rfl
  | ok a => exact hf a e he

theorem bind_eq_ok_iff {c : Checked α} {f : α → Checked β} {b : β} :
    c >>= f = .ok b ↔ ∃ a, c = .ok a ∧ f a = .ok b := by
  cases c with
  | error e =>
    constructor
    · intro h
      cases h
    · rintro ⟨a, h, -⟩
      cases h
  | ok a =>
    constructor
    · intro h
      exact ⟨a, rfl, h⟩
    · rintro ⟨x, h, hx⟩
      obtain rfl := Except.ok.inj h
      exact hx

theorem require_eq_ok_iff {holds : Bool} {reason : Rejection} {u : Unit} :
    require holds reason = .ok u ↔ holds = true := by
  cases holds <;> simp [require]

theorem found_eq_ok_iff {value : Option α} {reason : Rejection} {a : α} :
    found value reason = .ok a ↔ value = some a := by
  cases value <;> simp [found]

theorem ruling_eq_accepted_iff {c : Checked Unit} : c.ruling = .accepted ↔ c = .ok () := by
  cases c with
  | ok u => simp [ruling]
  | error e => simp [ruling, Refusal.ruling]

theorem Spares.ruling {c : Checked Unit} (h : c.Spares) : ¬ c.ruling.IsExpired := by
  rintro ⟨since, hruling⟩
  cases c with
  | ok a => cases hruling
  | error e => exact h e rfl (Ruling.rejected.inj hruling).1

end Checked

open Checked

theorem GatewayRequest.checkHeaders_spares (r : GatewayRequest) : r.checkHeaders.Spares :=
  (spares_require _ (by decide)).bind fun _ => (spares_require _ (by decide)).bind fun _ =>
    (spares_found _ (by decide)).bind fun topic => (spares_require _ (by decide)).bind fun _ =>
      (spares_require _ (by decide)).bind fun _ => spares_ok topic

theorem GatewayRequest.checkPayload_spares (r : GatewayRequest) : r.checkPayload.Spares :=
  (spares_require _ (by decide)).bind fun _ => spares_require _ (by decide)

theorem Registry.checkDevice_spares (g : Registry) (topic : String) (r : GatewayRequest) :
    (g.checkDevice topic r).Spares := by
  refine (spares_found _ (by decide)).bind fun device => (spares_require _ (by decide)).bind
    fun _ => (spares_require _ (by decide)).bind fun _ => ?_
  cases g.expiredSince? device with
  | some since =>
    intro e he
    obtain rfl := Except.error.inj he
    exact Rejection.noConfusion
  | none => exact spares_require _ (by decide)

/-- All that is checked where a connection has a certificate. -/
def Registry.checkCertified (g : Registry) (base : String) (r : GatewayRequest) :
    Checked Unit := do
  let topic ← r.checkHeaders
  g.checkDevice topic r
  Checked.require ((Authentication.certificateTopics base).contains topic) .badTopic
  r.checkPayload

theorem Registry.checkCertified_spares (g : Registry) (base : String) (r : GatewayRequest) :
    (g.checkCertified base r).Spares :=
  r.checkHeaders_spares.bind fun topic => (g.checkDevice_spares topic r).bind fun _ =>
    (spares_require _ (by decide)).bind fun _ => r.checkPayload_spares

theorem Authentication.checkToken_spares (grants : List Grant) (r : GatewayRequest) :
    (checkToken grants r).Spares :=
  (spares_found _ (by decide)).bind fun _ => (spares_found _ (by decide)).bind fun t =>
    (spares_found _ (by decide)).bind fun _ => (spares_require _ (by decide)).bind fun _ =>
      spares_ok t

theorem GatewayRequest.header?_of_checkHeaders {r : GatewayRequest} {topic : String}
    (h : r.checkHeaders = .ok topic) :
    r.header? Protocol.topicHeader = some topic := by
  simp only [checkHeaders, bind_eq_ok_iff, found_eq_ok_iff] at h
  obtain ⟨-, -, -, -, topic', htopic, -, -, -, -, hsame⟩ := h
  rw [htopic, Except.ok.inj hsame]

theorem GatewayRequest.device?_eq_some_iff {r : GatewayRequest} {device : String} :
    r.device? = some device ↔ r.path = Protocol.devicePath device := by
  simp only [device?, Protocol.devicePath]
  constructor
  · intro h
    split at h
    · rename_i hstart
      obtain ⟨rest, hrest⟩ := List.isPrefixOf_iff_prefix.mp hstart
      obtain rfl := Option.some.inj h
      refine String.toList_inj.mp ?_
      rw [String.toList_append, String.toList_ofList, ← hrest, List.drop_left]
    · cases h
  · intro h
    rw [h, String.toList_append, if_pos (List.isPrefixOf_iff_prefix.mpr (List.prefix_append _ _)),
      List.drop_left, String.ofList_toList]

theorem Registry.checkDevice_of_registered {g : Registry} {r : GatewayRequest}
    {topic device : String} (hdevice : r.device? = some device)
    (hname : GatewayRequest.isDeviceName device = true) (hactive : g.expiredSince? device = none)
    (hregistered : g.isRegistered topic device = true) : g.checkDevice topic r = .ok () := by
  have hne : device ≠ "" := by
    rintro rfl
    cases hname
  simp [checkDevice, found, require, hdevice, hne, hname, hactive, hregistered, bind, Except.bind]

theorem toOption_eq_some_iff {ε α : Type} {c : Except ε α} {a : α} :
    c.toOption = some a ↔ c = .ok a := by
  cases c <;> simp [Except.toOption]

theorem Authentication.checkToken_eq_ok_iff {grants : List Grant} {r : GatewayRequest} {t : Token} :
    checkToken grants r = .ok t ↔ ∃ text key, r.tokenText? = some text ∧
      Token.parse text = .ok t ∧ key? grants t.header.keyId = some key ∧ t.verify key = true := by
  simp only [checkToken, bind_eq_ok_iff, found_eq_ok_iff, require_eq_ok_iff,
    toOption_eq_some_iff]
  constructor
  · rintro ⟨text, htext, u, hparse, key, hkey, -, hverify, hu⟩
    obtain rfl := Except.ok.inj hu
    exact ⟨text, key, htext, hparse, hkey, hverify⟩
  · rintro ⟨text, key, htext, hparse, hkey, hverify⟩
    exact ⟨text, htext, t, hparse, key, hkey, (), hverify, rfl⟩

theorem Registry.vouches_iff {g : Registry} {r : GatewayRequest} {t : Token} :
    g.Vouches r t ↔ ∃ topic grants, r.checkHeaders = .ok topic ∧ g.checkDevice topic r = .ok () ∧
      g.authentication = .token grants ∧ Authentication.checkToken grants r = .ok t := by
  constructor
  · rintro ⟨⟨topic, hheaders, hdevice⟩, grants, text, key, hauth, hknown⟩
    exact ⟨topic, grants, hheaders, hdevice, hauth,
      Authentication.checkToken_eq_ok_iff.mpr ⟨text, key, hknown⟩⟩
  · rintro ⟨topic, grants, hheaders, hdevice, hauth, htoken⟩
    obtain ⟨text, key, hknown⟩ := Authentication.checkToken_eq_ok_iff.mp htoken
    exact ⟨⟨topic, hheaders, hdevice⟩, grants, text, key, hauth, hknown⟩

theorem Registry.not_vouches_of_certificate {g : Registry} {base : String}
    (h : g.authentication = .certificate base) (r : GatewayRequest) (t : Token) :
    ¬ g.Vouches r t := by
  rintro ⟨-, grants, text, key, htoken, -⟩
  cases h.symm.trans htoken

theorem Registry.not_vouches_of_error {g : Registry} {grants : List Grant} {r : GatewayRequest}
    {e : Refusal} (hauth : g.authentication = .token grants)
    (h : Authentication.checkToken grants r = .error e) (t : Token) : ¬ g.Vouches r t := by
  intro ht
  obtain ⟨-, grants', -, -, hauth', hok⟩ := vouches_iff.mp ht
  obtain rfl := Authentication.token.inj (hauth.symm.trans hauth')
  cases h.symm.trans hok

theorem Registry.Vouches.unique {g : Registry} {r : GatewayRequest} {t u : Token}
    (ht : g.Vouches r t) (hu : g.Vouches r u) : t = u := by
  obtain ⟨-, grants, -, -, hauth, htoken⟩ := vouches_iff.mp ht
  obtain ⟨-, grants', -, -, hauth', htoken'⟩ := vouches_iff.mp hu
  obtain rfl := Authentication.token.inj (hauth.symm.trans hauth')
  exact Except.ok.inj (htoken.symm.trans htoken')

namespace Gatekeeper

/-- Whether a connection can be the team's: it is the team's already, or nobody's. -/
def IsFreeFor (gate : Gatekeeper) (team : String) : Prop :=
  gate.team.getD team = team

instance (gate : Gatekeeper) (team : String) : Decidable (gate.IsFreeFor team) :=
  inferInstanceAs (Decidable (_ = _))

theorem not_free_iff {gate : Gatekeeper} {team : String} :
    ¬ gate.IsFreeFor team ↔ ∃ owner, gate.team = some owner ∧ team ≠ owner := by
  rw [IsFreeFor]
  cases gate.team with
  | none => simp
  | some owner => simp [eq_comm]

theorem ne_none_of_not_free {gate : Gatekeeper} {team : String} (h : ¬ gate.IsFreeFor team) :
    gate.team ≠ none := by
  obtain ⟨owner, howner, -⟩ := not_free_iff.mp h
  simp [howner]

/-- How a request is judged: what is said of it, and what is remembered afterwards. -/
inductive Judges (g : Registry) (gate : Gatekeeper) (now : Instant) (r : GatewayRequest) :
    Ruling → Gatekeeper → Prop where
  /-- After an expired token nothing is looked at. -/
  | wedged (h : gate.wedged = true) :
      Judges g gate now r (.rejected .expiredProviderToken none) gate
  /-- Without a genuine token nothing is remembered. -/
  | unvouched {x : Ruling} (h : gate.wedged = false) (hnone : ∀ t, ¬ g.Vouches r t)
      (hx : ¬ x.IsExpired)
      (haccepted : ∀ grants, g.authentication = .token grants → x ≠ .accepted) :
      Judges g gate now r x gate
  | foreign {t : Token} (h : gate.wedged = false) (ht : g.Vouches r t)
      (hteam : ¬ gate.IsFreeFor t.claims.teamId) :
      Judges g gate now r (.rejected .invalidProviderToken none) gate
  | stale {t : Token} (h : gate.wedged = false) (ht : g.Vouches r t)
      (hteam : gate.IsFreeFor t.claims.teamId) (hage : isExpired? now t = some true) :
      Judges g gate now r (.rejected .expiredProviderToken none) ⟨some t.claims.teamId, true⟩
  /-- Whatever is wrong with the topic or the payload. -/
  | vouched {t : Token} {x : Ruling} (h : gate.wedged = false) (ht : g.Vouches r t)
      (hteam : gate.IsFreeFor t.claims.teamId) (hage : isExpired? now t = some false)
      (hx : ¬ x.IsExpired) :
      Judges g gate now r x ⟨some t.claims.teamId, false⟩

variable {g : Registry} {gate gate' : Gatekeeper} {now : Instant} {r : GatewayRequest} {x : Ruling}

theorem receive_of_wedged (h : gate.wedged = true) :
    gate.receive g now r = some (.rejected .expiredProviderToken none, gate) := by
  rw [receive, if_pos h]

theorem receive_of_spares {c : Checked Unit} {next : Gatekeeper} (h : gate.wedged = false)
    (hcheck : gate.check g now r = some (c, next)) (hspares : c.Spares) :
    gate.receive g now r = some (c.ruling, { next with wedged := false }) := by
  rw [receive, if_neg (by simp [h]), hcheck]
  cases c with
  | ok u => rfl
  | error e => simp [hspares e rfl]

theorem receive_same {c : Checked Unit} (h : gate.wedged = false)
    (hcheck : gate.check g now r = some (c, gate)) (hspares : c.Spares) :
    gate.receive g now r = some (c.ruling, gate) := by
  rw [receive_of_spares h hcheck hspares, ← h]

theorem check_cases (g : Registry) (gate : Gatekeeper) (now : Instant) (r : GatewayRequest) :
    (∃ e, e.reason ≠ .expiredProviderToken ∧ (∀ t, ¬ g.Vouches r t) ∧
      gate.check g now r = some (.error e, gate)) ∨
    ∃ topic, r.checkHeaders = .ok topic ∧ g.checkDevice topic r = .ok () ∧
      gate.check g now r = gate.checkSender g now topic r := by
  have hspares : Spares (do
      let topic ← r.checkHeaders
      g.checkDevice topic r
      return topic) :=
    r.checkHeaders_spares.bind fun topic => (g.checkDevice_spares topic r).bind fun _ =>
      spares_ok topic
  unfold check
  split
  · rename_i e he
    refine .inl ⟨e, hspares e he, ?_, rfl⟩
    rintro t ⟨⟨topic, hheaders, hdevice⟩, -⟩
    rw [hheaders] at he
    simp [bind, Except.bind, hdevice, pure, Except.pure] at he
  · rename_i topic hok
    obtain ⟨topic', hheaders, hrest⟩ := bind_eq_ok_iff.mp hok
    obtain ⟨u, hdevice, hsame⟩ := bind_eq_ok_iff.mp hrest
    obtain rfl := Except.ok.inj hsame
    exact .inr ⟨topic', hheaders, hdevice, rfl⟩

theorem checkUse_fresh_spares (grants : List Grant) (topic : String) (r : GatewayRequest)
    (t : Token) : (checkUse grants topic r t false).Spares :=
  (spares_ok ()).bind fun _ => (spares_require _ (by decide)).bind fun _ => r.checkPayload_spares

theorem checkUse_eq_ok_iff {grants : List Grant} {topic : String} {t : Token} {expired : Bool}
    {u : Unit} :
    checkUse grants topic r t expired = .ok u ↔
      expired = false ∧ topic ∈ Authentication.topicsOf grants t.header.keyId ∧
        r.checkPayload = .ok () := by
  simp [checkUse, bind_eq_ok_iff, require_eq_ok_iff]

theorem check_certificate {base : String} (hauth : g.authentication = .certificate base) :
    gate.check g now r = some (g.checkCertified base r, gate) := by
  unfold check checkSender Registry.checkCertified
  rw [hauth]
  cases r.checkHeaders with
  | error e => rfl
  | ok topic =>
    cases hdevice : g.checkDevice topic r with
    | error e => simp [bind, Except.bind, hdevice]
    | ok u => simp [bind, Except.bind, hdevice, pure, Except.pure]

theorem checkSender_foreign {grants : List Grant} {t : Token}
    (hauth : g.authentication = .token grants)
    (htoken : Authentication.checkToken grants r = .ok t)
    (hteam : ¬ gate.IsFreeFor t.claims.teamId) (now : Instant) (topic : String) :
    gate.checkSender g now topic r = some (.error ⟨.invalidProviderToken, none⟩, gate) := by
  have hne : gate.team.getD t.claims.teamId ≠ t.claims.teamId := hteam
  simp only [checkSender, hauth, htoken, pin, Option.some.injEq, if_neg hne]
  obtain ⟨team, wedged⟩ := gate
  cases team with
  | none => exact absurd rfl hteam
  | some team => rfl

theorem checkSender_free {grants : List Grant} {t : Token}
    (hauth : g.authentication = .token grants)
    (htoken : Authentication.checkToken grants r = .ok t)
    (hteam : gate.IsFreeFor t.claims.teamId) (topic : String) :
    gate.checkSender g now topic r = (isExpired? now t).map fun expired =>
      (checkUse grants topic r t expired, ⟨some t.claims.teamId, gate.wedged⟩) := by
  unfold IsFreeFor at hteam
  simp only [checkSender, hauth, htoken, pin, hteam, if_true]

theorem check_of_addressed {topic : String} (hheaders : r.checkHeaders = .ok topic)
    (hdevice : g.checkDevice topic r = .ok ()) :
    gate.check g now r = gate.checkSender g now topic r := by
  simp only [check, hheaders, hdevice, bind, Except.bind, pure, Except.pure]

/-- A genuine token of a team that the connection can belong to claims the connection. What is said
goes by the age of the token, and nothing is said when that cannot be told. -/
theorem receive_of_free {grants : List Grant} {topic : String} {t : Token}
    (hw : gate.wedged = false) (hcheck : gate.check g now r = gate.checkSender g now topic r)
    (hauth : g.authentication = .token grants)
    (htoken : Authentication.checkToken grants r = .ok t)
    (hteam : gate.IsFreeFor t.claims.teamId) :
    gate.receive g now r = (isExpired? now t).map fun expired =>
      ((checkUse grants topic r t expired).ruling, ⟨some t.claims.teamId, expired⟩) := by
  rw [checkSender_free hauth htoken hteam] at hcheck
  cases hage : isExpired? now t with
  | none =>
    rw [receive, if_neg (by simp [hw]), hcheck, hage]
    rfl
  | some expired =>
    rw [hage, Option.map_some] at hcheck
    cases expired with
    | true =>
      rw [receive, if_neg (by simp [hw]), hcheck]
      rfl
    | false => exact receive_of_spares hw hcheck (checkUse_fresh_spares grants topic r t)

theorem receive_of_vouches {t : Token} (hw : gate.wedged = false) (ht : g.Vouches r t)
    (hteam : gate.IsFreeFor t.claims.teamId) (now : Instant) :
    ∃ grants topic, g.authentication = .token grants ∧
      r.header? Protocol.topicHeader = some topic ∧
      gate.receive g now r = (isExpired? now t).map fun expired =>
        ((checkUse grants topic r t expired).ruling, ⟨some t.claims.teamId, expired⟩) := by
  obtain ⟨topic, grants, hheaders, hdevice, hauth, htoken⟩ := Registry.vouches_iff.mp ht
  exact ⟨grants, topic, hauth, GatewayRequest.header?_of_checkHeaders hheaders,
    receive_of_free hw (check_of_addressed hheaders hdevice) hauth htoken hteam⟩

theorem judges_of_free {grants : List Grant} {topic : String} {t : Token}
    (hw : gate.wedged = false) (hcheck : gate.check g now r = gate.checkSender g now topic r)
    (hauth : g.authentication = .token grants)
    (htoken : Authentication.checkToken grants r = .ok t) (ht : g.Vouches r t)
    (hteam : gate.IsFreeFor t.claims.teamId) {expired : Bool}
    (hage : isExpired? now t = some expired) :
    ∃ x gate', gate.receive g now r = some (x, gate') ∧ Judges g gate now r x gate' := by
  have hreceive := receive_of_free hw hcheck hauth htoken hteam
  rw [hage, Option.map_some] at hreceive
  refine ⟨_, _, hreceive, ?_⟩
  cases expired with
  | true => exact .stale hw ht hteam hage
  | false => exact .vouched hw ht hteam hage (checkUse_fresh_spares grants topic r t).ruling

/-- Every request is judged, unless the life of a genuine token goes past the last instant. -/
theorem judges_or_none (g : Registry) (gate : Gatekeeper) (now : Instant) (r : GatewayRequest) :
    (∃ x gate', gate.receive g now r = some (x, gate') ∧ Judges g gate now r x gate') ∨
    gate.receive g now r = none ∧ ∃ t, g.Vouches r t ∧ gate.IsFreeFor t.claims.teamId ∧
      isExpired? now t = none := by
  cases hw : gate.wedged with
  | true => exact .inl ⟨_, _, receive_of_wedged hw, .wedged hw⟩
  | false =>
    cases hauth : g.authentication with
    | certificate base =>
      have hspares := g.checkCertified_spares base r
      refine .inl ⟨_, _, receive_same hw (check_certificate hauth) hspares,
        .unvouched hw (Registry.not_vouches_of_certificate hauth r) hspares.ruling ?_⟩
      intro grants htoken
      cases hauth.symm.trans htoken
    | token grants =>
      -- The order of the checks: address, token, team, age.
      rcases check_cases g gate now r with
        ⟨e, hreason, hnone, hcheck⟩ | ⟨topic, hheaders, hdevice, hcheck⟩
      · have hspares := spares_error (α := Unit) hreason
        exact .inl ⟨_, _, receive_same hw hcheck hspares,
          .unvouched hw hnone hspares.ruling fun _ _ => Ruling.noConfusion⟩
      cases htoken : Authentication.checkToken grants r with
      | error e =>
        have hsender : gate.checkSender g now topic r = some (.error e, gate) := by
          simp only [checkSender, hauth, htoken]
        have hspares := spares_error (α := Unit)
          (Authentication.checkToken_spares grants r e htoken)
        have hnone := Registry.not_vouches_of_error hauth htoken
        exact .inl ⟨_, _, receive_same hw (hcheck.trans hsender) hspares,
          .unvouched hw hnone hspares.ruling fun _ _ => Ruling.noConfusion⟩
      | ok t =>
        have ht : g.Vouches r t :=
          Registry.vouches_iff.mpr ⟨topic, grants, hheaders, hdevice, hauth, htoken⟩
        by_cases hteam : gate.IsFreeFor t.claims.teamId
        · cases hage : isExpired? now t with
          | some expired => exact .inl (judges_of_free hw hcheck hauth htoken ht hteam hage)
          | none =>
            refine .inr ⟨?_, t, ht, hteam, hage⟩
            rw [receive_of_free hw hcheck hauth htoken hteam, hage, Option.map_none]
        · have hsender := checkSender_foreign hauth htoken hteam now topic
          exact .inl ⟨_, _, receive_same hw (hcheck.trans hsender) (spares_error (by decide)),
            .foreign hw ht hteam⟩

theorem judges_of_receive (h : gate.receive g now r = some (x, gate')) :
    Judges g gate now r x gate' := by
  rcases judges_or_none g gate now r with ⟨x₀, gate₀, hsome, hjudges⟩ | ⟨hnone, -⟩
  · obtain ⟨rfl, rfl⟩ := Prod.mk.inj (Option.some.inj (hsome.symm.trans h))
    exact hjudges
  · cases hnone.symm.trans h

theorem exists_receive (gate : Gatekeeper) (now : Instant)
    (h : ∀ t, g.Vouches r t → (t.issuedAt.addSeconds? tokenLifetime).isSome) :
    ∃ x gate', gate.receive g now r = some (x, gate') := by
  rcases judges_or_none g gate now r with ⟨x, gate', hsome, -⟩ | ⟨-, t, ht, -, hage⟩
  · exact ⟨x, gate', hsome⟩
  · have hlast := h t ht
    rw [Option.map_eq_none_iff.mp hage] at hlast
    cases hlast

theorem receive_of_stranger (gate : Gatekeeper) (now : Instant)
    (h : ∀ t, g.Vouches r t → ¬ gate.IsFreeFor t.claims.teamId) :
    ∃ x, gate.receive g now r = some (x, gate) := by
  rcases judges_or_none g gate now r with ⟨x, gate', hsome, hjudges⟩ | ⟨-, t, ht, hteam, -⟩
  · cases hjudges with
    | wedged | unvouched | foreign => exact ⟨_, hsome⟩
    | stale _ ht hteam | vouched _ ht hteam => exact absurd hteam (h _ ht)
  · exact absurd hteam (h t ht)

namespace Judges

theorem team_of_free {t : Token} {team : String} (hw : gate.wedged = false) (ht : g.Vouches r t)
    (hteam : gate.IsFreeFor t.claims.teamId) :
    some t.claims.teamId = some team ↔ gate.team = some team ∨
      gate.wedged = false ∧ gate.team = none ∧ ∃ t, g.Vouches r t ∧ t.claims.teamId = team := by
  unfold IsFreeFor at hteam
  cases hold : gate.team with
  | some old =>
    rw [hold, Option.getD_some] at hteam
    simp [hteam]
  | none =>
    constructor
    · intro h
      exact .inr ⟨hw, rfl, t, ht, Option.some.inj h⟩
    · rintro (h | ⟨-, -, u, hu, rfl⟩)
      · cases h
      · rw [ht.unique hu]

theorem team_iff (h : Judges g gate now r x gate') {team : String} :
    gate'.team = some team ↔ gate.team = some team ∨
      gate.wedged = false ∧ gate.team = none ∧ ∃ t, g.Vouches r t ∧ t.claims.teamId = team := by
  cases h with
  | wedged h => simp [h]
  | unvouched _ hnone => simp [hnone]
  | foreign _ _ hteam => simp [ne_none_of_not_free hteam]
  | stale h ht hteam | vouched h ht hteam => exact team_of_free h ht hteam

theorem team_of_team (h : Judges g gate now r x gate') {team : String}
    (hteam : gate.team = some team) : gate'.team = some team :=
  h.team_iff.mpr (.inl hteam)

theorem none_iff (h : Judges g gate now r x gate')
    (hopen : gate.team = none → gate.wedged = false) :
    gate'.team = none ↔ gate.team = none ∧ ¬ x.IsExpired ∧ ∀ t, ¬ g.Vouches r t := by
  cases h with
  | wedged hw =>
    have hsome : gate.team ≠ none := by
      intro hnone
      cases (hopen hnone).symm.trans hw
    simp [hsome]
  | unvouched _ hnone hx => simp [hnone, hx]
  | foreign _ _ hteam => simp [ne_none_of_not_free hteam]
  | stale _ ht | vouched _ ht =>
    constructor
    · intro h
      cases h
    · rintro ⟨-, -, hnone⟩
      exact absurd ht (hnone _)

theorem wedged_iff (h : Judges g gate now r x gate') :
    gate'.wedged = true ↔ gate.wedged = true ∨ x.IsExpired := by
  cases h with
  | wedged h | unvouched h _ hx | vouched h _ _ _ hx => simp [*]
  | foreign h => simp [h, Ruling.IsExpired]
  | stale => simp [Ruling.IsExpired]

theorem expired_of_wedged (h : Judges g gate now r x gate') (hwedged : gate.wedged = true) :
    x.IsExpired := by
  cases h with
  | wedged => exact ⟨none, rfl⟩
  | unvouched hw | foreign hw | stale hw | vouched hw => cases hw.symm.trans hwedged

/-- Where tokens are asked for, nothing is accepted but from the team of the connection. -/
theorem team_of_accepted (h : Judges g gate now r .accepted gate') {grants : List Grant}
    (hauth : g.authentication = .token grants) :
    ∃ t, g.Vouches r t ∧ gate'.team = some t.claims.teamId := by
  cases h with
  | unvouched _ _ _ haccepted => exact absurd rfl (haccepted grants hauth)
  | vouched _ ht => exact ⟨_, ht, rfl⟩

end Judges

end Gatekeeper

end PushDelivery
