import PushDelivery.Proofs.AuthorizationReading
import PushDelivery.Proofs.ShownTokens
import PushDelivery.Proofs.TokenAge

namespace PushDelivery

open Text

namespace GatewayRequest

variable {r : GatewayRequest}

/-- Whether a request has a header that can be read and of which something holds. -/
def HasHeader (r : GatewayRequest) (name : String) (p : String → Prop) : Prop :=
  ∃ v, r.header? name = some v ∧ p v

/-- Whether a request is for a device of which something holds. -/
def HasDevice (r : GatewayRequest) (p : String → Prop) : Prop :=
  ∃ device, r.path = Protocol.devicePath device ∧ p device

theorem hasHeader_iff {name v : String} (h : r.header? name = some v) {p : String → Prop} :
    r.HasHeader name p ↔ p v := by
  simp [HasHeader, h]

theorem all_header?_eq_false_iff {name : String} {p : String → Bool} :
    (r.header? name).all p = false ↔ r.HasHeader name fun v => p v = false := by
  cases h : r.header? name <;> simp [HasHeader, h]

theorem device?_eq_none_iff : r.device? = none ↔ ∀ device, r.path ≠ Protocol.devicePath device := by
  simp only [Option.eq_none_iff_forall_ne_some, ne_eq, device?_eq_some_iff]

theorem hasDevice_iff {device : String} (h : r.device? = some device) {p : String → Prop} :
    r.HasDevice p ↔ p device := by
  simp [HasDevice, ← device?_eq_some_iff, h]

/-- Whether a text is the number of a priority, which may have zeros and a plus sign in front. -/
def IsPriority (v : String) : Prop :=
  ∃ digits : List Char, (v.toList = digits ∨ v.toList = '+' :: digits) ∧ digits ≠ [] ∧
    (∀ c ∈ digits, c.isDigit = true) ∧
    (Decimal.ofDigits digits = 5 ∨ Decimal.ofDigits digits = 10)

theorem readOctet?_eq_some_iff {cs : List Char} {n : Nat} :
    readOctet? cs = some n ↔ ∃ digits, (cs = digits ∨ cs = '+' :: digits) ∧ digits ≠ [] ∧
      (∀ c ∈ digits, c.isDigit = true) ∧ Decimal.ofDigits digits = n ∧ n ≤ 255 := by
  have hread (digits : List Char) :
      (if digits ≠ [] ∧ digits.all Char.isDigit ∧ Decimal.ofDigits digits ≤ 255 then
        some (Decimal.ofDigits digits) else none) = some n ↔ digits ≠ [] ∧
      (∀ c ∈ digits, c.isDigit = true) ∧ Decimal.ofDigits digits = n ∧ n ≤ 255 := by
    rw [Option.ite_none_right_eq_some, Option.some.injEq, List.all_eq_true]
    constructor
    · rintro ⟨⟨hne, hall, hle⟩, rfl⟩
      exact ⟨hne, hall, rfl, hle⟩
    · rintro ⟨hne, hall, rfl, hle⟩
      exact ⟨⟨hne, hall, hle⟩, rfl⟩
  rw [readOctet?, hread]
  constructor
  · intro h
    refine ⟨_, ?_, h⟩
    cases cs with
    | nil => exact .inl rfl
    | cons c rest =>
      by_cases hc : c = '+'
      · subst hc
        exact .inr rfl
      · exact .inl (by simp [hc])
  · rintro ⟨digits, hcs, hne, hall, hrest⟩
    have hdigits : (if cs.head? = some '+' then cs.drop 1 else cs) = digits := by
      rcases hcs with rfl | rfl
      · have hplus : cs.head? ≠ some '+' := by
          intro hhead
          cases hall '+' (List.mem_of_mem_head? hhead)
        rw [if_neg hplus]
      · rfl
    rw [hdigits]
    exact ⟨hne, hall, hrest⟩

theorem readPriority?_eq_none_iff {v : String} : readPriority? v = none ↔ ¬ IsPriority v := by
  have hcode (n : Nat) : (∃ p, Priority.ofCode? n = some p) ↔ n = 5 ∨ n = 10 := by
    by_cases hfive : n = 5 <;> by_cases hten : n = 10 <;> simp [Priority.ofCode?, hfive, hten]
  rw [Option.eq_none_iff_forall_ne_some, IsPriority]
  simp only [readPriority?, ne_eq, Option.bind_eq_some_iff, readOctet?_eq_some_iff, ← not_exists]
  refine not_congr ⟨?_, ?_⟩
  · rintro ⟨p, n, ⟨digits, hv, hne, hall, rfl, -⟩, hp⟩
    exact ⟨digits, hv, hne, hall, (hcode _).mp ⟨p, hp⟩⟩
  · rintro ⟨digits, hv, hne, hall, hn⟩
    obtain ⟨p, hp⟩ := (hcode _).mpr hn
    exact ⟨p, _, ⟨digits, hv, hne, hall, rfl, by omega⟩, hp⟩

end GatewayRequest

/-- Whether the time at which a token says it was issued is more than an hour past. -/
def Token.IsOld (t : Token) (now : Instant) : Prop :=
  t.issuedAt.seconds + 3600 < now.seconds ∨
    t.issuedAt.seconds + 3600 = now.seconds ∧ t.issuedAt.nanos < now.nanos

instance (t : Token) (now : Instant) : Decidable (t.IsOld now) :=
  inferInstanceAs (Decidable (_ ∨ _))

theorem Gatekeeper.isExpired?_eq_decide_isOld {t : Token} {now : Instant}
    (h : (t.issuedAt.addSeconds? tokenLifetime).isSome) :
    isExpired? now t = some (decide (t.IsOld now)) := by
  obtain ⟨last, hlast⟩ := Option.isSome_iff_exists.mp h
  have hlt : last.lt now = decide (t.IsOld now) := by
    rw [Instant.addSeconds?, Option.ite_none_right_eq_some] at hlast
    obtain rfl := Option.some.inj hlast.2
    rw [Bool.eq_iff_iff, decide_eq_true_iff, Instant.lt_iff]
    exact Iff.rfl
  rw [isExpired?, hlast, Option.map_some, hlt]

theorem Token.isOld_iff_isStale {t : Token} {now : Instant} (h : t.IsDatable now) :
    t.IsOld now ↔ t.IsStale now := by
  have hage := Gatekeeper.isExpired?_of_isDatable h
  have hspan : (t.issuedAt.addSeconds? Gatekeeper.tokenLifetime).isSome := by
    rw [Gatekeeper.isExpired?, Option.map_eq_some_iff] at hage
    obtain ⟨last, hlast, -⟩ := hage
    rw [hlast, Option.isSome_some]
  rw [Gatekeeper.isExpired?_eq_decide_isOld hspan] at hage
  exact decide_eq_decide.mp (Option.some.inj hage)

/-- Whether something holds of the token of a request, where tokens are asked for. -/
def Registry.HasToken (g : Registry) (r : GatewayRequest) (p : List Grant → Token → Prop) : Prop :=
  ∃ grants t, g.authentication = .token grants ∧ r.Bears t ∧ p grants t

theorem Registry.hasToken_iff {g : Registry} {r : GatewayRequest} {grants : List Grant} {t : Token}
    (hauth : g.authentication = .token grants) (ht : r.Bears t) {p : List Grant → Token → Prop} :
    g.HasToken r p ↔ p grants t := by
  constructor
  · rintro ⟨grants', u, hauth', hu, hp⟩
    obtain rfl := Authentication.token.inj (hauth'.symm.trans hauth)
    obtain rfl := hu.unique ht
    exact hp
  · intro hp
    exact ⟨grants, t, hauth, ht, hp⟩

/-- What can be wrong with a request. -/
inductive Fault where
  /-- An expired token was seen on the connection. -/
  | wedged
  | badId
  | badMethod
  | noTopic
  | longCollapseId
  | badPriority
  | badPath
  | noDevice
  | badDevice
  | expiredDevice
  | unknownDevice
  /-- The certificate does not stand for the topic. -/
  | foreignTopic
  | noToken
  | badToken
  | unknownKey
  /-- The signature or the team is not the key's. -/
  | notGenuine
  /-- The connection belongs to another team. -/
  | otherTeam
  | oldToken
  | ungrantedTopic
  | noPayload
  | longPayload
deriving DecidableEq, Repr

namespace Fault

def order : List Fault :=
  [wedged, badId, badMethod, noTopic, longCollapseId, badPriority, badPath, noDevice, badDevice,
    expiredDevice, unknownDevice, foreignTopic, noToken, badToken, unknownKey, notGenuine,
    otherTeam, oldToken, ungrantedTopic, noPayload, longPayload]

theorem mem_order (f : Fault) : f ∈ order := by
  cases f <;> decide

def reason : Fault → Rejection
  | wedged | oldToken => .expiredProviderToken
  | badId => .badMessageId
  | badMethod => .methodNotAllowed
  | noTopic => .missingTopic
  | longCollapseId => .badCollapseId
  | badPriority => .badPriority
  | badPath => .badPath
  | noDevice => .missingDeviceToken
  | badDevice => .badDeviceToken
  | expiredDevice => .unregistered
  | unknownDevice => .deviceTokenNotForTopic
  | foreignTopic => .badTopic
  | noToken => .missingProviderToken
  | badToken | unknownKey | notGenuine | otherTeam | ungrantedTopic => .invalidProviderToken
  | noPayload => .payloadEmpty
  | longPayload => .payloadTooLarge

def since? (g : Registry) (r : GatewayRequest) : Fault → Option Instant
  | expiredDevice => r.device?.bind g.expiredSince?
  | _ => none

/-- Whether there is a fault, whatever else is wrong. -/
def Occurs (g : Registry) (gate : Gatekeeper) (now : Instant) (r : GatewayRequest) : Fault → Prop
  | wedged => gate.wedged = true
  | badId => r.HasHeader Protocol.apnsIdHeader fun v => Uuid.ofText? v = none
  | badMethod => r.method ≠ "POST"
  | noTopic => r.header? Protocol.topicHeader = none
  | longCollapseId => r.HasHeader Protocol.collapseIdHeader fun v => 64 < v.utf8ByteSize
  | badPriority => r.HasHeader Protocol.priorityHeader fun v => ¬ GatewayRequest.IsPriority v
  | badPath => ∀ device, r.path ≠ Protocol.devicePath device
  | noDevice => r.HasDevice fun device => device = ""
  | badDevice => r.HasDevice fun device =>
      ¬ (device.length = 64 ∧ ∀ c ∈ device.toList, Hex.isDigit c = true)
  | expiredDevice => r.HasDevice fun device => g.expiredSince? device ≠ none
  | unknownDevice => r.HasDevice fun device =>
      r.HasHeader Protocol.topicHeader fun topic => (topic, device) ∉ g.devices
  | foreignTopic => ∃ base, g.authentication = .certificate base ∧
      r.HasHeader Protocol.topicHeader fun topic => topic ∉ Authentication.certificateTopics base
  | noToken => ∃ grants, g.authentication = .token grants ∧ ∀ text, ¬ r.Offers text
  | badToken => ∃ grants, g.authentication = .token grants ∧
      ∃ text, r.Offers text ∧ ∀ t, Token.parse text ≠ .ok t
  | unknownKey => g.HasToken r fun grants t => Authentication.key? grants t.header.keyId = none
  | notGenuine => g.HasToken r fun grants t =>
      ∃ key, Authentication.key? grants t.header.keyId = some key ∧ t.verify key = false
  | otherTeam => g.HasToken r fun _ t => ∃ team, gate.team = some team ∧ t.claims.teamId ≠ team
  | oldToken => g.HasToken r fun _ t => t.IsOld now
  | ungrantedTopic => g.HasToken r fun grants t =>
      r.HasHeader Protocol.topicHeader fun topic =>
        topic ∉ Authentication.topicsOf grants t.header.keyId
  | noPayload => r.payload = []
  | longPayload => 4096 < r.payload.length

/-- Whether a fault is there and none before it. -/
def IsFirst (g : Registry) (gate : Gatekeeper) (now : Instant) (r : GatewayRequest) (f : Fault) :
    Prop :=
  ∃ before after, order = before ++ f :: after ∧ f.Occurs g gate now r ∧
    ∀ e ∈ before, ¬ e.Occurs g gate now r

theorem IsFirst.occurs {g : Registry} {gate : Gatekeeper} {now : Instant} {r : GatewayRequest}
    {f : Fault} (h : f.IsFirst g gate now r) : f.Occurs g gate now r := by
  obtain ⟨-, -, -, hf, -⟩ := h
  exact hf

theorem IsFirst.unique {g : Registry} {gate : Gatekeeper} {now : Instant} {r : GatewayRequest}
    {f f' : Fault} (h : f.IsFirst g gate now r) (h' : f'.IsFirst g gate now r) : f = f' := by
  obtain ⟨before, after, horder, hf, hbefore⟩ := h
  obtain ⟨before', after', horder', hf', hbefore'⟩ := h'
  rcases List.append_eq_append_iff.mp (horder.symm.trans horder') with
    ⟨between, rfl, hrest⟩ | ⟨between, rfl, hrest⟩
  · cases between with
    | nil => exact (List.cons.inj hrest).1
    | cons e between =>
      obtain ⟨rfl, -⟩ := List.cons.inj hrest
      exact absurd hf (hbefore' f (by simp))
  · cases between with
    | nil => exact (List.cons.inj hrest).1.symm
    | cons e between =>
      obtain ⟨rfl, -⟩ := List.cons.inj hrest
      exact absurd hf' (hbefore f' (by simp))

end Fault

variable {g : Registry} {gate : Gatekeeper} {now : Instant} {r : GatewayRequest}

namespace Checked

variable {α β : Type} {fs hs : List Fault}

/-- How a check looks for some faults, one after another: it goes well if none is there, and else it
fails for the first. -/
inductive Reports (g : Registry) (gate : Gatekeeper) (now : Instant) (r : GatewayRequest) :
    List Fault → Checked α → Prop where
  | none {fs : List Fault} {a : α} (h : ∀ f ∈ fs, ¬ f.Occurs g gate now r) :
      Reports g gate now r fs (.ok a)
  | first {before after : List Fault} {f : Fault}
      (hbefore : ∀ e ∈ before, ¬ e.Occurs g gate now r) (hf : f.Occurs g gate now r) :
      Reports g gate now r (before ++ f :: after) (.error ⟨f.reason, f.since? g r⟩)

theorem reports_ok (a : α) : Reports g gate now r [] (.ok a) :=
  .none fun _ hf => absurd hf List.not_mem_nil

theorem reports_fault {f : Fault} {since : Option Instant} (hf : f.Occurs g gate now r)
    (hsince : f.since? g r = since) (after : List Fault) :
    Reports g gate now r (f :: after) (.error ⟨f.reason, since⟩ : Checked α) := by
  subst hsince
  exact .first (List.forall_mem_nil _) hf

theorem reports_spared {f : Fault} (hf : ¬ f.Occurs g gate now r) (a : α) :
    Reports g gate now r [f] (.ok a) :=
  .none (List.forall_mem_singleton.mpr hf)

theorem reports_require {holds : Bool} (f : Fault) (h : holds = false ↔ f.Occurs g gate now r)
    (hsince : f.since? g r = Option.none) :
    Reports g gate now r [f] (require holds f.reason) := by
  cases holds with
  | true => exact reports_spared (mt h.mpr Bool.noConfusion) ()
  | false => exact reports_fault (h.mp rfl) hsince []

theorem reports_found {value : Option α} (f : Fault)
    (h : value = Option.none ↔ f.Occurs g gate now r) (hsince : f.since? g r = Option.none) :
    Reports g gate now r [f] (found value f.reason) := by
  cases value with
  | some a => exact reports_spared (mt h.mpr (Option.some_ne_none a)) a
  | none => exact reports_fault (h.mp rfl) hsince []

theorem Reports.not_occurs {a : α} (h : Reports g gate now r fs (.ok a)) :
    ∀ f ∈ fs, ¬ f.Occurs g gate now r := by
  cases h with
  | none h => exact h

theorem Reports.skip {c : Checked α} (hc : Reports g gate now r hs c)
    (hfs : ∀ f ∈ fs, ¬ f.Occurs g gate now r) : Reports g gate now r (fs ++ hs) c := by
  cases hc with
  | none h => exact .none (List.forall_mem_append.mpr ⟨hfs, h⟩)
  | first hbefore hf =>
    rw [← List.append_assoc]
    exact .first (List.forall_mem_append.mpr ⟨hfs, hbefore⟩) hf

theorem Reports.bind {c : Checked α} (hc : Reports g gate now r fs c) {k : α → Checked β}
    (hk : ∀ a, c = .ok a → Reports g gate now r hs (k a)) :
    Reports g gate now r (fs ++ hs) (c >>= k) := by
  cases hc with
  | none h => exact (hk _ rfl).skip h
  | first hbefore hf =>
    rw [List.append_assoc, List.cons_append]
    exact .first hbefore hf

end Checked

open Checked

theorem GatewayRequest.checkHeaders_reports (g : Registry) (gate : Gatekeeper) (now : Instant)
    (r : GatewayRequest) :
    Reports g gate now r [.badId, .badMethod, .noTopic, .longCollapseId, .badPriority]
      r.checkHeaders := by
  have hid : r.hasFairId = false ↔ Fault.badId.Occurs g gate now r := by
    simp [hasFairId, all_header?_eq_false_iff, Fault.Occurs]
  have hmethod : (r.method == "POST") = false ↔ Fault.badMethod.Occurs g gate now r := by
    simp [Fault.Occurs]
  have hcollapse : r.hasFairCollapseId = false ↔ Fault.longCollapseId.Occurs g gate now r := by
    simp only [hasFairCollapseId, all_header?_eq_false_iff, decide_eq_false_iff_not, Nat.not_le]
    exact Iff.rfl
  have hpriority : r.hasFairPriority = false ↔ Fault.badPriority.Occurs g gate now r := by
    simp [hasFairPriority, all_header?_eq_false_iff, Fault.Occurs, readPriority?_eq_none_iff]
  exact (reports_require .badId hid rfl).bind fun _ _ =>
    (reports_require .badMethod hmethod rfl).bind fun _ _ =>
      (reports_found .noTopic Iff.rfl rfl).bind fun topic _ =>
        (reports_require .longCollapseId hcollapse rfl).bind fun _ _ =>
          (reports_require .badPriority hpriority rfl).bind fun _ _ => reports_ok topic

theorem GatewayRequest.checkPayload_reports (g : Registry) (gate : Gatekeeper) (now : Instant)
    (r : GatewayRequest) : Reports g gate now r [.noPayload, .longPayload] r.checkPayload := by
  have hempty : decide (r.payload ≠ []) = false ↔ Fault.noPayload.Occurs g gate now r := by
    simp [Fault.Occurs]
  have hlong : decide (r.payload.length ≤ Protocol.maxPayloadSize) = false ↔
      Fault.longPayload.Occurs g gate now r := decide_eq_false_iff_not.trans Nat.not_le
  exact (reports_require .noPayload hempty rfl).bind fun _ _ =>
    reports_require .longPayload hlong rfl

theorem Registry.checkDevice_reports (gate : Gatekeeper) (now : Instant) {topic : String}
    (htopic : r.header? Protocol.topicHeader = some topic) :
    Reports g gate now r [.badPath, .noDevice, .badDevice, .expiredDevice, .unknownDevice]
      (g.checkDevice topic r) := by
  refine (reports_found .badPath GatewayRequest.device?_eq_none_iff rfl).bind
    fun device hdevice => ?_
  have hnamed : r.device? = some device := found_eq_ok_iff.mp hdevice
  have hempty : decide (device ≠ "") = false ↔ Fault.noDevice.Occurs g gate now r := by
    simp [Fault.Occurs, GatewayRequest.hasDevice_iff hnamed]
  have hname : GatewayRequest.isDeviceName device = false ↔
      Fault.badDevice.Occurs g gate now r := by
    simp [Fault.Occurs, GatewayRequest.hasDevice_iff hnamed, GatewayRequest.isDeviceName]
  have hactive : Fault.expiredDevice.Occurs g gate now r ↔ g.expiredSince? device ≠ none :=
    GatewayRequest.hasDevice_iff hnamed
  refine (reports_require .noDevice hempty rfl).bind fun _ _ =>
    (reports_require .badDevice hname rfl).bind fun _ _ => ?_
  cases hsince : g.expiredSince? device with
  | some since =>
    have hrefusal : Fault.since? g r .expiredDevice = some since := by
      rw [Fault.since?, hnamed, Option.bind_some, hsince]
    exact reports_fault (hactive.mpr (by simp [hsince])) hrefusal _
  | none =>
    have hregistered : g.isRegistered topic device = false ↔
        Fault.unknownDevice.Occurs g gate now r := by
      simp [Fault.Occurs, GatewayRequest.hasDevice_iff hnamed, GatewayRequest.hasHeader_iff htopic,
        Registry.isRegistered]
    exact (reports_require .unknownDevice hregistered rfl).skip
      (List.forall_mem_singleton.mpr (by simp [hactive, hsince]))

/-- All that is checked where a token is asked for, on a connection that is not wedged. -/
def Gatekeeper.checkBearer (gate : Gatekeeper) (g : Registry) (grants : List Grant) (now : Instant)
    (r : GatewayRequest) : Checked Unit := do
  let topic ← r.checkHeaders
  g.checkDevice topic r
  let t ← Authentication.checkToken grants r
  Checked.require (decide (gate.IsFreeFor t.claims.teamId)) .invalidProviderToken
  checkUse grants topic r t (decide (t.IsOld now))

theorem Authentication.checkToken_reports (gate : Gatekeeper) (now : Instant) {grants : List Grant}
    (hauth : g.authentication = .token grants) :
    Reports g gate now r [.noToken, .badToken, .unknownKey, .notGenuine] (checkToken grants r) := by
  have hmissing : r.tokenText? = none ↔ Fault.noToken.Occurs g gate now r := by
    simp [Fault.Occurs, hauth, Option.eq_none_iff_forall_ne_some,
      GatewayRequest.tokenText?_eq_some_iff]
  refine (reports_found .noToken hmissing rfl).bind fun text htext => ?_
  have hoffers : r.Offers text :=
    GatewayRequest.tokenText?_eq_some_iff.mp (found_eq_ok_iff.mp htext)
  have hparse : (Token.parse text).toOption = none ↔ Fault.badToken.Occurs g gate now r := by
    simp only [Fault.Occurs, hauth, Option.eq_none_iff_forall_ne_some, ne_eq, toOption_eq_some_iff]
    constructor
    · intro hnone
      exact ⟨grants, rfl, text, hoffers, hnone⟩
    · rintro ⟨-, -, text', htext', hnone⟩
      rwa [hoffers.unique htext']
  refine (reports_found .badToken hparse rfl).bind fun t ht => ?_
  have hbears : r.Bears t := ⟨text, hoffers, toOption_eq_some_iff.mp (found_eq_ok_iff.mp ht)⟩
  have hunknown : key? grants t.header.keyId = none ↔ Fault.unknownKey.Occurs g gate now r := by
    simp [Fault.Occurs, Registry.hasToken_iff hauth hbears]
  refine (reports_found .unknownKey hunknown rfl).bind fun key hkey => ?_
  have hfalse : t.verify key = false ↔ Fault.notGenuine.Occurs g gate now r := by
    simp [Fault.Occurs, Registry.hasToken_iff hauth hbears, found_eq_ok_iff.mp hkey]
  exact (reports_require .notGenuine hfalse rfl).bind fun _ _ => reports_ok t

theorem Gatekeeper.checkUse_reports (gate : Gatekeeper) (now : Instant) {grants : List Grant}
    {topic : String} {t : Token} (hauth : g.authentication = .token grants) (ht : r.Bears t)
    (htopic : r.header? Protocol.topicHeader = some topic) :
    Reports g gate now r [.oldToken, .ungrantedTopic, .noPayload, .longPayload]
      (checkUse grants topic r t (decide (t.IsOld now))) := by
  have hold : (!decide (t.IsOld now)) = false ↔ Fault.oldToken.Occurs g gate now r := by
    simp [Fault.Occurs, Registry.hasToken_iff hauth ht]
  have hungranted : (Authentication.topicsOf grants t.header.keyId).contains topic = false ↔
      Fault.ungrantedTopic.Occurs g gate now r := by
    simp [Fault.Occurs, Registry.hasToken_iff hauth ht, GatewayRequest.hasHeader_iff htopic]
  exact (reports_require .oldToken hold rfl).bind fun _ _ =>
    (reports_require .ungrantedTopic hungranted rfl).bind fun _ _ =>
      r.checkPayload_reports g gate now

theorem Gatekeeper.checkBearer_reports (gate : Gatekeeper) (now : Instant) {grants : List Grant}
    (hw : gate.wedged = false) (hauth : g.authentication = .token grants) :
    Reports g gate now r Fault.order (gate.checkBearer g grants now r) := by
  have hopen : ∀ f ∈ [Fault.wedged], ¬ f.Occurs g gate now r :=
    List.forall_mem_singleton.mpr (by simp [Fault.Occurs, hw])
  have hcertificate : ∀ f ∈ [Fault.foreignTopic], ¬ f.Occurs g gate now r :=
    List.forall_mem_singleton.mpr (by simp [Fault.Occurs, hauth])
  refine Reports.skip ((r.checkHeaders_reports g gate now).bind fun topic hheaders => ?_) hopen
  have htopic := GatewayRequest.header?_of_checkHeaders hheaders
  refine (g.checkDevice_reports gate now htopic).bind fun _ _ => ?_
  refine Reports.skip ?_ hcertificate
  refine (Authentication.checkToken_reports gate now hauth).bind fun t ht => ?_
  obtain ⟨text, -, htext, hparse, -⟩ := Authentication.checkToken_eq_ok_iff.mp ht
  have hbears : r.Bears t := ⟨text, GatewayRequest.tokenText?_eq_some_iff.mp htext, hparse⟩
  have hteam : decide (gate.IsFreeFor t.claims.teamId) = false ↔
      Fault.otherTeam.Occurs g gate now r := by
    simp only [Fault.Occurs, Registry.hasToken_iff hauth hbears, ← not_free_iff,
      decide_eq_false_iff_not]
  exact (reports_require .otherTeam hteam rfl).bind fun _ _ =>
    checkUse_reports gate now hauth hbears htopic

theorem Registry.checkCertified_reports (now : Instant) {base : String} (hw : gate.wedged = false)
    (hauth : g.authentication = .certificate base) :
    Reports g gate now r Fault.order (g.checkCertified base r) := by
  have hopen : ∀ f ∈ [Fault.wedged], ¬ f.Occurs g gate now r :=
    List.forall_mem_singleton.mpr (by simp [Fault.Occurs, hw])
  have htokens : ∀ f ∈ [Fault.noToken, .badToken, .unknownKey, .notGenuine, .otherTeam, .oldToken,
      .ungrantedTopic], ¬ f.Occurs g gate now r := by
    simp [Fault.Occurs, Registry.HasToken, hauth]
  refine Reports.skip ((r.checkHeaders_reports g gate now).bind fun topic hheaders => ?_) hopen
  have htopic := GatewayRequest.header?_of_checkHeaders hheaders
  have hforeign : (Authentication.certificateTopics base).contains topic = false ↔
      Fault.foreignTopic.Occurs g gate now r := by
    simp [Fault.Occurs, hauth, GatewayRequest.hasHeader_iff htopic]
  exact (g.checkDevice_reports gate now htopic).bind fun _ _ =>
    (reports_require .foreignTopic hforeign rfl).bind fun _ _ =>
      (r.checkPayload_reports g gate now).skip htokens

theorem Registry.Vouches.not_occurs {t : Token} (h : g.Vouches r t) (hw : gate.wedged = false)
    (now : Instant) : ∀ f ∈ Fault.order.take 16, ¬ f.Occurs g gate now r := by
  obtain ⟨topic, grants, hheaders, hdevice, hauth, htoken⟩ := vouches_iff.mp h
  have hfirst := r.checkHeaders_reports g gate now
  have hsecond := g.checkDevice_reports gate now (GatewayRequest.header?_of_checkHeaders hheaders)
  have hthird := Authentication.checkToken_reports (r := r) gate now hauth
  rw [hheaders] at hfirst
  rw [hdevice] at hsecond
  rw [htoken] at hthird
  have hwedged : ¬ Fault.wedged.Occurs g gate now r := by simp [Fault.Occurs, hw]
  have hforeign : ¬ Fault.foreignTopic.Occurs g gate now r := by simp [Fault.Occurs, hauth]
  exact List.forall_mem_cons.mpr ⟨hwedged, List.forall_mem_append.mpr ⟨hfirst.not_occurs,
    List.forall_mem_append.mpr ⟨hsecond.not_occurs,
      List.forall_mem_cons.mpr ⟨hforeign, hthird.not_occurs⟩⟩⟩⟩

namespace Gatekeeper

theorem receive_of_check {c : Checked Unit} {next : Gatekeeper} (hw : gate.wedged = false)
    (hcheck : gate.check g now r = some (c, next)) :
    ∃ gate', gate.receive g now r = some (c.ruling, gate') := by
  rw [receive, if_neg (by simp [hw]), hcheck]
  exact ⟨_, rfl⟩

theorem check_bearer {grants : List Grant} (hauth : g.authentication = .token grants)
    (hspan : ∀ t, g.Vouches r t → (t.issuedAt.addSeconds? tokenLifetime).isSome) :
    ∃ next, gate.check g now r = some (gate.checkBearer g grants now r, next) := by
  unfold checkBearer
  cases hheaders : r.checkHeaders with
  | error e =>
    rw [check, hheaders]
    exact ⟨gate, rfl⟩
  | ok topic =>
    cases hdevice : g.checkDevice topic r with
    | error e =>
      rw [check, hheaders]
      simp [bind, Except.bind, hdevice]
    | ok u =>
      rw [check_of_addressed hheaders hdevice]
      simp only [bind, Except.bind, hdevice]
      cases htoken : Authentication.checkToken grants r with
      | error e => simp [checkSender, hauth, htoken]
      | ok t =>
        by_cases hteam : gate.IsFreeFor t.claims.teamId
        · have ht : g.Vouches r t :=
            Registry.vouches_iff.mpr ⟨topic, grants, hheaders, hdevice, hauth, htoken⟩
          rw [checkSender_free hauth htoken hteam, isExpired?_eq_decide_isOld (hspan t ht)]
          simp [Checked.require, hteam]
        · rw [checkSender_foreign hauth htoken hteam]
          simp [Checked.require, hteam]

/-- Every request is answered by a chain of checks that looks for all faults in order. -/
theorem receive_reports (g : Registry) (gate : Gatekeeper) (now : Instant) (r : GatewayRequest)
    (hspan : ∀ t, g.Vouches r t → (t.issuedAt.addSeconds? tokenLifetime).isSome) :
    ∃ c gate', gate.receive g now r = some (c.ruling, gate') ∧
      Reports g gate now r Fault.order c := by
  cases hw : gate.wedged with
  | true =>
    have hwedged : Fault.wedged.Occurs g gate now r := hw
    exact ⟨_, gate, receive_of_wedged hw, reports_fault hwedged rfl _⟩
  | false =>
    cases hauth : g.authentication with
    | certificate base =>
      obtain ⟨gate', hreceive⟩ := receive_of_check hw (check_certificate hauth)
      exact ⟨_, gate', hreceive, Registry.checkCertified_reports now hw hauth⟩
    | token grants =>
      obtain ⟨next, hcheck⟩ := check_bearer hauth hspan
      obtain ⟨gate', hreceive⟩ := receive_of_check hw hcheck
      exact ⟨_, gate', hreceive, checkBearer_reports gate now hw hauth⟩

theorem accepted_iff_of_reports {c : Checked Unit} (h : Reports g gate now r Fault.order c) :
    (c.ruling = .accepted ↔ ∀ f : Fault, ¬ f.Occurs g gate now r) ∧
    (c.ruling ≠ .accepted → ∃ f : Fault, f.IsFirst g gate now r ∧
      c.ruling = .rejected f.reason (f.since? g r)) := by
  generalize horder : Fault.order = fs at h
  cases h with
  | none h =>
    subst horder
    exact ⟨iff_of_true rfl fun f => h f f.mem_order, fun hne => absurd rfl hne⟩
  | @first before after f hbefore hf =>
    refine ⟨iff_of_false Ruling.noConfusion fun hnone => hnone f hf, fun _ => ?_⟩
    exact ⟨f, ⟨before, after, horder, hf, hbefore⟩, rfl⟩

/-- Unless the life of a genuine token goes past the last instant, there is a ruling on every
request, on whatever connection and at whatever time: it is accepted if nothing is wrong with it,
and else refused for the first fault there is, in the one order of all faults. A token is old if
it was issued more than an hour before, wherever its age can be told. -/
theorem ruling_of_first_fault (g : Registry) (gate : Gatekeeper) (now : Instant)
    (r : GatewayRequest)
    (hspan : ∀ t, g.Vouches r t → (t.issuedAt.addSeconds? tokenLifetime).isSome) :
    (∃ x gate', gate.receive g now r = some (x, gate') ∧
      (x = .accepted ↔ ∀ f : Fault, ¬ f.Occurs g gate now r) ∧
      (x ≠ .accepted → ∃ f : Fault, f.IsFirst g gate now r) ∧
      ∀ f : Fault, f.IsFirst g gate now r → x = .rejected f.reason (f.since? g r)) ∧
    ∀ t : Token, t.IsDatable now → (t.IsOld now ↔ t.IsStale now) := by
  obtain ⟨c, gate', hreceive, hreports⟩ := receive_reports g gate now r hspan
  obtain ⟨haccepted, hrejected⟩ := accepted_iff_of_reports hreports
  refine ⟨⟨c.ruling, gate', hreceive, haccepted, fun hne => ?_, fun f hf => ?_⟩,
    fun t => Token.isOld_iff_isStale⟩
  · obtain ⟨f, hf, -⟩ := hrejected hne
    exact ⟨f, hf⟩
  · obtain ⟨f', hf', hruling⟩ := hrejected fun hnone => haccepted.mp hnone f hf.occurs
    rw [hf.unique hf', hruling]

/-- A token that is both too old and of no use for its topic is refused for its age. -/
theorem ruling_of_old_token :
    let key : SigningKey := ⟨⟨1, P256.generator, publicPoint?_one⟩, "T", "K"⟩
    let device := String.ofList (List.replicate 64 'a')
    let g : Registry := ⟨.token [⟨key.verificationKey, []⟩], [("com.example", device)], []⟩
    let t := key.tokenDated 0
    let r := GatewayRequest.showing device "com.example" t
    let now : Instant := ⟨3601, 0⟩
    g.Vouches r t ∧ (t.issuedAt.addSeconds? tokenLifetime).isSome ∧
      Fault.oldToken.IsFirst g {} now r ∧ Fault.ungrantedTopic.Occurs g {} now r ∧
      ∃ gate', receive {} g now r = some (.rejected .expiredProviderToken none, gate') := by
  intro key device g t r now
  have ht : g.Vouches r t :=
    Registry.vouches_showing rfl rfl (by decide) (by decide +kernel) (by decide)
      (by decide +kernel) ⟨by decide, by decide⟩ SigningKey.signsDated_zero
  have hlast : (t.issuedAt.addSeconds? tokenLifetime).isSome := by decide
  obtain ⟨x, gate', hreceive, -, -, hfirst⟩ := (ruling_of_first_fault g {} now r (by
    intro u hu
    rwa [hu.unique ht])).1
  have hasToken {p : List Grant → Token → Prop} : g.HasToken r p ↔ p _ t :=
    Registry.hasToken_iff rfl ht.bears
  have hteam : ¬ Fault.otherTeam.Occurs g {} now r := by simp [Fault.Occurs, hasToken]
  have hold : Fault.oldToken.IsFirst g {} now r :=
    ⟨_, _, (List.take_append_drop 17 Fault.order).symm, hasToken.mpr (by decide),
      List.forall_mem_append.mpr ⟨ht.not_occurs rfl now, List.forall_mem_singleton.mpr hteam⟩⟩
  have hungranted : Fault.ungrantedTopic.Occurs g {} now r :=
    hasToken.mpr ⟨"com.example", GatewayRequest.header?_showing_topic (by decide), by decide⟩
  rw [hfirst _ hold] at hreceive
  exact ⟨ht, hlast, hold, hungranted, gate', hreceive⟩

end Gatekeeper

end PushDelivery
