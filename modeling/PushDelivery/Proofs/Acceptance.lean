import PushDelivery.Proofs.GatekeeperStep
import PushDelivery.Proofs.MintedTokens
import PushDelivery.Proofs.RequestReading

namespace PushDelivery

open Text

namespace Headers

theorem isReadable_of_plain {cs : List Char} (h : ∀ c ∈ cs, isPlain c = true) :
    ∀ v ∈ some (String.ofList cs), isReadable v = true := by
  rintro v hv
  obtain rfl := Option.some.inj hv
  exact isReadable_ofList h

end Headers

/-- A notification that keeps to the limits: a device of 64 digits, a payload of 1 to 4096 bytes, a
collapse id of at most 64 bytes, and texts that can be read in a header. -/
structure Notification.IsFair (n : Notification) : Prop where
  token_length : n.token.length = 64
  token_digits : ∀ c ∈ n.token.toList, Hex.isDigit c = true
  topic : Headers.isReadable n.topic = true
  payload_pos : 0 < (Utf8.encode n.payload.toList).length
  payload_le : (Utf8.encode n.payload.toList).length ≤ 4096
  collapse_readable : ∀ id ∈ n.collapseId, Headers.isReadable id = true
  collapse_le : ∀ id ∈ n.collapseId, id.utf8ByteSize ≤ 64

namespace Uri

/-- Whether an address with this scheme and this authority can be built at all. -/
def Fits (scheme authority : List Char) : Prop :=
  ∃ target u, build scheme authority target = .ok u

variable {scheme authority : List Char}

theorem Fits.checks (h : Fits scheme authority) :
    checkScheme scheme = .ok () ∧ checkAuthority authority = .ok () := by
  obtain ⟨target, u, hu⟩ := h
  obtain ⟨hscheme, hauthority, -⟩ := build_eq_ok hu
  exact ⟨hscheme, hauthority⟩

theorem utf8Length_le (cs : List Char) : utf8Length cs ≤ 4 * cs.length := by
  induction cs with
  | nil => exact Nat.zero_le _
  | cons c cs ih =>
    have := c.utf8Size_le_four
    rw [utf8Length, List.length_cons]
    omega

theorem not_mark_of_inRanges {c : Char} (h : inRanges pathRanges c = true) :
    (c != '#') = true ∧ (c != '?') = true := by
  constructor <;>
  · rw [bne_iff_ne]
    rintro rfl
    revert h
    decide

theorem splitTarget_of_path {cs : List Char} (h : ∀ c ∈ cs, inRanges pathRanges c = true) :
    splitTarget cs = (cs, none) := by
  have hkept : beforeFragment cs = cs :=
    List.takeWhile_eq_self_iff.mpr fun c hc => (not_mark_of_inRanges (h c hc)).1
  have hquery : cs.dropWhile (· != '?') = [] :=
    List.dropWhile_eq_nil_iff.mpr fun c hc => (not_mark_of_inRanges (h c hc)).2
  simp only [splitTarget, hkept, hquery]

/-- A path that is not too long and keeps to its characters can be addressed. -/
theorem build_of_path (hfits : Fits scheme authority) {cs : List Char}
    (h : ∀ c ∈ cs, inRanges pathRanges c = true) (hlen : utf8Length cs ≤ maxLength) :
    build scheme authority cs = .ok ⟨scheme, authority, cs, none⟩ := by
  obtain ⟨hs, ha⟩ := hfits.checks
  have hall : cs.all (inRanges pathRanges) = true := List.all_eq_true.mpr h
  simp only [build, hs, ha, bind, Except.bind, if_neg (Nat.not_lt.mpr hlen),
    splitTarget_of_path h, hall]
  rfl

end Uri

theorem Protocol.inRanges_devicePath {token : String}
    (h : ∀ c ∈ token.toList, Hex.isDigit c = true) :
    ∀ c ∈ (devicePath token).toList, Uri.inRanges Uri.pathRanges c = true := by
  have hstart : devicePathStart.toList.all (Uri.inRanges Uri.pathRanges) = true := by decide
  rw [devicePath, String.toList_append]
  refine List.forall_mem_append.mpr ⟨List.all_eq_true.mp hstart, fun c hc => ?_⟩
  have := Hex.toNat_of_isDigit (h c hc)
  simp only [Uri.inRanges, Uri.pathRanges, List.any_cons, List.any_nil, Bool.or_false,
    Bool.or_eq_true, Bool.and_eq_true, decide_eq_true_eq]
  omega

theorem Protocol.length_devicePath (token : String) :
    (devicePath token).toList.length = 10 + token.length := by
  rw [devicePath, String.toList_append, List.length_append, String.length_toList]
  rfl

namespace Request

theorem mem_orOmit {name : String} {value : Option String} {e : String × String}
    (h : e ∈ orOmit name value) : value = some e.2 := by
  cases value with
  | none => cases h
  | some v =>
    obtain rfl := List.mem_singleton.mp h
    rfl

theorem isReadable_of_mem_headerList {n : Notification}
    (htopic : Headers.isReadable n.topic = true)
    (hcollapse : ∀ id ∈ n.collapseId, Headers.isReadable id = true)
    {authorization : Option String} (ha : ∀ v ∈ authorization, Headers.isReadable v = true) :
    ∀ e ∈ headerList n authorization, Headers.isReadable e.2 = true := by
  intro e he
  simp only [headerList, List.mem_cons, List.mem_append] at he
  rcases he with rfl | rfl | rfl | ((he | he) | he) | he
  · exact htopic
  · exact Headers.isReadable_ofNat _
  · exact Headers.isReadable_ofNat _
  · obtain ⟨t, -, ht⟩ := Option.map_eq_some_iff.mp (mem_orOmit he)
    rw [← ht]
    cases t <;> decide
  · exact hcollapse _ (mem_orOmit he)
  · obtain ⟨id, -, hid⟩ := Option.map_eq_some_iff.mp (mem_orOmit he)
    exact hid ▸ id.isReadable_toText
  · exact ha _ (mem_orOmit he)

theorem build_of_fair {scheme authority : String} (hfits : Uri.Fits scheme.toList authority.toList)
    {n : Notification} (hn : n.IsFair) {authorization : Option String}
    (ha : ∀ v ∈ authorization, Headers.isReadable v = true) :
    build scheme authority n authorization = .ok
      ⟨"POST", ⟨scheme.toList, authority.toList, (Protocol.devicePath n.token).toList, none⟩,
        ⟨headerList n authorization⟩⟩ := by
  have hlength : Uri.utf8Length (Protocol.devicePath n.token).toList ≤ Uri.maxLength := by
    refine (Uri.utf8Length_le _).trans ?_
    rw [Protocol.length_devicePath, hn.token_length]
    decide
  have huri := Uri.build_of_path hfits (Protocol.inRanges_devicePath hn.token_digits) hlength
  have hall : (headerList n authorization).all (fun h => h.2.toList.all Headers.carries) = true :=
    List.all_eq_true.mpr fun e he => Headers.all_carries_of_isReadable
      (isReadable_of_mem_headerList hn.topic hn.collapse_readable ha e he)
  simp only [build, huri, bind, Except.bind, hall, if_true]

end Request

/-- A request from which a gateway reads all of a notification, and a token. -/
structure GatewayRequest.Holds (r : GatewayRequest) (n : Notification) (authorization : List Char) :
    Prop where
  method : r.method = "POST"
  path : r.path = Protocol.devicePath n.token
  topic : r.header? Protocol.topicHeader = some n.topic
  priority : r.header? Protocol.priorityHeader = some (Decimal.ofNat n.priority.code)
  collapseId : r.header? Protocol.collapseIdHeader = n.collapseId
  apnsId : r.header? Protocol.apnsIdHeader = n.apnsId.map Uuid.toText
  authorization : r.header? Protocol.authorizationHeader = some (String.ofList authorization)
  payload : r.payload = Utf8.encode n.payload.toList

namespace Request

theorem holds_of_fair {scheme authority : String} {n : Notification} (hn : n.IsFair)
    {authorization : List Char} (ha : ∀ c ∈ authorization, Headers.isPlain c = true) :
    (GatewayRequest.ofRequest ⟨"POST", ⟨scheme.toList, authority.toList,
      (Protocol.devicePath n.token).toList, none⟩,
        ⟨headerList n (some (String.ofList authorization))⟩⟩
      (Utf8.encode n.payload.toList)).Holds n authorization := by
  have hget {name : String} {value : Option String}
      (hfield : (name, value) ∈ fields n (some (String.ofList authorization)))
      (hplain : ∀ v ∈ value, Headers.isReadable v = true) :
      Headers.get? name ⟨headerList n (some (String.ofList authorization))⟩ = value := by
    rw [get?_headerList hfield, Headers.filter_isReadable_eq_self_iff.mpr hplain]
  constructor
  case method => rfl
  case path => exact String.ofList_toList
  case payload => rfl
  case topic => exact hget (by simp [fields]) (by simpa using hn.topic)
  case priority => exact hget (by simp [fields]) (by simp [Headers.isReadable_ofNat])
  case collapseId => exact hget (by simp [fields]) hn.collapse_readable
  case apnsId => exact hget (by simp [fields]) (by simp [Uuid.isReadable_toText])
  case authorization => exact hget (by simp [fields]) (Headers.isReadable_of_plain ha)

end Request

/-- Whether a registry lets the holder of a key send a notification: the key is the one that is
known by its id, it was granted for the topic, and the device is registered and still takes
something. -/
structure Registry.Admits (g : Registry) (grants : List Grant) (k : VerificationKey)
    (n : Notification) : Prop where
  authentication : g.authentication = .token grants
  known : Authentication.key? grants k.keyId = some k
  granted : ∃ x ∈ grants, x.key = k ∧ n.topic ∈ x.topics
  registered : (n.topic, n.token) ∈ g.devices
  active : ∀ e ∈ g.expired, e.1 ≠ n.token

namespace GatewayRequest

variable {r : GatewayRequest} {n : Notification} {authorization : List Char}

theorem Holds.checkHeaders (h : r.Holds n authorization) (hn : n.IsFair) :
    r.checkHeaders = .ok n.topic := by
  have hid : r.hasFairId = true := by
    rw [hasFairId, h.apnsId]
    cases n.apnsId with
    | none => rfl
    | some id => simp [Uuid.ofText?_toText]
  have hcollapse : r.hasFairCollapseId = true := by
    rw [hasFairCollapseId, h.collapseId]
    cases hc : n.collapseId with
    | none => rfl
    | some id => exact decide_eq_true (hn.collapse_le id hc)
  have hpriority : r.hasFairPriority = true := by
    rw [hasFairPriority, h.priority]
    simp [readPriority?_code]
  simp [GatewayRequest.checkHeaders, Checked.require, Checked.found, hid, h.method, h.topic,
    hcollapse, hpriority, bind, Except.bind, pure, Except.pure]

theorem Holds.checkPayload (h : r.Holds n authorization) (hn : n.IsFair) :
    r.checkPayload = .ok () := by
  have hne : Utf8.encode n.payload.toList ≠ [] := List.ne_nil_of_length_pos hn.payload_pos
  have hle : (Utf8.encode n.payload.toList).length ≤ Protocol.maxPayloadSize := hn.payload_le
  simp [GatewayRequest.checkPayload, Checked.require, h.payload, hne, hle, bind, Except.bind]

theorem Holds.device? (h : r.Holds n authorization) : r.device? = some n.token :=
  device?_eq_some_iff.mpr h.path

theorem Holds.checkDevice (h : r.Holds n authorization) (hn : n.IsFair) {g : Registry}
    {grants : List Grant} {k : VerificationKey} (hg : g.Admits grants k n) :
    g.checkDevice n.topic r = .ok () := by
  have hname : isDeviceName n.token = true := by
    simp [isDeviceName, hn.token_length, List.all_eq_true.mpr hn.token_digits]
  have hactive : g.expiredSince? n.token = none := by
    rw [Registry.expiredSince?, Option.map_eq_none_iff, List.find?_eq_none]
    intro e he
    simpa using hg.active e (List.mem_reverse.mp he)
  have hregistered : g.isRegistered n.topic n.token = true :=
    List.contains_iff_mem.mpr hg.registered
  exact Registry.checkDevice_of_registered h.device? hname hactive hregistered

end GatewayRequest

theorem GatewayRequest.Holds.answeredId {r : GatewayRequest} {n : Notification}
    {authorization : List Char} (h : r.Holds n authorization) (fresh : Uuid) :
    Gateway.answeredId r fresh = some (n.apnsId.getD fresh) := by
  rw [← Gateway.replyId_eq_answeredId, Gateway.replyId, h.apnsId]
  cases n.apnsId with
  | none => rfl
  | some id => exact id.ofText?_toText

/-- A token that a key has minted. -/
structure Token.Minted (t : Token) (k : SigningKey) (issued : Instant) : Prop where
  representable : issued.Representable
  assembled : ∃ signature, t = assemble (headerOf k) (claimsOf k issued) signature
  genuine : t.verify k.verificationKey = true

namespace Token.Minted

variable {t : Token} {k : SigningKey} {issued : Instant}

theorem keyId_eq (h : t.Minted k issued) : t.header.keyId = k.keyId := by
  obtain ⟨signature, rfl⟩ := h.assembled
  rfl

theorem teamId_eq (h : t.Minted k issued) : t.claims.teamId = k.teamId := by
  obtain ⟨signature, rfl⟩ := h.assembled
  rfl

theorem parse_encoded (h : t.Minted k issued) : parse t.encoded = .ok t := by
  obtain ⟨signature, rfl⟩ := h.assembled
  exact parse_assemble rfl (inRange_claimsOf k h.representable) signature

theorem issuedAt_eq (h : t.Minted k issued) : t.issuedAt = ⟨issued.seconds, 0⟩ := by
  obtain ⟨signature, rfl⟩ := h.assembled
  exact issuedAt_assemble k h.representable signature

theorem tokenText? (h : t.Minted k issued) {r : GatewayRequest} {n : Notification}
    (hr : r.Holds n t.authorization) : r.tokenText? = some t.encoded := by
  obtain ⟨signature, rfl⟩ := h.assembled
  exact GatewayRequest.tokenText?_of_header hr.authorization

theorem checkToken (h : t.Minted k issued) {r : GatewayRequest} {n : Notification}
    (hr : r.Holds n t.authorization) {g : Registry} {grants : List Grant}
    (hg : g.Admits grants k.verificationKey n) : Authentication.checkToken grants r = .ok t := by
  have hknown : Authentication.key? grants t.header.keyId = some k.verificationKey :=
    h.keyId_eq ▸ hg.known
  exact Authentication.checkToken_eq_ok_iff.mpr
    ⟨t.encoded, k.verificationKey, h.tokenText? hr, h.parse_encoded, hknown, h.genuine⟩

theorem isExpired? (h : t.Minted k issued) (hspan : issued.seconds + 3600 ≤ Instant.maxSeconds)
    {now : Instant} (hnow : Instant.lt ⟨issued.seconds + 3600, 0⟩ now = false) :
    Gatekeeper.isExpired? now t = some false := by
  have hlast : Instant.addSeconds? ⟨issued.seconds, 0⟩ Gatekeeper.tokenLifetime =
      some ⟨issued.seconds + 3600, 0⟩ := if_pos hspan
  rw [Gatekeeper.isExpired?, h.issuedAt_eq, hlast, Option.map_some, hnow]

end Token.Minted

namespace Gatekeeper

variable {gate : Gatekeeper} {g : Registry} {grants : List Grant} {k : SigningKey}
  {n : Notification} {t : Token} {issued now : Instant} {r : GatewayRequest}

theorem topicsOf_of_admits (hg : g.Admits grants k.verificationKey n) :
    n.topic ∈ Authentication.topicsOf grants k.keyId := by
  obtain ⟨x, hx, hkey, htopic⟩ := hg.granted
  refine List.mem_flatMap.mpr ⟨x, List.mem_filter.mpr ⟨hx, ?_⟩, htopic⟩
  rw [hkey]
  exact beq_self_eq_true _

/-- A request that holds a fair notification and a fresh token is accepted on a connection that is
open to the key's team. -/
theorem receive_of_holds (hwedged : gate.wedged = false)
    (hteam : gate.team = none ∨ gate.team = some k.teamId)
    (hg : g.Admits grants k.verificationKey n) (hn : n.IsFair) (ht : t.Minted k issued)
    (hspan : issued.seconds + 3600 ≤ Instant.maxSeconds)
    (hnow : Instant.lt ⟨issued.seconds + 3600, 0⟩ now = false) (hr : r.Holds n t.authorization) :
    gate.receive g now r = some (.accepted, ⟨some k.teamId, false⟩) := by
  have hfree : gate.IsFreeFor t.claims.teamId := by
    rw [IsFreeFor, ht.teamId_eq]
    rcases hteam with h | h <;> rw [h] <;> rfl
  have htopic : n.topic ∈ Authentication.topicsOf grants t.header.keyId :=
    ht.keyId_eq ▸ topicsOf_of_admits hg
  have huse : checkUse grants n.topic r t false = .ok () :=
    checkUse_eq_ok_iff.mpr ⟨rfl, htopic, hr.checkPayload hn⟩
  rw [receive_of_free hwedged (check_of_addressed (hr.checkHeaders hn) (hr.checkDevice hn hg))
    hg.authentication (ht.checkToken hr hg) hfree, ht.isExpired? hspan hnow, Option.map_some, huse,
    ht.teamId_eq]
  rfl

end Gatekeeper

/-- What a key signs with a secret number verifies with the public half of the key. -/
def SigningKey.Verifies (k : SigningKey) (message : List UInt8) (secret : P256.Scalar) : Prop :=
  ∀ signature ∈ k.sign? message secret, k.verificationKey.verify message signature = true

theorem TokenKeeper.authorization_of_mint {keeper : TokenKeeper} {now : Present}
    {value : List Char} (hfresh : keeper.fresh? now.time = none)
    (hmint : keeper.mint now = .ok value) :
    ∃ kept, keeper.authorization now = .ok (value, kept) := by
  rw [authorization, hfresh, hmint]
  exact ⟨_, rfl⟩

/-- A fair notification is accepted from end to end: a keeper mints a token for it, the request can
be built, the gateway accepts it up to an hour after the token was minted, and the client reads the
answer as acceptance under the notification's own id. -/
theorem accepted_end_to_end (scheme authority : String) (n : Notification) (keeper : TokenKeeper)
    (present : Present) (g : Registry) (grants : List Grant) (gate : Gatekeeper) (now : Instant)
    (fresh unique : Uuid) (hfits : Uri.Fits scheme.toList authority.toList) (hn : n.IsFair)
    (hfresh : keeper.fresh? present.time = none)
    (hsign : (keeper.key.sign? (Utf8.encode (Token.signingInput (Token.headerOf keeper.key)
      (Token.claimsOf keeper.key present.date))) present.secret).isSome = true)
    (hverify : keeper.key.Verifies (Utf8.encode (Token.signingInput (Token.headerOf keeper.key)
      (Token.claimsOf keeper.key present.date))) present.secret)
    (hissued : present.date.Representable)
    (hspan : present.date.seconds + 3600 ≤ Instant.maxSeconds)
    (hg : g.Admits grants keeper.key.verificationKey n) (hwedged : gate.wedged = false)
    (hteam : gate.team = none ∨ gate.team = some keeper.key.teamId)
    (hnow : Instant.lt ⟨present.date.seconds + 3600, 0⟩ now = false) :
    ∃ value kept request gate',
      keeper.authorization present = .ok (value, kept) ∧
      Request.build scheme authority n (some (String.ofList value)) = .ok request ∧
      let arrived := GatewayRequest.ofRequest request (Utf8.encode n.payload.toList)
      gate.receive g now arrived = some (.accepted, gate') ∧
      (Gateway.reply arrived fresh unique .accepted).verdict =
        .accepted 200 (some (n.apnsId.getD fresh)) (some unique) := by
  obtain ⟨signature, hsignature⟩ := Option.isSome_iff_exists.mp hsign
  let t := Token.assemble (Token.headerOf keeper.key) (Token.claimsOf keeper.key present.date)
    signature
  obtain ⟨kept, hvalue⟩ :=
    TokenKeeper.authorization_of_mint hfresh
      (TokenKeeper.mint_of_token (Token.mint_of_sign hsignature))
  have ht : t.Minted keeper.key present.date := by
    refine ⟨hissued, ⟨signature, rfl⟩, ?_⟩
    rw [Token.verify_assemble_eq]
    exact hverify signature hsignature
  have hplain : ∀ c ∈ t.authorization, Headers.isPlain c = true :=
    Token.isPlain_of_mem_authorization
  have hreadable : ∀ v ∈ some (String.ofList t.authorization), Headers.isReadable v = true :=
    Headers.isReadable_of_plain hplain
  have hr := @Request.holds_of_fair scheme authority n hn _ hplain
  refine ⟨t.authorization, kept, _, _, hvalue, Request.build_of_fair hfits hn hreadable,
    Gatekeeper.receive_of_holds hwedged hteam hg hn ht hspan hnow hr, ?_⟩
  rw [Gateway.verdict_of_accepted, hr.answeredId]

/-- A key whose team has quotes in its name, a notification with all fields, and a gateway that has
seen the key's team before. -/
theorem accepted_end_to_end_voip :
    let key : SigningKey := ⟨⟨1, P256.generator, publicPoint?_one⟩, "\"T\"", "K é"⟩
    let keeper : TokenKeeper := ⟨key, ⟨2400000000000⟩, none⟩
    let present : Present := ⟨0, ⟨1700000000, 999999999⟩, 1⟩
    let n : Notification :=
      { token := String.ofList (List.replicate 64 'a'), topic := "com.example\t", payload := "é",
        expiration := some ⟨-5, 0⟩, priority := .conservePower, pushType := some .voip,
        collapseId := some "7", apnsId := some ⟨7⟩ }
    let g : Registry := ⟨.token [⟨key.verificationKey, [n.topic]⟩], [(n.topic, n.token)], []⟩
    ∃ value kept request gate',
      keeper.authorization present = .ok (value, kept) ∧
      Request.build "https" "localhost:443" n (some (String.ofList value)) = .ok request ∧
      let arrived := GatewayRequest.ofRequest request (Utf8.encode n.payload.toList)
      Gatekeeper.receive ⟨some key.teamId, false⟩ g ⟨1700003600, 0⟩ arrived =
        some (.accepted, gate') ∧
      (Gateway.reply arrived ⟨1⟩ ⟨2⟩ .accepted).verdict = .accepted 200 (some ⟨7⟩) (some ⟨2⟩) := by
  intro key keeper present n g
  have hfits : Uri.Fits "https".toList "localhost:443".toList := ⟨[], _, rfl⟩
  have htoken : n.token.toList = List.replicate 64 'a' := String.toList_ofList
  have hn : n.IsFair := by
    constructor
    case token_length => rw [← String.length_toList, htoken, List.length_replicate]
    case token_digits =>
      intro c hc
      rw [htoken] at hc
      rw [List.eq_of_mem_replicate hc]
      decide
    all_goals decide +kernel
  have hg : g.Admits [⟨key.verificationKey, [n.topic]⟩] key.verificationKey n := by
    refine ⟨rfl, ?_, ⟨_, List.mem_cons_self, rfl, List.mem_cons_self⟩, List.mem_cons_self, ?_⟩
    · decide +kernel
    · exact fun e he => absurd he List.not_mem_nil
  exact accepted_end_to_end "https" "localhost:443" n keeper present g _ _ ⟨1700003600, 0⟩ ⟨1⟩ ⟨2⟩
    hfits hn rfl (by decide +kernel) (by unfold SigningKey.Verifies; decide +kernel)
    ⟨by decide, by decide, by decide⟩ (by decide) hg rfl (.inr rfl) (by decide)

end PushDelivery
