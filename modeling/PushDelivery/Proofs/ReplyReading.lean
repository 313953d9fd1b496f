import PushDelivery.Gateway.Server
import PushDelivery.Proofs.JsonReading

namespace PushDelivery

open Text

/-- Whether an instant is one that can be represented. -/
structure Instant.Representable (t : Instant) : Prop where
  low : minSeconds ≤ t.seconds
  high : t.seconds ≤ maxSeconds
  nanos : t.nanos < 2000000000

theorem Instant.Representable.millis_fit {t : Instant} (h : t.Representable) :
    -(Numeral.signedLimit : Int) ≤ t.millis ∧ t.millis < Numeral.signedLimit := by
  have hlow := h.low
  have hhigh := h.high
  have hnanos : t.nanos / 1000000 < 2000 := Nat.div_lt_of_lt_mul h.nanos
  simp only [minSeconds, maxSeconds] at hlow hhigh
  simp only [millis, Numeral.signedLimit]
  omega

/-- The names of all header fields that the two sides know. -/
def Protocol.headerNames : List String :=
  [expirationHeader, topicHeader, priorityHeader, pushTypeHeader, collapseIdHeader, apnsIdHeader,
    uniqueIdHeader, authorizationHeader, contentTypeHeader]

theorem Protocol.toLower_headerName : ∀ name ∈ headerNames, name.toLower = name := by
  decide +kernel

namespace Headers

theorem first?_nil (name : String) : first? name ⟨[]⟩ = none := rfl

theorem first?_cons_same {name : String} (h : name ∈ Protocol.headerNames) (value : String)
    (rest : List (String × String)) : first? name ⟨(name, value) :: rest⟩ = some value := by
  rw [first?, List.find?_cons_of_pos (by simpa using Protocol.toLower_headerName name h)]
  rfl

theorem first?_cons_other {name other : String} (h : other ∈ Protocol.headerNames)
    (hne : other ≠ name) (value : String) (rest : List (String × String)) :
    first? name ⟨(other, value) :: rest⟩ = first? name ⟨rest⟩ := by
  rw [first?, List.find?_cons_of_neg (by simpa [Protocol.toLower_headerName other h] using hne)]
  rfl

theorem carries_of_isPlain {c : Char} (h : isPlain c = true) : carries c = true := by
  simp only [isPlain, carries, Bool.or_eq_true, Bool.and_eq_true, decide_eq_true_eq,
    bne_iff_ne] at h ⊢
  rcases h with htab | ⟨hlow, hhigh⟩
  · exact .inl htab
  · exact .inr ⟨hlow, by omega⟩

theorem all_carries_of_isReadable {value : String} (h : isReadable value = true) :
    value.toList.all carries = true :=
  List.all_eq_true.mpr fun c hc => carries_of_isPlain (List.all_eq_true.mp h c hc)

theorem get?_of_first? {name value : String} {h : Headers} (hfirst : h.first? name = some value)
    (hvalue : isReadable value = true) : h.get? name = some value := by
  rw [get?, hfirst]
  exact Option.filter_some_pos hvalue

end Headers

namespace RefusalBody

theorem isWritten_toJson (reason : Rejection) (since : Option Instant) :
    (toJson reason since).IsWritten := by
  unfold toJson
  rw [Json.IsWritten]
  refine ⟨JsonText.isWhole_ofString _, Json.isWritten_ofString _, ?_⟩
  cases since with
  | none => trivial
  | some t => exact ⟨JsonText.isWhole_ofString _, Json.isWritten_ofInt _, trivial⟩

theorem isSound_toJson (reason : Rejection) {since : Option Instant}
    (h : ∀ t ∈ since, t.Representable) : (toJson reason since).isSound = true := by
  have hstring (s : String) : (JsonText.ofString s).string?.isSome = true := by
    rw [JsonText.string?_ofString]
    rfl
  cases since with
  | none =>
    simp [toJson, Json.isSound, Json.maxDepth, Json.soundWithin, Json.membersSoundWithin,
      Json.ofString, hstring]
  | some t =>
    obtain ⟨hlow, hhigh⟩ := (h t rfl).millis_fit
    have hrange : (Numeral.ofInt t.millis).inRange = true := by
      rw [Numeral.inRange, Numeral.integer?_ofInt_signed hlow hhigh]
      rfl
    simp [toJson, Json.isSound, Json.maxDepth, Json.soundWithin, Json.membersSoundWithin,
      Json.ofString, Json.ofInt, hstring, hrange]

theorem truncated?_ofInt {n : Int} (hlow : -(Numeral.signedLimit : Int) ≤ n)
    (hhigh : n < Numeral.signedLimit) : truncated? (Numeral.ofInt n) = some n := by
  rw [truncated?, Numeral.integer?_ofInt_signed hlow hhigh]
  exact congrArg some (Int.min_eq_left (by omega))

/-- The body of a refusal is read back: the reason as it was, the time as its milliseconds say. -/
theorem decode_encode (reason : Rejection) {since : Option Instant}
    (h : ∀ t ∈ since, t.Representable) :
    decode (encode reason since) =
      ⟨some reason.text, since.bind fun t => instantOfEpoch? t.millis⟩ := by
  rw [decode, encode, Json.ofBytes?_encode (isWritten_toJson reason since),
    Option.filter_some_pos (isSound_toJson reason h)]
  cases since with
  | none =>
    simp [toJson, Json.get?, Json.ofString, Json.string?, JsonText.string?_ofString]
  | some t =>
    obtain ⟨hlow, hhigh⟩ := (h t rfl).millis_fit
    have hnames : JsonText.ofString "timestamp" ≠ JsonText.ofString "reason" := by decide
    simp [toJson, Json.get?, Json.ofString, Json.ofInt, Json.string?, JsonText.string?_ofString,
      hnames, truncated?_ofInt hlow hhigh]

end RefusalBody

namespace Gateway

/-- The id that the reply to a request carries: the one of the request, if its header can be read,
and a new one otherwise. -/
def answeredId (r : GatewayRequest) (fresh : Uuid) : Option Uuid :=
  match r.headers.first? Protocol.apnsIdHeader with
  | none => some fresh
  | some value => if Headers.isReadable value then Uuid.ofText? value else some fresh

theorem replyId_eq_answeredId (r : GatewayRequest) (fresh : Uuid) :
    replyId r fresh = answeredId r fresh := by
  rw [replyId, answeredId, GatewayRequest.header?, Headers.get?]
  cases r.headers.first? Protocol.apnsIdHeader with
  | none => rfl
  | some value =>
    cases h : Headers.isReadable value with
    | true =>
      rw [Option.filter_some_pos h]
      exact (if_pos h).symm
    | false =>
      rw [Option.filter_some_neg (by simp [h])]
      exact (if_neg (by simp [h])).symm

end Gateway

namespace Reply

theorem uuid?_of_first? {name : String} {h : Headers} {id : Uuid}
    (hfirst : h.first? name = some id.toText) : uuid? name h = some id := by
  rw [uuid?, Headers.get?_of_first? hfirst id.isReadable_toText, Option.bind_some,
    Uuid.ofText?_toText]

theorem uuid?_of_first?_none {name : String} {h : Headers} (hfirst : h.first? name = none) :
    uuid? name h = none := by
  rw [uuid?, Headers.get?, hfirst]
  rfl

/-- The id of a notification is read in a reply, when nothing else is called so. -/
theorem uuid?_apnsId (id : Option Uuid) {name : String} (hname : name ∈ Protocol.headerNames)
    (hne : name ≠ Protocol.apnsIdHeader) (value : String) :
    uuid? Protocol.apnsIdHeader ⟨Gateway.idHeader id ++ [(name, value)]⟩ = id := by
  cases id with
  | none =>
    refine uuid?_of_first?_none ?_
    rw [Gateway.idHeader, List.nil_append, Headers.first?_cons_other hname hne, Headers.first?_nil]
  | some id => exact uuid?_of_first? (Headers.first?_cons_same (by decide) _ _)

theorem uuid?_uniqueId (id : Option Uuid) (unique : Uuid) :
    uuid? Protocol.uniqueIdHeader
      ⟨Gateway.idHeader id ++ [(Protocol.uniqueIdHeader, unique.toText)]⟩ = some unique := by
  refine uuid?_of_first? ?_
  cases id with
  | none => exact Headers.first?_cons_same (by decide) _ _
  | some id =>
    rw [Gateway.idHeader, List.cons_append, Headers.first?_cons_other (by decide) (by decide)]
    exact Headers.first?_cons_same (by decide) _ _

end Reply

namespace Rejection

theorem status_cases (reason : Rejection) :
    Reply.isSuccess reason.status = false ∧
      (Reply.isServerError reason.status = true → reason = .internalServerError ∨
        reason = .serviceUnavailable ∨ reason = .shutdown) := by
  cases reason <;> simp [status, Reply.isSuccess, Reply.isServerError]

end Rejection

namespace Gateway

theorem verdict_of_accepted (r : GatewayRequest) (fresh unique : Uuid) :
    (reply r fresh unique .accepted).verdict =
      .accepted 200 (answeredId r fresh) (some unique) := by
  rw [Reply.verdict, reply]
  dsimp only
  rw [Reply.uuid?_apnsId _ (by decide) (by decide), Reply.uuid?_uniqueId, replyId_eq_answeredId]
  rfl

/-- A reply that carries a reason is read by its body, as a server error only when the reason is
that of a server error. -/
theorem verdict_of_refusal (r : GatewayRequest) (fresh unique : Uuid) {reason : Rejection}
    {since : Option Instant} (hsince : ∀ t ∈ since, t.Representable)
    (hreason : Rejection.ofText reason.text = reason) :
    (reply r fresh unique (.rejected reason since)).verdict =
      if reason = .internalServerError then .internalError 500 (some reason.text)
      else .rejected reason.status (answeredId r fresh) (some reason)
        (since.bind fun t => RefusalBody.instantOfEpoch? t.millis) := by
  obtain ⟨hsuccess, hserver⟩ := reason.status_cases
  rw [Reply.verdict, reply]
  simp only [hsuccess, Bool.false_eq_true, if_false, RefusalBody.decode_encode reason hsince,
    Option.map_some, hreason, contentType]
  rw [Reply.uuid?_apnsId _ (by decide) (by decide), replyId_eq_answeredId]
  cases hstatus : Reply.isServerError reason.status with
  | false =>
    have hne : reason ≠ .internalServerError := by
      rintro rfl
      cases hstatus
    rw [Bool.false_and, if_neg Bool.false_ne_true, if_neg hne]
  | true =>
    rcases hserver hstatus with rfl | rfl | rfl <;> rfl

theorem reply_failed (r : GatewayRequest) (fresh unique : Uuid) (message : String) :
    reply r fresh unique (.failed message) =
      reply r fresh unique (.rejected .internalServerError none) := rfl

/-- What a sender makes of a gateway's reply to any request, for every ruling: acceptance with both
ids, the reason that the gateway has given, or a server error that tells nothing about the
notification. -/
theorem verdict_of_reply (r : GatewayRequest) (fresh unique : Uuid) :
    (reply r fresh unique .accepted).verdict =
        .accepted 200 (answeredId r fresh) (some unique) ∧
      (∀ reason since, Rejection.ofText reason.text = reason → reason ≠ .internalServerError →
        (∀ t ∈ since, t.Representable) →
        (reply r fresh unique (.rejected reason since)).verdict =
          .rejected reason.status (answeredId r fresh) (some reason)
            (since.bind fun t => RefusalBody.instantOfEpoch? t.millis)) ∧
      (∀ since, (∀ t ∈ since, t.Representable) →
        (reply r fresh unique (.rejected .internalServerError since)).verdict =
          .internalError 500 (some "InternalServerError")) ∧
      ∀ message, (reply r fresh unique (.failed message)).verdict =
        .internalError 500 (some "InternalServerError") := by
  refine ⟨verdict_of_accepted r fresh unique, ?_, ?_, ?_⟩
  · intro reason since hreason hne hsince
    rw [verdict_of_refusal r fresh unique hsince hreason, if_neg hne]
  · intro since hsince
    rw [verdict_of_refusal r fresh unique hsince rfl, if_pos rfl]
    rfl
  · intro message
    rw [reply_failed, verdict_of_refusal r fresh unique (fun _ h => by cases h) rfl, if_pos rfl]
    rfl

/-- A reason without a name of its own, with a quote, a line break and a letter outside ASCII, for
a request whose id cannot be read; and a device that takes nothing any more. -/
theorem verdict_of_reply_refusing :
    let id : Uuid := ⟨7⟩
    let malformed : GatewayRequest := ⟨"POST", "/", ⟨[("apns-id", "seven")]⟩, []⟩
    let labelled : GatewayRequest := ⟨"POST", "/", ⟨[("Apns-Id", id.toText)]⟩, []⟩
    (reply malformed ⟨1⟩ ⟨2⟩ (.rejected (.other "\"\né") none)).verdict =
        .rejected 400 none (some (.other "\"\né")) none ∧
      (reply labelled ⟨1⟩ ⟨2⟩ (.rejected .unregistered (some ⟨1700000000, 5⟩))).verdict =
        .rejected 410 (some id) (some .unregistered) (some ⟨1700000000, 0⟩) := by
  intro id malformed labelled
  constructor
  · rw [(verdict_of_reply malformed ⟨1⟩ ⟨2⟩).2.1 (.other "\"\né") none (by decide) (by decide)
      (fun _ h => by cases h)]
    decide +kernel
  · rw [(verdict_of_reply labelled ⟨1⟩ ⟨2⟩).2.1 .unregistered (some ⟨1700000000, 5⟩) (by decide)
      (by decide) (fun t h => by cases h; exact ⟨by decide, by decide, by decide⟩)]
    decide +kernel

end Gateway

end PushDelivery
