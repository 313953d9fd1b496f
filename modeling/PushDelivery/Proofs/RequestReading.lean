import PushDelivery.Proofs.ReplyReading
import Mathlib.Data.List.TakeWhile

namespace PushDelivery

open Text

namespace Request

theorem first?_orOmit_other {name other : String} (h : other ∈ Protocol.headerNames)
    (hne : other ≠ name) (value : Option String) (rest : List (String × String)) :
    Headers.first? name ⟨orOmit other value ++ rest⟩ = Headers.first? name ⟨rest⟩ := by
  cases value with
  | none => rfl
  | some v => exact Headers.first?_cons_other h hne v rest

theorem first?_orOmit_same {name : String} (h : name ∈ Protocol.headerNames)
    (value : Option String) {rest : List (String × String)}
    (hrest : Headers.first? name ⟨rest⟩ = none) :
    Headers.first? name ⟨orOmit name value ++ rest⟩ = value := by
  cases value with
  | none => exact hrest
  | some v => exact Headers.first?_cons_same h v rest

/-- All fields of a request, also those without a value. -/
def fields (n : Notification) (authorization : Option String) : List (String × Option String) :=
  [(Protocol.topicHeader, some n.topic),
    (Protocol.priorityHeader, some (Decimal.ofNat n.priority.code)),
    (Protocol.expirationHeader, some (Protocol.expirationValue n.expiration)),
    (Protocol.pushTypeHeader, n.pushType.map PushType.name),
    (Protocol.collapseIdHeader, n.collapseId),
    (Protocol.apnsIdHeader, n.apnsId.map Uuid.toText),
    (Protocol.authorizationHeader, authorization)]

theorem headerList_eq (n : Notification) (authorization : Option String) :
    headerList n authorization = (fields n authorization).flatMap fun f => orOmit f.1 f.2 := by
  simp [headerList, fields, orOmit]

theorem first?_absent {name : String} {fs : List (String × Option String)}
    (hknown : ∀ f ∈ fs, f.1 ∈ Protocol.headerNames) (h : ∀ f ∈ fs, f.1 ≠ name) :
    Headers.first? name ⟨fs.flatMap fun f => orOmit f.1 f.2⟩ = none := by
  induction fs with
  | nil => rfl
  | cons f fs ih =>
    obtain ⟨hf, hfs⟩ := List.forall_mem_cons.mp h
    obtain ⟨hk, hks⟩ := List.forall_mem_cons.mp hknown
    rw [List.flatMap_cons, first?_orOmit_other hk hf, ih hks hfs]

theorem first?_of_mem {fs : List (String × Option String)}
    (hknown : ∀ f ∈ fs, f.1 ∈ Protocol.headerNames) (hnodup : (fs.map Prod.fst).Nodup)
    {name : String} {value : Option String} (h : (name, value) ∈ fs) :
    Headers.first? name ⟨fs.flatMap fun f => orOmit f.1 f.2⟩ = value := by
  induction fs with
  | nil => cases h
  | cons f fs ih =>
    obtain ⟨hk, hks⟩ := List.forall_mem_cons.mp hknown
    rw [List.map_cons, List.nodup_cons] at hnodup
    rw [List.flatMap_cons]
    rcases List.mem_cons.mp h with rfl | hmem
    · refine first?_orOmit_same hk value (first?_absent hks fun g hg hname => ?_)
      exact hnodup.1 (hname ▸ List.mem_map_of_mem hg)
    · have hne : f.1 ≠ name := by
        intro hname
        exact hnodup.1 (hname ▸ List.mem_map_of_mem hmem)
      rw [first?_orOmit_other hk hne, ih hks hnodup.2 hmem]

theorem get?_headerList {n : Notification} {authorization : Option String} {name : String}
    {value : Option String} (h : (name, value) ∈ fields n authorization) :
    Headers.get? name ⟨headerList n authorization⟩ = value.filter Headers.isReadable := by
  have hknown : ∀ f ∈ fields n authorization, f.1 ∈ Protocol.headerNames := by
    simp [fields, Protocol.headerNames]
  have hnodup : ((fields n authorization).map Prod.fst).Nodup := by
    simp only [fields, List.map_cons, List.map_nil]
    decide
  rw [Headers.get?, headerList_eq, first?_of_mem hknown hnodup h]

end Request

theorem Headers.filter_isReadable_eq_self_iff {value : Option String} :
    value.filter isReadable = value ↔ ∀ v ∈ value, isReadable v = true := by
  cases value with
  | none => simp
  | some v => simp

namespace Uri

/-- What stands before the first mark that ends a path. -/
def beforeMark (cs : List Char) : List Char :=
  cs.takeWhile fun c => c ≠ '?' ∧ c ≠ '#'

theorem beforeMark_append {xs : List Char} (h : ∀ c ∈ xs, c ≠ '?' ∧ c ≠ '#') (ys : List Char) :
    beforeMark (xs ++ ys) = xs ++ beforeMark ys := by
  rw [beforeMark, List.takeWhile_append_of_pos fun c hc => decide_eq_true (h c hc), beforeMark]

theorem beforeMark_eq_self_iff {cs : List Char} :
    beforeMark cs = cs ↔ ∀ c ∈ cs, c ≠ '?' ∧ c ≠ '#' := by
  rw [beforeMark, List.takeWhile_eq_self_iff]
  simp only [decide_eq_true_eq]

theorem splitTarget_fst (cs : List Char) : (splitTarget cs).1 = beforeMark cs := by
  have hboth : (beforeFragment cs).takeWhile (· != '?') = beforeMark cs := by
    rw [beforeFragment, List.takeWhile_takeWhile, beforeMark]
    simp only [bne_iff_ne]
  unfold splitTarget
  dsimp only
  cases hdrop : (beforeFragment cs).dropWhile (· != '?') with
  | nil =>
    -- Without a question mark nothing is cut off a second time.
    rw [← hboth, List.takeWhile_eq_self_iff.mpr (List.dropWhile_eq_nil_iff.mp hdrop)]
  | cons c rest => exact hboth

theorem path_of_build {scheme authority target : List Char} {u : Uri}
    (h : build scheme authority target = .ok u) : u.path = beforeMark target := by
  obtain ⟨-, -, -, hpath⟩ := build_eq_ok h
  rw [hpath, splitTarget_fst]

end Uri

namespace Request

theorem parts_of_build {scheme authority : String} {n : Notification}
    {authorization : Option String} {request : Request}
    (h : build scheme authority n authorization = .ok request) :
    request.uri.path = Uri.beforeMark (Protocol.devicePath n.token).toList ∧
      request.headers = ⟨headerList n authorization⟩ := by
  obtain ⟨huri, hheaders⟩ := build_eq_ok h
  exact ⟨Uri.path_of_build huri, hheaders⟩

end Request

theorem Headers.isReadable_ofNat (n : Nat) : isReadable (Decimal.ofNat n) = true := by
  refine isReadable_ofList fun c hc => ?_
  have hdigit := Decimal.isDigit_of_mem_digits c hc
  exact Hex.isPlain_of_isDigit (by rw [Hex.isDigit, hdigit]; rfl)

theorem PushType.isReadable_name (t : PushType) : Headers.isReadable t.name = true := by
  cases t <;> decide

theorem PushType.ofName?_name (t : PushType) : ofName? t.name = some t := by
  cases t <;> decide

namespace GatewayRequest

theorem readOctet?_digits {m : Nat} (h : m ≤ 255) : readOctet? (Decimal.digits m) = some m := by
  have hplus : (Decimal.digits m).head? ≠ some '+' := by
    intro he
    have hdigit := Decimal.isDigit_of_mem_digits '+' (List.mem_of_head? he)
    cases hdigit
  rw [readOctet?, if_neg hplus, if_pos ⟨Decimal.digits_ne_nil m,
    List.all_eq_true.mpr Decimal.isDigit_of_mem_digits, by rwa [Decimal.ofDigits_digits]⟩,
    Decimal.ofDigits_digits]

theorem readPriority?_code (p : Priority) : readPriority? (Decimal.ofNat p.code) = some p := by
  have hcode : p.code ≤ 255 := by cases p <;> decide
  rw [readPriority?, Decimal.ofNat, String.toList_ofList, readOctet?_digits hcode]
  cases p <;> rfl

end GatewayRequest

/-- The fields of a notification that a gateway reads in a request whatever texts the others
have. -/
structure GatewayRequest.Shows (r : GatewayRequest) (n : Notification) : Prop where
  priority : (r.header? Protocol.priorityHeader).bind readPriority? = some n.priority
  apnsId : (r.header? Protocol.apnsIdHeader).map Uuid.ofText? = n.apnsId.map some
  pushType : (r.header? Protocol.pushTypeHeader).map PushType.ofName? = n.pushType.map some
  /-- Whole seconds since 1970, zero before that and without an expiration. -/
  expiration : ∃ seconds : Nat, r.header? Protocol.expirationHeader = some (Decimal.ofNat seconds) ∧
    (seconds : Int) = n.expiration.elim 0 fun t => max 0 t.seconds

/-- A request in which a gateway reads all of a notification as it is. -/
structure GatewayRequest.Tells (r : GatewayRequest) (n : Notification) : Prop
    extends Shows r n where
  path : r.path = Protocol.devicePath n.token
  topic : r.header? Protocol.topicHeader = some n.topic
  collapseId : r.header? Protocol.collapseIdHeader = n.collapseId

/-- A notification whose device has no mark that ends a path and whose texts can be read in a
header. -/
structure Notification.IsPlain (n : Notification) : Prop where
  token : ∀ c ∈ n.token.toList, c ≠ '?' ∧ c ≠ '#'
  topic : Headers.isReadable n.topic = true
  collapseId : ∀ id ∈ n.collapseId, Headers.isReadable id = true

namespace Request

variable {scheme authority : String} {n : Notification} {authorization : Option String}
  {request : Request} {payload : List UInt8}

theorem path_ofRequest (h : build scheme authority n authorization = .ok request) :
    (GatewayRequest.ofRequest request payload).path =
      Protocol.devicePath (String.ofList (Uri.beforeMark n.token.toList)) := by
  have hstart : ∀ c ∈ Protocol.devicePathStart.toList, c ≠ '?' ∧ c ≠ '#' :=
    Uri.beforeMark_eq_self_iff.mp (by decide)
  rw [GatewayRequest.ofRequest, (parts_of_build h).1, Protocol.devicePath, String.toList_append,
    Uri.beforeMark_append hstart, String.ofList_append, String.ofList_toList, Protocol.devicePath]

theorem header?_ofRequest (h : build scheme authority n authorization = .ok request)
    {name : String} {value : Option String} (hfield : (name, value) ∈ fields n authorization) :
    (GatewayRequest.ofRequest request payload).header? name = value.filter Headers.isReadable := by
  rw [GatewayRequest.header?, GatewayRequest.ofRequest, (parts_of_build h).2,
    get?_headerList hfield]

theorem header?_ofRequest_plain (h : build scheme authority n authorization = .ok request)
    {name : String} (value : Option String) (hfield : (name, value) ∈ fields n authorization)
    (hplain : ∀ v ∈ value, Headers.isReadable v = true) :
    (GatewayRequest.ofRequest request payload).header? name = value := by
  rw [header?_ofRequest h hfield, Headers.filter_isReadable_eq_self_iff.mpr hplain]

theorem shows_of_build (h : build scheme authority n authorization = .ok request) :
    (GatewayRequest.ofRequest request payload).Shows n where
  priority := by
    rw [header?_ofRequest_plain h (some (Decimal.ofNat n.priority.code))
      (by simp [fields]) (by simp [Headers.isReadable_ofNat])]
    exact GatewayRequest.readPriority?_code n.priority
  apnsId := by
    rw [header?_ofRequest_plain h (n.apnsId.map Uuid.toText) (by simp [fields])
      (by simp [Uuid.isReadable_toText])]
    cases n.apnsId with
    | none => rfl
    | some id => exact congrArg some id.ofText?_toText
  pushType := by
    rw [header?_ofRequest_plain h (n.pushType.map PushType.name) (by simp [fields])
      (by simp [PushType.isReadable_name])]
    cases n.pushType with
    | none => rfl
    | some t => exact congrArg some t.ofName?_name
  expiration := by
    refine ⟨Protocol.expirationSeconds n.expiration, ?_, ?_⟩
    · exact header?_ofRequest_plain h (some (Protocol.expirationValue n.expiration))
        (by simp [fields]) (by simp [Protocol.expirationValue, Headers.isReadable_ofNat])
    · cases n.expiration with
      | none => rfl
      | some t =>
        simp only [Protocol.expirationSeconds, Option.elim_some]
        omega

/-- Of the device a gateway reads what stands before the first mark, of the topic and of the
collapse id nothing unless they are plain, and everything else in any case. So a request that could
be built tells all of its notification exactly if that is plain. -/
theorem built_request_tells_iff (scheme authority : String) (n : Notification)
    (authorization : Option String) (request : Request) (payload : List UInt8)
    (h : build scheme authority n authorization = .ok request) :
    let r := GatewayRequest.ofRequest request payload
    r.Shows n ∧
    r.path = Protocol.devicePath (String.ofList (Uri.beforeMark n.token.toList)) ∧
    r.header? Protocol.topicHeader = (some n.topic).filter Headers.isReadable ∧
    r.header? Protocol.collapseIdHeader = n.collapseId.filter Headers.isReadable ∧
    (r.Tells n ↔ n.IsPlain) := by
  intro r
  have hpath : r.path = Protocol.devicePath (String.ofList (Uri.beforeMark n.token.toList)) :=
    path_ofRequest h
  have htopic : r.header? Protocol.topicHeader = (some n.topic).filter Headers.isReadable :=
    header?_ofRequest h (by simp [fields])
  have hcollapse : r.header? Protocol.collapseIdHeader = n.collapseId.filter Headers.isReadable :=
    header?_ofRequest h (by simp [fields])
  refine ⟨shows_of_build h, hpath, htopic, hcollapse, ?_, ?_⟩
  · intro htells
    constructor
    case token =>
      have hsame := hpath.symm.trans htells.path
      rw [Protocol.devicePath, Protocol.devicePath, String.append_right_inj] at hsame
      have hwhole := congrArg String.toList hsame
      rw [String.toList_ofList] at hwhole
      exact Uri.beforeMark_eq_self_iff.mp hwhole
    case topic =>
      exact (Option.filter_eq_some_iff.mp (htopic.symm.trans htells.topic)).2
    case collapseId =>
      exact Headers.filter_isReadable_eq_self_iff.mp (hcollapse.symm.trans htells.collapseId)
  · intro hplain
    constructor
    case toShows => exact shows_of_build h
    case path =>
      rw [hpath, Uri.beforeMark_eq_self_iff.mpr hplain.token, String.ofList_toList]
    case topic => rw [htopic, Option.filter_some_pos hplain.topic]
    case collapseId => rw [hcollapse, Headers.filter_isReadable_eq_self_iff.mpr hplain.collapseId]

/-- A notification with all fields, a tab in its topic and an expiration before 1970. -/
theorem tells_of_voip :
    let n : Notification :=
      { token := "00fc/é%", topic := "com.example\t", payload := "", expiration := some ⟨-5, 0⟩,
        priority := .conservePower, pushType := some .voip, collapseId := some "7 ~",
        apnsId := some ⟨7⟩ }
    ∃ request, build "https" "localhost:443" n (some "bearer x") = .ok request ∧
      (GatewayRequest.ofRequest request []).Tells n := by
  intro n
  have hbuilt : (build "https" "localhost:443" n (some "bearer x")).toOption.isSome = true := by
    decide +kernel
  have hplain : n.IsPlain := by
    constructor
    case token => exact Uri.beforeMark_eq_self_iff.mp (by decide +kernel)
    all_goals decide +kernel
  cases h : build "https" "localhost:443" n (some "bearer x") with
  | error e =>
    rw [h] at hbuilt
    cases hbuilt
  | ok request =>
    obtain ⟨-, -, -, -, htells⟩ :=
      built_request_tells_iff "https" "localhost:443" n (some "bearer x") request [] h
    exact ⟨request, rfl, htells.mpr hplain⟩

/-- Marks in a device send a notification to another device, and a letter outside ASCII loses the
topic. -/
theorem request_not_always_tells :
    let device (token : String) : Notification :=
      ⟨token, "t", "", none, .immediate, none, none, none⟩
    let named (topic : String) : Notification :=
      ⟨"ab", topic, "", none, .immediate, none, none, none⟩
    let arrived (n : Notification) : Option GatewayRequest :=
      (build "https" "gateway.example" n none).toOption.map fun r => .ofRequest r []
    (arrived (device "ab?c")).map GatewayRequest.path = some "/3/device/ab" ∧
    (arrived (device "ab#c")).map GatewayRequest.path = some "/3/device/ab" ∧
    (arrived (named "é")).map (GatewayRequest.header? Protocol.topicHeader) = some none ∧
    ¬ ∀ (scheme authority : String) (n : Notification) (authorization : Option String)
      (request : Request) (payload : List UInt8),
      build scheme authority n authorization = .ok request →
        (GatewayRequest.ofRequest request payload).Tells n := by
  intro device named arrived
  have hcut : (arrived (device "ab?c")).map GatewayRequest.path = some "/3/device/ab" := by
    decide +kernel
  refine ⟨hcut, by decide +kernel, by decide +kernel, ?_⟩
  intro h
  cases hbuilt : build "https" "gateway.example" (device "ab?c") none with
  | error e =>
    simp only [arrived, hbuilt] at hcut
    cases hcut
  | ok request =>
    have htells := h "https" "gateway.example" (device "ab?c") none request [] hbuilt
    simp only [arrived, hbuilt, Except.toOption, Option.map_some, htells.path] at hcut
    exact absurd hcut (by decide)

end Request

end PushDelivery
