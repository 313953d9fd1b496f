import PushDelivery.Proofs.GatekeeperStep
import PushDelivery.Proofs.MintedTokens
import Mathlib.Data.List.Induction

namespace PushDelivery

abbrev Record := List (GatewayRequest × Ruling)

namespace Gatekeeper

variable {g : Registry} {gate last : Gatekeeper} {record : Record}
  {events : List (Instant × GatewayRequest)}

/-- Judges requests one after another, each at a time of its own; clocks may go back. -/
def receiveAll (g : Registry) :
    Gatekeeper → List (Instant × GatewayRequest) → Option (Record × Gatekeeper)
  | gate, [] => some ([], gate)
  | gate, e :: rest =>
    (gate.receive g e.1 e.2).bind fun (x, next) =>
      (receiveAll g next rest).map fun (record, last) => ((e.2, x) :: record, last)

theorem receiveAll_of_receive {e : Instant × GatewayRequest} {x : Ruling} {next : Gatekeeper}
    (h : gate.receive g e.1 e.2 = some (x, next)) :
    receiveAll g gate (e :: events) =
      (receiveAll g next events).map fun run => ((e.2, x) :: run.1, run.2) := by
  rw [receiveAll, h]
  rfl

theorem receiveAll_cons {e : Instant × GatewayRequest}
    (h : receiveAll g gate (e :: events) = some (record, last)) :
    ∃ x next rest, gate.receive g e.1 e.2 = some (x, next) ∧
      receiveAll g next events = some (rest, last) ∧ record = (e.2, x) :: rest := by
  obtain ⟨⟨x, next⟩, hfirst, hmap⟩ := Option.bind_eq_some_iff.mp h
  obtain ⟨⟨rest, last'⟩, hrest, hsame⟩ := Option.map_eq_some_iff.mp hmap
  obtain ⟨rfl, rfl⟩ := Prod.mk.inj hsame
  exact ⟨x, next, rest, hfirst, hrest, rfl⟩

theorem receiveAll_append {earlier later : List (Instant × GatewayRequest)}
    (h : receiveAll g gate (earlier ++ later) = some (record, last)) :
    ∃ past mid future, receiveAll g gate earlier = some (past, mid) ∧
      receiveAll g mid later = some (future, last) ∧ record = past ++ future := by
  induction earlier generalizing gate record with
  | nil => exact ⟨[], gate, record, rfl, h, rfl⟩
  | cons e earlier ih =>
    obtain ⟨x, next, rest, hfirst, hrest, rfl⟩ := receiveAll_cons h
    obtain ⟨past, mid, future, hpast, hfuture, rfl⟩ := ih hrest
    refine ⟨(e.2, x) :: past, mid, future, ?_, hfuture, rfl⟩
    rw [receiveAll_of_receive hfirst, hpast, Option.map_some]

theorem requests_of_receiveAll (h : receiveAll g gate events = some (record, last)) :
    record.map Prod.fst = events.map Prod.snd := by
  induction events generalizing gate record with
  | nil =>
    obtain ⟨rfl, -⟩ := Prod.mk.inj (Option.some.inj h)
    rfl
  | cons e events ih =>
    obtain ⟨x, next, rest, -, hrest, rfl⟩ := receiveAll_cons h
    rw [List.map_cons, List.map_cons, ih hrest]

theorem receive_of_mem (h : receiveAll g gate events = some (record, last))
    {e : GatewayRequest × Ruling} (he : e ∈ record) :
    ∃ before now after, receive before g now e.1 = some (e.2, after) := by
  induction events generalizing gate record with
  | nil =>
    obtain ⟨rfl, -⟩ := Prod.mk.inj (Option.some.inj h)
    exact absurd he List.not_mem_nil
  | cons d events ih =>
    obtain ⟨x, next, rest, hfirst, hrest, rfl⟩ := receiveAll_cons h
    rcases List.mem_cons.mp he with rfl | he
    · exact ⟨gate, d.1, next, hfirst⟩
    · exact ih hrest he

/-- Every request gets its ruling if the lives of genuine tokens end in time. -/
theorem receiveAll_isSome (gate : Gatekeeper)
    (h : ∀ e ∈ events, ∀ t, g.Vouches e.2 t → (t.issuedAt.addSeconds? tokenLifetime).isSome) :
    (receiveAll g gate events).isSome := by
  induction events generalizing gate with
  | nil => rfl
  | cons e events ih =>
    obtain ⟨x, next, hfirst⟩ := exists_receive gate e.1 (h e List.mem_cons_self)
    rw [receiveAll_of_receive hfirst, Option.isSome_map]
    exact ih next fun f hf => h f (List.mem_cons_of_mem e hf)

/-- A connection never changes its team. -/
theorem team_of_receiveAll (h : receiveAll g gate events = some (record, last)) {team : String}
    (hteam : gate.team = some team) : last.team = some team := by
  induction events generalizing gate record with
  | nil =>
    obtain ⟨-, rfl⟩ := Prod.mk.inj (Option.some.inj h)
    exact hteam
  | cons e events ih =>
    obtain ⟨x, next, rest, hfirst, hrest, -⟩ := receiveAll_cons h
    exact ih hrest ((judges_of_receive hfirst).team_of_team hteam)

theorem expired_of_receiveAll (h : receiveAll g gate events = some (record, last))
    (hwedged : gate.wedged = true) : last.wedged = true ∧ ∀ e ∈ record, e.2.IsExpired := by
  induction events generalizing gate record with
  | nil =>
    obtain ⟨rfl, rfl⟩ := Prod.mk.inj (Option.some.inj h)
    exact ⟨hwedged, fun e he => absurd he List.not_mem_nil⟩
  | cons e events ih =>
    obtain ⟨x, next, rest, hfirst, hrest, rfl⟩ := receiveAll_cons h
    have hjudges := judges_of_receive hfirst
    obtain ⟨hlast, hall⟩ := ih hrest (hjudges.wedged_iff.mpr (.inl hwedged))
    exact ⟨hlast, List.forall_mem_cons.mpr ⟨hjudges.expired_of_wedged hwedged, hall⟩⟩

end Gatekeeper

theorem append_singleton_eq_iff {α : Type} {xs before after : List α} {a b : α} :
    xs ++ [a] = before ++ b :: after ↔
      xs = before ∧ a = b ∧ after = [] ∨
        ∃ rest, after = rest ++ [a] ∧ xs = before ++ b :: rest := by
  constructor
  · intro h
    rcases List.eq_nil_or_concat after with rfl | ⟨rest, c, rfl⟩
    · obtain ⟨hxs, hlast⟩ := List.append_inj' h rfl
      exact .inl ⟨hxs, List.singleton_inj.mp hlast, rfl⟩
    · rw [List.concat_eq_append, ← List.cons_append, ← List.append_assoc] at h
      obtain ⟨hxs, hlast⟩ := List.append_inj' h rfl
      rw [← List.singleton_inj.mp hlast]
      exact .inr ⟨rest, List.concat_eq_append, hxs⟩
  · rintro (⟨rfl, rfl, rfl⟩ | ⟨rest, rfl, rfl⟩)
    · rfl
    · simp

namespace Registry

variable {g : Registry} {record : Record} {team : String}

/-- Whether no token was found expired so far and nobody has shown a genuine one. -/
def IsQuiet (g : Registry) (record : Record) : Prop :=
  ∀ e ∈ record, ¬ e.2.IsExpired ∧ ∀ t, ¬ g.Vouches e.1 t

/-- Whether the first genuine token was one of the team, and nothing was found expired before. -/
def IsClaimed (g : Registry) (record : Record) (team : String) : Prop :=
  ∃ before e after t, record = before ++ e :: after ∧ g.IsQuiet before ∧ g.Vouches e.1 t ∧
    t.claims.teamId = team

theorem isQuiet_snoc {e : GatewayRequest × Ruling} :
    g.IsQuiet (record ++ [e]) ↔
      g.IsQuiet record ∧ ¬ e.2.IsExpired ∧ ∀ t, ¬ g.Vouches e.1 t := by
  simp only [IsQuiet, List.forall_mem_append, List.forall_mem_singleton]

theorem isClaimed_snoc {e : GatewayRequest × Ruling} :
    g.IsClaimed (record ++ [e]) team ↔ g.IsClaimed record team ∨
      g.IsQuiet record ∧ ∃ t, g.Vouches e.1 t ∧ t.claims.teamId = team := by
  constructor
  · rintro ⟨before, f, after, t, heq, hquiet, ht, hteam⟩
    rcases append_singleton_eq_iff.mp heq with ⟨rfl, rfl, rfl⟩ | ⟨rest, rfl, rfl⟩
    · exact .inr ⟨hquiet, t, ht, hteam⟩
    · exact .inl ⟨before, f, rest, t, rfl, hquiet, ht, hteam⟩
  · rintro (⟨before, f, after, t, rfl, hquiet, ht, hteam⟩ | ⟨hquiet, t, ht, hteam⟩)
    · exact ⟨before, f, after ++ [e], t, by simp, hquiet, ht, hteam⟩
    · exact ⟨record, e, [], t, rfl, hquiet, ht, hteam⟩

end Registry

namespace Gatekeeper

variable {g : Registry} {gate : Gatekeeper} {record : Record}
  {events : List (Instant × GatewayRequest)}

/-- What is remembered is what the record says. -/
structure Remembers (g : Registry) (record : Record) (gate : Gatekeeper) : Prop where
  team : ∀ team, gate.team = some team ↔ g.IsClaimed record team
  free : gate.team = none ↔ g.IsQuiet record
  wedged : gate.wedged = true ↔ ∃ e ∈ record, e.2.IsExpired
  /-- Once a token was found expired, so was everything after it. -/
  closed : record.Pairwise fun e f => e.2.IsExpired → f.2.IsExpired
  /-- Where tokens are asked for, all that was accepted came with tokens of one team. -/
  accepted : ∀ grants, g.authentication = .token grants → ∀ e ∈ record, e.2 = .accepted →
    ∃ t, g.Vouches e.1 t ∧ gate.team = some t.claims.teamId

theorem Remembers.start (g : Registry) : Remembers g [] {} where
  team team := by
    constructor
    · intro h
      cases h
    · rintro ⟨before, e, after, t, heq, -⟩
      cases (List.append_eq_nil_iff.mp heq.symm).2
  free := ⟨fun _ _ he => absurd he List.not_mem_nil, fun _ => rfl⟩
  wedged := by simp
  closed := .nil
  accepted _ _ e he := absurd he List.not_mem_nil

theorem Remembers.wedged_eq_false (h : Remembers g record gate) (hquiet : g.IsQuiet record) :
    gate.wedged = false := by
  rw [Bool.eq_false_iff]
  intro hwedged
  obtain ⟨e, he, hexpired⟩ := h.wedged.mp hwedged
  exact (hquiet e he).1 hexpired

theorem Remembers.isQuiet_iff (h : Remembers g record gate) :
    gate.wedged = false ∧ gate.team = none ↔ g.IsQuiet record := by
  constructor
  · rintro ⟨-, hfree⟩
    exact h.free.mp hfree
  · intro hquiet
    exact ⟨h.wedged_eq_false hquiet, h.free.mpr hquiet⟩

theorem Remembers.snoc {now : Instant} {r : GatewayRequest} {x : Ruling} {next : Gatekeeper}
    (h : Remembers g record gate) (hjudges : Judges g gate now r x next) :
    Remembers g (record ++ [(r, x)]) next := by
  constructor
  case team =>
    intro team
    rw [hjudges.team_iff, Registry.isClaimed_snoc, h.team team, ← h.isQuiet_iff, and_assoc]
  case free =>
    have hopen : gate.team = none → gate.wedged = false := by
      intro hnone
      exact h.wedged_eq_false (h.free.mp hnone)
    rw [hjudges.none_iff hopen, Registry.isQuiet_snoc, h.free]
  case wedged =>
    rw [hjudges.wedged_iff, h.wedged]
    simp [or_and_right, exists_or]
  case closed =>
    refine List.pairwise_append.mpr ⟨h.closed, List.pairwise_singleton _ _, ?_⟩
    intro e he f hf hexpired
    rw [List.mem_singleton.mp hf]
    exact hjudges.expired_of_wedged (h.wedged.mpr ⟨e, he, hexpired⟩)
  case accepted =>
    intro grants hauth e he haccepted
    rcases List.mem_append.mp he with he | he
    · obtain ⟨t, ht, hold⟩ := h.accepted grants hauth e he haccepted
      exact ⟨t, ht, hjudges.team_of_team hold⟩
    · obtain rfl := List.mem_singleton.mp he
      obtain rfl : x = .accepted := haccepted
      exact hjudges.team_of_accepted hauth

theorem remembers_of_receiveAll (h : receiveAll g {} events = some (record, gate)) :
    Remembers g record gate := by
  -- A record grows at its end, so the last request is split off and not the first.
  induction events using List.reverseRecOn generalizing record gate with
  | nil =>
    obtain ⟨rfl, rfl⟩ := Prod.mk.inj (Option.some.inj h)
    exact .start g
  | append_singleton events e ih =>
    obtain ⟨past, mid, future, hpast, hfuture, rfl⟩ := receiveAll_append h
    obtain ⟨x, next, rest, hfirst, hrest, rfl⟩ := receiveAll_cons hfuture
    obtain ⟨rfl, rfl⟩ := Prod.mk.inj (Option.some.inj hrest)
    exact (ih hpast).snoc (judges_of_receive hfirst)

theorem receiveAll_certificate {base : String} (hauth : g.authentication = .certificate base)
    (hopen : gate.wedged = false) (events : List (Instant × GatewayRequest)) :
    receiveAll g gate events =
      some ((events.map Prod.snd).map fun r => (r, (g.checkCertified base r).ruling), gate) := by
  induction events with
  | nil => rfl
  | cons e events ih =>
    have hfirst : gate.receive g e.1 e.2 = some ((g.checkCertified base e.2).ruling, gate) :=
      receive_same hopen (check_certificate hauth) (g.checkCertified_spares base e.2)
    rw [receiveAll_of_receive hfirst, ih, Option.map_some]
    rfl

/-- Whatever requests come at whatever times, there is a ruling on each, unless the life of a
genuine token goes past the last instant; at any time what is remembered is what has happened, the
team stays the same from then on, and after an expired token all that follows is refused for one.
Whoever has no genuine token for the connection changes nothing, at any time and in any state. And
with a certificate nothing is ever remembered, so that requests in another order get their rulings
in that order. -/
theorem history_remembered (g : Registry) :
    (∀ events : List (Instant × GatewayRequest),
      (∀ e ∈ events, ∀ t, g.Vouches e.2 t → (t.issuedAt.addSeconds? tokenLifetime).isSome) →
      (receiveAll g {} events).isSome) ∧
    (∀ earlier later record last, receiveAll g {} (earlier ++ later) = some (record, last) →
      ∃ past gate future, receiveAll g {} earlier = some (past, gate) ∧
        receiveAll g gate later = some (future, last) ∧ record = past ++ future ∧
        past.map Prod.fst = earlier.map Prod.snd ∧ future.map Prod.fst = later.map Prod.snd ∧
        Remembers g past gate ∧ (∀ team, gate.team = some team → last.team = some team) ∧
        (gate.wedged = true → last.wedged = true ∧ ∀ e ∈ future, e.2.IsExpired)) ∧
    (∀ gate now r, (∀ t, g.Vouches r t → ¬ IsFreeFor gate t.claims.teamId) →
      ∃ x, receive gate g now r = some (x, gate)) ∧
    ∀ base, g.authentication = .certificate base →
      ∀ events shuffled : List (Instant × GatewayRequest),
        (events.map Prod.snd).Perm (shuffled.map Prod.snd) →
        ∃ record record', receiveAll g {} events = some (record, {}) ∧
          receiveAll g {} shuffled = some (record', {}) ∧ record.Perm record' := by
  refine ⟨fun _ => receiveAll_isSome {}, ?_, fun gate now _ => receive_of_stranger gate now, ?_⟩
  · intro earlier later record last h
    obtain ⟨past, gate, future, hpast, hfuture, hrecord⟩ := receiveAll_append h
    exact ⟨past, gate, future, hpast, hfuture, hrecord, requests_of_receiveAll hpast,
      requests_of_receiveAll hfuture, remembers_of_receiveAll hpast,
      fun _ => team_of_receiveAll hfuture, expired_of_receiveAll hfuture⟩
  · intro base hauth events shuffled hperm
    exact ⟨_, _, receiveAll_certificate hauth rfl events, receiveAll_certificate hauth rfl shuffled,
      hperm.map _⟩

/-- A request without a token leaves a new connection as it was. The next one claims it for its team
and closes it, by an expired token of a key without topics, and what follows is refused. With a
certificate in place of tokens the two can come in either order. -/
theorem history_of_stale_token :
    let key : SigningKey := ⟨⟨1, P256.generator, publicPoint?_one⟩, "T", "K"⟩
    let device := String.ofList (List.replicate 64 'a')
    let byToken : Registry := ⟨.token [⟨key.verificationKey, []⟩], [("com.example", device)], []⟩
    let byCertificate : Registry := { byToken with authentication := .certificate "com.example" }
    let value := ((Token.mint key ⟨0, 0⟩ 1).toOption.map Token.authorization).getD []
    let bare : GatewayRequest :=
      ⟨"POST", "/3/device/" ++ device, ⟨[(Protocol.topicHeader, "com.example")]⟩, [0x7B]⟩
    let signed : GatewayRequest := { bare with
      headers := ⟨(Protocol.authorizationHeader, String.ofList value) :: bare.headers.entries⟩ }
    let late : Instant := ⟨3601, 0⟩
    (∃ past gate future last,
      receiveAll byToken {} [(late, bare), (late, signed)] = some (past, gate) ∧
      receiveAll byToken gate [(⟨0, 0⟩, bare)] = some (future, last) ∧
      Remembers byToken past gate ∧ gate = ⟨some "T", true⟩ ∧ last = gate ∧
      ∀ e ∈ future, e.2.IsExpired) ∧
    (∃ x, receive {} byToken late bare = some (x, {})) ∧
    ∃ record record',
      receiveAll byCertificate {} [(late, bare), (late, signed)] = some (record, {}) ∧
      receiveAll byCertificate {} [(late, signed), (late, bare)] = some (record', {}) ∧
      record.Perm record' := by
  intro key device byToken byCertificate value bare signed late
  obtain ⟨hruns, hsplits, hstranger, -⟩ := history_remembered byToken
  obtain ⟨-, -, -, hshuffled⟩ := history_remembered byCertificate
  have ⟨hread, hgate⟩ :
      (signed.tokenText?.bind fun text => (Token.parse text).toOption).map Token.issuedAt =
        some ⟨0, 0⟩ ∧
      (receiveAll byToken {} [(late, bare), (late, signed)]).map Prod.snd =
        some ⟨some "T", true⟩ := by
    decide +kernel
  have hbare : ∀ t, ¬ byToken.Vouches bare t := by
    rintro t ⟨-, grants, text, known, -, htext, -⟩
    have hnone : bare.tokenText? = none := by decide +kernel
    cases hnone.symm.trans htext
  have hsigned : ∀ t, byToken.Vouches signed t → t.issuedAt = ⟨0, 0⟩ := by
    rintro t ⟨-, grants, text, known, -, htext, hparse, -⟩
    rw [htext, Option.bind_some, hparse] at hread
    exact Option.some.inj hread
  have hsome := hruns ([(late, bare), (late, signed)] ++ [(⟨0, 0⟩, bare)]) (by
    intro e he t ht
    simp only [List.cons_append, List.nil_append, List.mem_cons, List.not_mem_nil, or_false] at he
    rcases he with rfl | rfl | rfl
    · exact absurd ht (hbare t)
    · rw [hsigned t ht]
      decide
    · exact absurd ht (hbare t))
  obtain ⟨⟨record, last⟩, hrun⟩ := Option.isSome_iff_exists.mp hsome
  obtain ⟨past, gate, future, hpast, hfuture, -, -, -, hremembers, hkept, hclosed⟩ :=
    hsplits _ _ _ _ hrun
  obtain rfl : gate = ⟨some "T", true⟩ := by
    rw [hpast] at hgate
    exact Option.some.inj hgate
  obtain ⟨hwedged, hexpired⟩ := hclosed rfl
  have hlast : last = ⟨some "T", true⟩ := by
    obtain ⟨team, wedged⟩ := last
    obtain rfl : team = some "T" := hkept "T" rfl
    obtain rfl : wedged = true := hwedged
    rfl
  exact ⟨⟨past, _, future, last, hpast, hfuture, hremembers, rfl, hlast, hexpired⟩,
    hstranger {} late bare fun t ht => absurd ht (hbare t),
    hshuffled "com.example" rfl _ _ (.swap _ _ _)⟩

end Gatekeeper

end PushDelivery
