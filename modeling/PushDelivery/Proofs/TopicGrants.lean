import PushDelivery.Proofs.AuthorizationReading
import PushDelivery.Proofs.GatekeeperHistory
import PushDelivery.Proofs.TokenAge

namespace PushDelivery

namespace Provision

variable {told : List Provision} {key : VerificationKey} {topic : String}

def Grants (told : List Provision) (key : VerificationKey) (topic : String) : Prop :=
  ∃ topics, .trust ⟨key, topics⟩ ∈ told ∧ topic ∈ topics

/-- Whether a key is the last one with its id. -/
def IsCurrent (told : List Provision) (key : VerificationKey) : Prop :=
  ∃ before topics after, told = before ++ .trust ⟨key, topics⟩ :: after ∧
    ∀ x : Grant, .trust x ∈ after → x.key.keyId ≠ key.keyId

theorem grants_snoc {p : Provision} :
    Grants (told ++ [p]) key topic ↔
      Grants told key topic ∨ ∃ topics, p = .trust ⟨key, topics⟩ ∧ topic ∈ topics := by
  simp only [Grants, List.mem_append, List.mem_singleton, or_and_right, exists_or,
    eq_comm (a := p)]

theorem isCurrent_snoc {p : Provision} :
    IsCurrent (told ++ [p]) key ↔ (∃ topics, p = .trust ⟨key, topics⟩) ∨
      IsCurrent told key ∧ ∀ x : Grant, p = .trust x → x.key.keyId ≠ key.keyId := by
  constructor
  · rintro ⟨before, topics, after, heq, hlast⟩
    rcases append_singleton_eq_iff.mp heq with ⟨rfl, rfl, rfl⟩ | ⟨rest, rfl, rfl⟩
    · exact .inl ⟨topics, rfl⟩
    · refine .inr ⟨⟨before, topics, rest, rfl, fun x hx => hlast x (by simp [hx])⟩, ?_⟩
      rintro x rfl
      exact hlast x (by simp)
  · rintro (⟨topics, rfl⟩ | ⟨⟨before, topics, after, rfl, hlast⟩, hp⟩)
    · exact ⟨told, topics, [], rfl, fun x hx => absurd hx List.not_mem_nil⟩
    · refine ⟨before, topics, after ++ [p], by simp, fun x hx => ?_⟩
      rcases List.mem_append.mp hx with hx | hx
      · exact hlast x hx
      · exact hp x (List.mem_singleton.mp hx).symm

theorem grants_snoc_trust {x : Grant} :
    Grants (told ++ [.trust x]) key topic ↔
      Grants told key topic ∨ x.key = key ∧ topic ∈ x.topics := by
  rw [grants_snoc]
  refine or_congr_right ⟨?_, ?_⟩
  · rintro ⟨topics, heq, htopic⟩
    obtain rfl := Provision.trust.inj heq
    exact ⟨rfl, htopic⟩
  · rintro ⟨rfl, htopic⟩
    exact ⟨x.topics, rfl, htopic⟩

theorem isCurrent_snoc_trust {x : Grant} :
    IsCurrent (told ++ [.trust x]) key ↔
      x.key = key ∨ IsCurrent told key ∧ x.key.keyId ≠ key.keyId := by
  rw [isCurrent_snoc]
  refine or_congr ⟨?_, ?_⟩ (and_congr_right' ⟨fun h => h x rfl, ?_⟩)
  · rintro ⟨topics, heq⟩
    obtain rfl := Provision.trust.inj heq
    rfl
  · rintro rfl
    exact ⟨x.topics, rfl⟩
  · rintro hne y heq
    obtain rfl := Provision.trust.inj heq
    exact hne

end Provision

open Provision

namespace Authentication

variable {told : List Provision} {grants : List Grant} {x : Grant} {id topic : String}

theorem key?_snoc : key? (grants ++ [x]) id = if x.key.keyId = id then some x.key
    else key? grants id := by
  rw [key?, List.reverse_append, List.reverse_singleton, List.singleton_append]
  by_cases h : x.key.keyId = id
  · rw [if_pos h, List.find?_cons_of_pos (by simpa using h), Option.map_some]
  · rw [if_neg h, List.find?_cons_of_neg (by simpa using h), key?]

theorem mem_topicsOf_snoc : topic ∈ topicsOf (grants ++ [x]) id ↔
    topic ∈ topicsOf grants id ∨ x.key.keyId = id ∧ topic ∈ x.topics := by
  simp only [topicsOf, List.filter_append, List.flatMap_append, List.mem_append]
  by_cases h : x.key.keyId = id <;> simp [h]

/-- What is known of keys and topics is what was told. -/
structure Reflects (told : List Provision) (grants : List Grant) : Prop where
  keys : ∀ id key, key? grants id = some key ↔ key.keyId = id ∧ IsCurrent told key
  topics : ∀ id topic, topic ∈ topicsOf grants id ↔
    ∃ key : VerificationKey, key.keyId = id ∧ Grants told key topic

theorem Reflects.start : Reflects [] [] where
  keys id key := by
    simp [key?, IsCurrent]
  topics id topic := by
    simp [topicsOf, Grants]

theorem Reflects.trust (h : Reflects told grants) (x : Grant) :
    Reflects (told ++ [.trust x]) (grants ++ [x]) where
  keys id key := by
    rw [key?_snoc, isCurrent_snoc_trust]
    split
    · rename_i hid
      constructor
      · intro heq
        obtain rfl := Option.some.inj heq
        exact ⟨hid, .inl rfl⟩
      · rintro ⟨hkey, rfl | ⟨-, hne⟩⟩
        · rfl
        · exact absurd (hid.trans hkey.symm) hne
    · rename_i hid
      rw [h.keys]
      refine and_congr_right fun hkey => ⟨fun hcurrent => .inr ⟨hcurrent, ?_⟩, ?_⟩
      · rwa [hkey]
      · rintro (rfl | ⟨hcurrent, -⟩)
        · exact absurd hkey hid
        · exact hcurrent
  topics id topic := by
    rw [mem_topicsOf_snoc, h.topics]
    simp only [grants_snoc_trust, and_or_left, exists_or]
    refine or_congr_right ⟨?_, ?_⟩
    · rintro ⟨hid, htopic⟩
      exact ⟨x.key, hid, rfl, htopic⟩
    · rintro ⟨_, hid, rfl, htopic⟩
      exact ⟨hid, htopic⟩

theorem Reflects.other (h : Reflects told grants) {p : Provision} (hp : ∀ x, p ≠ .trust x) :
    Reflects (told ++ [p]) grants where
  keys id key := by simp [h.keys, isCurrent_snoc, hp]
  topics id topic := by simp [h.topics, grants_snoc, hp]

end Authentication

/-- A gateway for tokens knows what it was told, in whatever order that was. -/
theorem Registry.reflects_provideAll (told : List Provision) :
    ∃ grants, (forTokens.provideAll told).authentication = .token grants ∧
      Authentication.Reflects told grants := by
  -- What is told last decides, so the last provision is split off.
  induction told using List.reverseRecOn with
  | nil => exact ⟨[], rfl, .start⟩
  | append_singleton told p ih =>
    obtain ⟨grants, hauth, hreflects⟩ := ih
    have hlast : forTokens.provideAll (told ++ [p]) = (forTokens.provideAll told).provide p := by
      rw [provideAll, List.foldl_append]
      rfl
    rw [hlast]
    cases p with
    | trust x => exact ⟨grants ++ [x], by simp [provide, hauth], hreflects.trust x⟩
    | device | expired => exact ⟨grants, hauth, hreflects.other fun _ => Provision.noConfusion⟩

namespace Gatekeeper

variable {told : List Provision} {g : Registry} {gate : Gatekeeper} {now : Instant}
  {r : GatewayRequest} {t : Token}

theorem accepted_iff {grants : List Grant} (hauth : g.authentication = .token grants)
    (hw : gate.wedged = false) (ht : g.Vouches r t) (hteam : gate.IsFreeFor t.claims.teamId) :
    (∃ gate', gate.receive g now r = some (.accepted, gate')) ↔
      isExpired? now t = some false ∧ r.checkPayload = .ok () ∧
        ∃ topic, r.header? Protocol.topicHeader = some topic ∧
          topic ∈ Authentication.topicsOf grants t.header.keyId := by
  obtain ⟨grants', topic, hauth', htopic, hreceive⟩ := receive_of_vouches hw ht hteam now
  obtain rfl := Authentication.token.inj (hauth'.symm.trans hauth)
  rw [hreceive, htopic]
  cases isExpired? now t with
  | none => simp
  | some expired => simp [Checked.ruling_eq_accepted_iff, checkUse_eq_ok_iff, and_comm]

theorem exists_grant_of_accepted {grants : List Grant}
    (hauth : g.authentication = .token grants) (hgrants : Authentication.Reflects told grants)
    {gate' : Gatekeeper} (h : gate.receive g now r = some (.accepted, gate')) :
    ∃ t topic key other, r.Bears t ∧ r.header? Protocol.topicHeader = some topic ∧
      t.verify key = true ∧ IsCurrent told key ∧ other.keyId = key.keyId ∧
      Grants told other topic := by
  cases judges_of_receive h with
  | unvouched _ _ _ haccepted => exact absurd rfl (haccepted grants hauth)
  | @vouched t _ hw ht hteam =>
    obtain ⟨-, -, topic, htopic, hgranted⟩ := (accepted_iff hauth hw ht hteam).mp ⟨_, h⟩
    obtain ⟨grants', -, key, hauth', -, -, hkey, hverify⟩ := ht.known
    obtain rfl := Authentication.token.inj (hauth'.symm.trans hauth)
    obtain ⟨hid, hcurrent⟩ := (hgrants.keys _ _).mp hkey
    obtain ⟨other, hother, hgranted⟩ := (hgrants.topics _ _).mp hgranted
    exact ⟨t, topic, key, other, ht.bears, htopic, hverify, hcurrent, hother.trans hid.symm,
      hgranted⟩

theorem exists_grant_of_mem {events : List (Instant × GatewayRequest)} {record : Record}
    {last : Gatekeeper}
    (hrun : receiveAll (Registry.forTokens.provideAll told) gate events = some (record, last))
    {e : GatewayRequest × Ruling} (he : e ∈ record) (haccepted : e.2 = .accepted) :
    ∃ t topic key other, e.1.Bears t ∧ e.1.header? Protocol.topicHeader = some topic ∧
      t.verify key = true ∧ IsCurrent told key ∧ other.keyId = key.keyId ∧
      Grants told other topic := by
  obtain ⟨grants, hauth, hgrants⟩ := Registry.reflects_provideAll told
  obtain ⟨before, now, after, hreceive⟩ := receive_of_mem hrun he
  rw [haccepted] at hreceive
  exact exists_grant_of_accepted hauth hgrants hreceive

end Gatekeeper

/-- Whether keys stay limited to their topics: whatever requests come on a connection, those that
are accepted come with tokens of keys that were granted the topic. -/
def Provision.KeepsTopics (told : List Provision) : Prop :=
  ∀ events record last,
    Gatekeeper.receiveAll (Registry.forTokens.provideAll told) {} events = some (record, last) →
    ∀ e ∈ record, e.2 = .accepted →
      ∃ t topic key, e.1.Bears t ∧ e.1.header? Protocol.topicHeader = some topic ∧
        t.verify key = true ∧ Grants told key topic

namespace Provision

open Gatekeeper

variable {told : List Provision}

theorem keepsTopics_of_current
    (h : ∀ key other topic, IsCurrent told key → other.keyId = key.keyId →
      Grants told other topic → Grants told key topic) : KeepsTopics told := by
  intro events record last hrun e he haccepted
  obtain ⟨t, topic, key, other, ht, htopic, hverify, hcurrent, hid, hother⟩ :=
    exists_grant_of_mem hrun he haccepted
  exact ⟨t, topic, key, ht, htopic, hverify, h key other topic hcurrent hid hother⟩

theorem keepsTopics_of_unique
    (h : ∀ x y : Grant, .trust x ∈ told → .trust y ∈ told → x.key.keyId = y.key.keyId →
      x.key = y.key) : KeepsTopics told := by
  refine keepsTopics_of_current fun key other topic hcurrent hid hother => ?_
  obtain ⟨before, topics, after, htold, -⟩ := hcurrent
  obtain ⟨topics', hmem, htopic⟩ := hother
  have hkey : .trust ⟨key, topics⟩ ∈ told := by simp [htold]
  obtain rfl : other = key := h _ _ hmem hkey hid
  exact ⟨topics', hmem, htopic⟩

/-- Whatever a gateway is told, and in whatever order, a genuine token of the right team and age is
good for the topics that were granted to any key with its key id. All that is accepted comes with a
token of the last key of an id and is for such a topic; so keys stay limited to their topics if the
last key of each id was granted all topics of the id. -/
theorem topics_by_key_id (told : List Provision) :
    (∀ events record last,
      receiveAll (Registry.forTokens.provideAll told) {} events = some (record, last) →
      ∀ e ∈ record, e.2 = .accepted → ∃ t topic key other, e.1.Bears t ∧
        e.1.header? Protocol.topicHeader = some topic ∧ t.verify key = true ∧
        IsCurrent told key ∧ other.keyId = key.keyId ∧ Grants told other topic) ∧
    ((∀ key other topic, IsCurrent told key → other.keyId = key.keyId →
      Grants told other topic → Grants told key topic) → KeepsTopics told) ∧
    ∀ gate now r t, gate.wedged = false → (Registry.forTokens.provideAll told).Vouches r t →
      IsFreeFor gate t.claims.teamId →
      ((∃ gate', gate.receive (Registry.forTokens.provideAll told) now r =
          some (.accepted, gate')) ↔
        isExpired? now t = some false ∧ r.checkPayload = .ok () ∧
          ∃ topic key, r.header? Protocol.topicHeader = some topic ∧
            key.keyId = t.header.keyId ∧ Grants told key topic) := by
  refine ⟨fun _ _ _ hrun _ => exists_grant_of_mem hrun, keepsTopics_of_current, ?_⟩
  intro gate now r t hw ht hteam
  obtain ⟨grants, hauth, hgrants⟩ := Registry.reflects_provideAll told
  rw [accepted_iff hauth hw ht hteam]
  simp only [hgrants.topics, exists_and_left]

/-- A key that was granted a second topic is good for both, and stays limited to them. -/
theorem topics_of_renewed_key :
    let key : SigningKey := ⟨⟨1, P256.generator, publicPoint?_one⟩, "T", "K"⟩
    let device := String.ofList (List.replicate 64 'a')
    let told : List Provision := [.trust ⟨key.verificationKey, ["a"]⟩,
      .trust ⟨key.verificationKey, ["b"]⟩, .device "a" device]
    let r := GatewayRequest.showing device "a" (key.tokenDated 0)
    KeepsTopics told ∧ ∃ gate',
      receive {} (Registry.forTokens.provideAll told) ⟨3600, 0⟩ r = some (.accepted, gate') := by
  intro key device told r
  obtain ⟨-, hkeeps, haccepted⟩ := topics_by_key_id told
  have hkey (k : VerificationKey) (topics : List String) (h : .trust ⟨k, topics⟩ ∈ told) :
      k = key.verificationKey := by
    simp only [told, List.mem_cons, trust.injEq, Grant.mk.injEq, reduceCtorEq, List.not_mem_nil,
      or_false] at h
    rcases h with ⟨hk, -⟩ | ⟨hk, -⟩ <;> exact hk
  have ht : (Registry.forTokens.provideAll told).Vouches r (key.tokenDated 0) :=
    Registry.vouches_showing rfl rfl (by decide) (by decide +kernel) (by decide)
      (by decide +kernel) ⟨by decide, by decide⟩ SigningKey.signsDated_zero
  have hage : isExpired? ⟨3600, 0⟩ (key.tokenDated 0) = some false :=
    isExpired?_of_isDatable ⟨by decide, by decide⟩
  have htopic : r.header? Protocol.topicHeader = some "a" :=
    GatewayRequest.header?_showing_topic (by decide)
  have hgrants : Grants told key.verificationKey "a" := ⟨["a"], by simp [told], by simp⟩
  refine ⟨hkeeps fun k other topic hcurrent hid hother => ?_,
    (haccepted {} ⟨3600, 0⟩ r _ rfl ht rfl).mpr ⟨hage, GatewayRequest.checkPayload_showing, "a",
      key.verificationKey, htopic, rfl, hgrants⟩⟩
  obtain ⟨before, topics, after, htold, -⟩ := hcurrent
  obtain rfl := hkey k topics (by simp [htold])
  obtain ⟨topics', hmem, htopic⟩ := hother
  obtain rfl := hkey other topics' hmem
  exact ⟨topics', hmem, htopic⟩

/-- A key becomes good for a topic that was granted to another key with its id, of another team. -/
theorem topics_not_always_kept :
    let key : SigningKey := ⟨⟨1, P256.generator, publicPoint?_one⟩, "T", "K"⟩
    let other : VerificationKey := ⟨P256.toBytes ⟨P256.generator.x, -P256.generator.y⟩, "U", "K"⟩
    let device := String.ofList (List.replicate 64 'a')
    ¬ KeepsTopics [.trust ⟨other, ["a"]⟩, .trust ⟨key.verificationKey, ["b"]⟩,
      .device "a" device] := by
  intro key other device hkeeps
  let told : List Provision :=
    [.trust ⟨other, ["a"]⟩, .trust ⟨key.verificationKey, ["b"]⟩, .device "a" device]
  let r := GatewayRequest.showing device "a" (key.tokenDated 0)
  have ht : (Registry.forTokens.provideAll told).Vouches r (key.tokenDated 0) :=
    Registry.vouches_showing rfl rfl (by decide) (by decide +kernel) (by decide)
      (by decide +kernel) ⟨by decide, by decide⟩ SigningKey.signsDated_zero
  have htopic : r.header? Protocol.topicHeader = some "a" :=
    GatewayRequest.header?_showing_topic (by decide)
  have hage : isExpired? ⟨3600, 0⟩ (key.tokenDated 0) = some false :=
    isExpired?_of_isDatable ⟨by decide, by decide⟩
  obtain ⟨gate', haccepted⟩ : ∃ gate', receive {} (Registry.forTokens.provideAll told)
      ⟨3600, 0⟩ r = some (.accepted, gate') :=
    (accepted_iff rfl rfl ht (by rfl)).mpr
      ⟨hage, GatewayRequest.checkPayload_showing, "a", htopic, by decide⟩
  have hrun : receiveAll (Registry.forTokens.provideAll told) {} [(⟨3600, 0⟩, r)] =
      some ([(r, .accepted)], gate') := by
    rw [receiveAll_of_receive (e := (⟨3600, 0⟩, r)) haccepted, receiveAll, Option.map_some]
  obtain ⟨u, topic, k, hu, htopic', hverify, topics, hmem, hgranted⟩ :=
    hkeeps _ _ _ hrun _ (List.mem_singleton_self _) rfl
  obtain rfl := hu.unique ht.bears
  obtain rfl : "a" = topic := Option.some.inj (htopic.symm.trans htopic')
  simp only [List.mem_cons, trust.injEq, Grant.mk.injEq, reduceCtorEq, List.not_mem_nil,
    or_false] at hmem
  rcases hmem with ⟨rfl, -⟩ | ⟨-, rfl⟩
  · exact absurd (Token.team_of_verify hverify) (by decide)
  · exact absurd hgranted (by decide)

end Provision

end PushDelivery
