import PushDelivery.Proofs.GatekeeperStep
import PushDelivery.Proofs.ShownTokens

namespace PushDelivery

theorem Instant.lt_iff {t u : Instant} :
    t.lt u = true ↔ t.seconds < u.seconds ∨ t.seconds = u.seconds ∧ t.nanos < u.nanos := by
  simp [lt]

theorem Instant.addSeconds?_eq_none_iff {t : Instant} {s : Nat} :
    t.addSeconds? s = none ↔ maxSeconds < t.seconds + s := by
  unfold addSeconds?
  split
  · simp only [reduceCtorEq, false_iff]
    omega
  · simp only [true_iff]
    omega

namespace Token

/-- Whether a token was issued more than an hour before. -/
def IsStale (t : Token) (now : Instant) : Prop :=
  t.claims.issuedAt + 3600 < now.seconds ∨
    t.claims.issuedAt + 3600 = now.seconds ∧ 0 < now.nanos

instance (t : Token) (now : Instant) : Decidable (t.IsStale now) :=
  inferInstanceAs (Decidable (_ ∨ _))

/-- Whether the age of a token can be told: the end of its hour can be represented, and so can the
time at which it was issued, unless the clock is more than an hour past the first instant. -/
structure IsDatable (t : Token) (now : Instant) : Prop where
  span : t.claims.issuedAt + 3600 ≤ Instant.maxSeconds
  low : Instant.minSeconds ≤ t.claims.issuedAt ∨ Instant.minSeconds + 3600 < now.seconds

variable {t : Token}

theorem issuedAt_of_mem (hlow : Instant.minSeconds ≤ t.claims.issuedAt)
    (hhigh : t.claims.issuedAt ≤ Instant.maxSeconds) : t.issuedAt = ⟨t.claims.issuedAt, 0⟩ := by
  rw [issuedAt, Instant.ofSeconds?, if_pos ⟨hlow, hhigh⟩, Option.getD_some]

theorem issuedAt_of_not_mem
    (h : t.claims.issuedAt < Instant.minSeconds ∨ Instant.maxSeconds < t.claims.issuedAt) :
    t.issuedAt = .earliest := by
  rw [issuedAt, Instant.ofSeconds?, if_neg (by omega), Option.getD_none]

end Token

namespace Gatekeeper

variable {now : Instant} {t : Token}

theorem lt_eq_decide_isStale (t : Token) (now : Instant) :
    Instant.lt ⟨t.claims.issuedAt + 3600, 0⟩ now = decide (t.IsStale now) := by
  rw [Bool.eq_iff_iff, decide_eq_true_iff, Instant.lt_iff]
  exact Iff.rfl

theorem isExpired?_of_mem (hlow : Instant.minSeconds ≤ t.claims.issuedAt)
    (hspan : t.claims.issuedAt + 3600 ≤ Instant.maxSeconds) :
    isExpired? now t = some (decide (t.IsStale now)) := by
  have hend : Instant.addSeconds? ⟨t.claims.issuedAt, 0⟩ tokenLifetime =
      some ⟨t.claims.issuedAt + 3600, 0⟩ := if_pos hspan
  rw [isExpired?, Token.issuedAt_of_mem hlow (by omega), hend, Option.map_some,
    lt_eq_decide_isStale]

theorem isExpired?_of_not_mem
    (h : t.claims.issuedAt < Instant.minSeconds ∨ Instant.maxSeconds < t.claims.issuedAt)
    (hnow : Instant.minSeconds + 3600 < now.seconds) : isExpired? now t = some true := by
  have hend : Instant.earliest.addSeconds? tokenLifetime =
      some ⟨Instant.minSeconds + 3600, 0⟩ := rfl
  have hlt : Instant.lt ⟨Instant.minSeconds + 3600, 0⟩ now = true :=
    Instant.lt_iff.mpr (.inl hnow)
  rw [isExpired?, Token.issuedAt_of_not_mem h, hend, Option.map_some, hlt]

theorem isExpired?_of_isDatable (h : t.IsDatable now) :
    isExpired? now t = some (decide (t.IsStale now)) := by
  by_cases hlow : Instant.minSeconds ≤ t.claims.issuedAt
  · exact isExpired?_of_mem hlow h.span
  · have hnow := h.low.resolve_left hlow
    have hstale : t.IsStale now := .inl (by omega)
    rw [isExpired?_of_not_mem (.inl (by omega)) hnow, decide_eq_true hstale]

theorem isExpired?_eq_none_iff :
    isExpired? now t = none ↔
      Instant.maxSeconds - 3600 < t.claims.issuedAt ∧ t.claims.issuedAt ≤ Instant.maxSeconds := by
  rw [isExpired?, Option.map_eq_none_iff]
  by_cases hmem : Instant.minSeconds ≤ t.claims.issuedAt ∧ t.claims.issuedAt ≤ Instant.maxSeconds
  · rw [Token.issuedAt_of_mem hmem.1 hmem.2, Instant.addSeconds?_eq_none_iff]
    simp only [tokenLifetime]
    omega
  · have hsome : Instant.earliest.addSeconds? tokenLifetime ≠ none := by decide
    rw [Token.issuedAt_of_not_mem (by omega)]
    simp only [hsome, false_iff]
    simp only [Instant.minSeconds, Instant.maxSeconds] at hmem ⊢
    omega

/-- Whether a request is refused for an expired token. -/
def FindsExpired (gate : Gatekeeper) (g : Registry) (now : Instant) (r : GatewayRequest) : Prop :=
  ∃ x gate', gate.receive g now r = some (x, gate') ∧ x.IsExpired

theorem checkUse_isExpired_iff {grants : List Grant} {topic : String} {r : GatewayRequest}
    {expired : Bool} : (checkUse grants topic r t expired).ruling.IsExpired ↔ expired = true := by
  cases expired with
  | true => exact ⟨fun _ => rfl, fun _ => ⟨none, rfl⟩⟩
  | false => simp [(checkUse_fresh_spares grants topic r t).ruling]

variable {gate : Gatekeeper} {g : Registry} {r : GatewayRequest}

theorem receive_eq_none_iff (hw : gate.wedged = false) (ht : g.Vouches r t)
    (hteam : gate.IsFreeFor t.claims.teamId) :
    gate.receive g now r = none ↔ isExpired? now t = none := by
  obtain ⟨grants, topic, -, -, hreceive⟩ := receive_of_vouches hw ht hteam now
  rw [hreceive, Option.map_eq_none_iff]

theorem findsExpired_iff (hw : gate.wedged = false) (ht : g.Vouches r t)
    (hteam : gate.IsFreeFor t.claims.teamId) :
    gate.FindsExpired g now r ↔ isExpired? now t = some true := by
  obtain ⟨grants, topic, -, -, hreceive⟩ := receive_of_vouches hw ht hteam now
  rw [FindsExpired, hreceive]
  cases isExpired? now t with
  | none => simp
  | some expired => simp [checkUse_isExpired_iff]

theorem isExpired?_eq_true_iff (hlow : 0 ≤ now.seconds) (hhigh : now.seconds ≤ Instant.maxSeconds) :
    isExpired? now t = some true ↔
      t.IsStale now ∨ Instant.maxSeconds < t.claims.issuedAt := by
  have hfirst : Instant.minSeconds + 3600 < now.seconds := by
    simp only [Instant.minSeconds]
    omega
  by_cases hspan : t.claims.issuedAt + 3600 ≤ Instant.maxSeconds
  · have hrange : ¬ Instant.maxSeconds < t.claims.issuedAt := by omega
    simp [isExpired?_of_isDatable ⟨hspan, .inr hfirst⟩, hrange]
  · have hfresh : ¬ t.IsStale now := by
      unfold Token.IsStale
      omega
    by_cases hlate : Instant.maxSeconds < t.claims.issuedAt
    · simp [isExpired?_of_not_mem (.inr hlate) hfirst, hlate]
    · have hnone : isExpired? now t = none := isExpired?_eq_none_iff.mpr (by omega)
      simp [hnone, hfresh, hlate]

/-- When the clock is past 1970, there is a ruling on a genuine token of the right team if the end
of its hour can be represented, or if not even its start can. It is found expired if it is older
than an hour, or if it is from after the last instant: what cannot be represented counts as the
earliest time there is. So of two tokens the later one is not found expired before the other,
unless it is from after the last instant. -/
theorem age_exact_until_last (hw : gate.wedged = false) (ht : g.Vouches r t)
    (hteam : gate.IsFreeFor t.claims.teamId) (hlow : 0 ≤ now.seconds)
    (hhigh : now.seconds ≤ Instant.maxSeconds)
    (hspan : t.claims.issuedAt + 3600 ≤ Instant.maxSeconds ∨
      Instant.maxSeconds < t.claims.issuedAt) :
    (∃ x gate', gate.receive g now r = some (x, gate')) ∧
    (gate.FindsExpired g now r ↔ t.IsStale now ∨ Instant.maxSeconds < t.claims.issuedAt) ∧
    ∀ u : Token, t.claims.issuedAt ≤ u.claims.issuedAt → isExpired? now t = some false →
      isExpired? now u = some true → Instant.maxSeconds < u.claims.issuedAt := by
  refine ⟨?_, (findsExpired_iff hw ht hteam).trans (isExpired?_eq_true_iff hlow hhigh), ?_⟩
  · have hsome : gate.receive g now r ≠ none := by
      rw [ne_eq, receive_eq_none_iff hw ht hteam, isExpired?_eq_none_iff]
      omega
    obtain ⟨⟨x, gate'⟩, hreceive⟩ := Option.ne_none_iff_exists'.mp hsome
    exact ⟨x, gate', hreceive⟩
  · intro u hle hfresh hexpired
    have hyoung : ¬ t.IsStale now := by
      intro hstale
      cases hfresh.symm.trans ((isExpired?_eq_true_iff hlow hhigh).mpr (.inl hstale))
    have hold := (isExpired?_eq_true_iff hlow hhigh).mp hexpired
    unfold Token.IsStale at hyoung hold
    omega

/-- A token that was issued an hour and a nanosecond before. -/
theorem age_exact_of_stale :
    let key : SigningKey := ⟨⟨1, P256.generator, publicPoint?_one⟩, "T", "K"⟩
    let device := String.ofList (List.replicate 64 'a')
    let g : Registry :=
      ⟨.token [⟨key.verificationKey, ["com.example"]⟩], [("com.example", device)], []⟩
    let t := key.tokenDated 0
    let r := GatewayRequest.showing device "com.example" t
    g.Vouches r t ∧ FindsExpired ⟨some "T", false⟩ g ⟨3600, 1⟩ r := by
  intro key device g t r
  have ht : g.Vouches r t :=
    Registry.vouches_showing rfl rfl (by decide) (by decide +kernel) (by decide)
      (by decide +kernel) ⟨by decide, by decide⟩ SigningKey.signsDated_zero
  have hexact : _ ∧ (FindsExpired ⟨some "T", false⟩ g ⟨3600, 1⟩ r ↔ _) ∧ _ :=
    age_exact_until_last (by rfl) ht (by rfl) (by decide) (by decide) (.inl (by decide))
  exact ⟨ht, hexact.2.1.mpr (.inl (by decide))⟩

/-- A token from after the last instant is found expired, though it was not issued more than an hour
before; and on one from the last second there is no ruling. -/
theorem age_not_always_exact :
    let key : SigningKey := ⟨⟨1, P256.generator, publicPoint?_one⟩, "T", "K"⟩
    let device := String.ofList (List.replicate 64 'a')
    let g : Registry :=
      ⟨.token [⟨key.verificationKey, ["com.example"]⟩], [("com.example", device)], []⟩
    let late := key.tokenDated 9223372036854775807
    let last := key.tokenDated 8210266876799
    let now : Instant := ⟨1750000000, 0⟩
    (g.Vouches (GatewayRequest.showing device "com.example" late) late ∧ ¬ late.IsStale now ∧
      FindsExpired {} g now (GatewayRequest.showing device "com.example" late)) ∧
    g.Vouches (GatewayRequest.showing device "com.example" last) last ∧
      receive {} g now (GatewayRequest.showing device "com.example" last) = none := by
  intro key device g late last now
  have hvouches (issuedAt : Int) (hrange : (key.claimsDated issuedAt).InRange)
      (hsigns : key.signsDated issuedAt = true) :
      g.Vouches (GatewayRequest.showing device "com.example" (key.tokenDated issuedAt))
        (key.tokenDated issuedAt) :=
    Registry.vouches_showing rfl rfl (by decide) (by decide +kernel) (by decide)
      (by decide +kernel) hrange hsigns
  have hlate := hvouches 9223372036854775807 ⟨by decide, by decide⟩ (by decide +kernel)
  have hlast := hvouches 8210266876799 ⟨by decide, by decide⟩ (by decide +kernel)
  refine ⟨⟨hlate, by decide, ?_⟩, hlast, ?_⟩
  · refine (findsExpired_iff (by rfl) hlate (by rfl)).mpr ?_
    exact (isExpired?_eq_true_iff (by decide) (by decide)).mpr (.inr (by decide))
  · refine (receive_eq_none_iff (by rfl) hlast (by rfl)).mpr ?_
    exact isExpired?_eq_none_iff.mpr ⟨by decide, by decide⟩

end Gatekeeper

end PushDelivery
