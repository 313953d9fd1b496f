import PushDelivery.Proofs.ReplyReading

namespace PushDelivery

namespace Instant

def floorMillis (t : Instant) : Instant :=
  { t with nanos := t.nanos / 1000000 * 1000000 }

theorem ofMillis?_millis {t : Instant} (h : t.Representable) (hleap : t.nanos < 1000000000) :
    ofMillis? t.millis = some t.floorMillis := by
  have hwhole : t.millis / 1000 = t.seconds := by
    rw [millis]
    omega
  have hpart : (t.millis % 1000).toNat = t.nanos / 1000000 := by
    rw [millis]
    omega
  rw [ofMillis?, hwhole, hpart, if_pos ⟨h.low, h.high⟩]
  rfl

theorem nanos_lt_of_ofMillis? {ms : Int} {t : Instant} (h : ofMillis? ms = some t) :
    t.nanos < 1000000000 := by
  unfold ofMillis? at h
  split at h
  · obtain rfl := Option.some.inj h
    change (ms % 1000).toNat * 1000000 < 1000000000
    omega
  · cases h

theorem millis_nonneg {t : Instant} (h : 0 ≤ t.seconds) : 0 ≤ t.millis := by
  rw [millis]
  omega

end Instant

namespace RefusalBody

theorem instantOfEpoch?_of_lt {n : Int} (hpos : 0 ≤ n) (h : n < secondsLimit) :
    instantOfEpoch? n = some ⟨n, 0⟩ := by
  have hrange : Instant.minSeconds ≤ n ∧ n ≤ Instant.maxSeconds := by
    simp only [secondsLimit, Instant.minSeconds, Instant.maxSeconds] at h ⊢
    omega
  rw [instantOfEpoch?, if_neg (Int.not_lt.mpr hpos), if_pos h, Instant.ofSeconds?, if_pos hrange]

theorem instantOfEpoch?_of_le {n : Int} (hpos : 0 ≤ n) (h : secondsLimit ≤ n) :
    instantOfEpoch? n = Instant.ofMillis? n := by
  rw [instantOfEpoch?, if_neg (Int.not_lt.mpr hpos), if_neg (Int.not_lt.mpr h)]

/-- What is read of the milliseconds of an instant is that instant, unless they are too few or the
instant is in a leap second. -/
theorem instantOfEpoch?_millis_iff {t : Instant} (h : t.Representable) (hepoch : 0 ≤ t.seconds) :
    instantOfEpoch? t.millis = some t.floorMillis ↔
      t.nanos < 1000000000 ∧ (t.millis = 0 ∨ secondsLimit ≤ t.millis) := by
  have hpos : 0 ≤ t.millis := Instant.millis_nonneg hepoch
  by_cases hlimit : t.millis < secondsLimit
  · rw [instantOfEpoch?_of_lt hpos hlimit]
    constructor
    · intro heq
      obtain ⟨hseconds, hnanos⟩ := Instant.mk.inj (Option.some.inj heq)
      rw [Instant.millis] at hseconds ⊢
      omega
    · rintro ⟨-, hzero | hmany⟩
      · have hs : t.seconds = 0 ∧ t.nanos / 1000000 = 0 := by
          rw [Instant.millis] at hzero
          omega
        rw [Instant.floorMillis, hzero, hs.1, hs.2]
      · exact absurd hlimit (Int.not_lt.mpr hmany)
  · have hmany : secondsLimit ≤ t.millis := Int.not_lt.mp hlimit
    rw [instantOfEpoch?_of_le hpos hmany]
    constructor
    · intro heq
      have hnanos : t.nanos / 1000000 * 1000000 < 1000000000 := Instant.nanos_lt_of_ofMillis? heq
      exact ⟨by omega, .inr hmany⟩
    · rintro ⟨hleap, -⟩
      exact Instant.ofMillis?_millis h hleap

/-- The reason of a refusal is read back in any case, and the time to the millisecond exactly if
its milliseconds are none or at least as many as the limit, and it is in no leap second. Below the
limit they are taken for seconds. -/
theorem time_reads_back_iff (reason : Rejection) (t : Instant) (ht : t.Representable)
    (hepoch : 0 ≤ t.seconds) :
    decode (encode reason none) = ⟨some reason.text, none⟩ ∧
    (decode (encode reason (some t))).reason = some reason.text ∧
    ((decode (encode reason (some t))).timestamp = some t.floorMillis ↔
      t.nanos < 1000000000 ∧ (t.millis = 0 ∨ secondsLimit ≤ t.millis)) ∧
    (t.millis < secondsLimit →
      (decode (encode reason (some t))).timestamp = some ⟨t.millis, 0⟩) := by
  have hnone : ∀ u ∈ (none : Option Instant), u.Representable := by
    intro u hu
    cases hu
  have hsome : ∀ u ∈ some t, u.Representable := by
    rintro u hu
    obtain rfl := Option.some.inj hu
    exact ht
  rw [decode_encode reason hnone, decode_encode reason hsome]
  refine ⟨rfl, rfl, instantOfEpoch?_millis_iff ht hepoch, ?_⟩
  exact instantOfEpoch?_of_lt (Instant.millis_nonneg hepoch)

/-- A time of November 2023, for a reason with a quote and a letter outside ASCII. -/
theorem time_of_reported :
    let t : Instant := ⟨1700000000, 123456789⟩
    t.Representable ∧ 0 ≤ t.seconds ∧
      decode (encode (.other "\"é") none) = ⟨some "\"é", none⟩ ∧
      decode (encode (.other "\"é") (some t)) = ⟨some "\"é", some ⟨1700000000, 123000000⟩⟩ := by
  intro t
  have ht : t.Representable := ⟨by decide, by decide, by decide⟩
  have hepoch : 0 ≤ t.seconds := by decide
  obtain ⟨hnone, hreason, htime, -⟩ := time_reads_back_iff (.other "\"é") t ht hepoch
  have hfloor : t.floorMillis = ⟨1700000000, 123000000⟩ := by decide
  rw [hfloor] at htime
  refine ⟨ht, hepoch, hnone, ?_⟩
  rw [RefusalBody.mk.injEq]
  exact ⟨hreason, htime.mpr ⟨by decide, .inr (by decide)⟩⟩

/-- A time of the first seconds of 1970 is read as another one, and so is a leap second. -/
theorem time_not_always_read :
    decode (encode .unregistered (some ⟨1, 0⟩)) = ⟨some "Unregistered", some ⟨1000, 0⟩⟩ ∧
    decode (encode .unregistered (some ⟨1483228799, 1500000000⟩)) =
      ⟨some "Unregistered", some ⟨1483228800, 500000000⟩⟩ ∧
    ¬ ∀ (reason : Rejection) (t : Instant), t.Representable → 0 ≤ t.seconds →
      decode (encode reason (some t)) = ⟨some reason.text, some t.floorMillis⟩ := by
  have hearly : decode (encode .unregistered (some ⟨1, 0⟩)) =
      ⟨some "Unregistered", some ⟨1000, 0⟩⟩ := by decide +kernel
  refine ⟨hearly, by decide +kernel, ?_⟩
  intro h
  have hread := h .unregistered ⟨1, 0⟩ ⟨by decide, by decide, by decide⟩ (by decide)
  rw [hearly] at hread
  exact absurd hread (by decide)

end RefusalBody

end PushDelivery
