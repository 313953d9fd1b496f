import Mathlib.Data.List.Induction
import Mathlib.Tactic.Ring
import PushDelivery.Client.Backoff

namespace PushDelivery

namespace Duration

/-- Seconds and nanoseconds may be doubled apart. What the nanoseconds come to above a second is
carried, and the seconds alone decide whether the result is too long. -/
theorem double?_ofParts (seconds nanos : Nat) : (ofParts seconds nanos).double? =
    if 2 * seconds + 2 * nanos / 1000000000 < 0x10000000000000000 then
      some (ofParts (2 * seconds + 2 * nanos / 1000000000) (2 * nanos % 1000000000))
    else none := by
  have hcarry := Nat.div_add_mod (2 * nanos) 1000000000
  have hbelow := Nat.mod_lt (2 * nanos) (show 0 < 1000000000 by omega)
  have hsame : ofParts (2 * seconds + 2 * nanos / 1000000000) (2 * nanos % 1000000000) =
      ⟨2 * (ofParts seconds nanos).nanos⟩ := by
    simp only [ofParts, mk.injEq]
    omega
  have hfits : 2 * (ofParts seconds nanos).nanos ≤ longest.nanos ↔
      2 * seconds + 2 * nanos / 1000000000 < 0x10000000000000000 := by
    simp only [ofParts, longest]
    omega
  rw [hsame, double?]
  simp only [hfits]

@[simp] theorem nanos_min (d e : Duration) : (d.min e).nanos = Min.min d.nanos e.nanos := by
  unfold min
  split
  · rename_i h
    exact (Nat.min_eq_left h).symm
  · rename_i h
    exact (Nat.min_eq_right (Nat.le_of_not_le h)).symm

end Duration

namespace Backoff

inductive Call where
  | next
  | current
  | reset
deriving DecidableEq, Repr

/-- The delay that a call returns, if it returns one, and the backoff after it. -/
def call (b : Backoff) : Call → Option Duration × Backoff
  | .next => (some b.next.1, b.next.2)
  | .current => (some b.current, b)
  | .reset => (none, b.reset)

def after (b : Backoff) (cs : List Call) : Backoff :=
  cs.foldl (fun b c => (b.call c).2) b

/-- How many failures there have been since the last success, or from the start. -/
def failures (cs : List Call) : Nat :=
  (cs.reverse.takeWhile (· != .reset)).count .next

/-- The first delay, doubled so many times and cut off at the maximum. -/
def doubled (initial max : Duration) (times : Nat) : Duration :=
  ⟨min (initial.nanos * 2 ^ times) max.nanos⟩

variable {initial max : Duration} {b : Backoff} {cs : List Call} {c : Call}

@[simp] theorem doubled_zero (h : initial.nanos ≤ max.nanos) : doubled initial max 0 = initial := by
  simp [doubled, Nat.min_eq_left h]

theorem doubled_mono {j k : Nat} (h : j ≤ k) :
    (doubled initial max j).nanos ≤ (doubled initial max k).nanos := by
  have hpow : initial.nanos * 2 ^ j ≤ initial.nanos * 2 ^ k :=
    Nat.mul_le_mul_left _ (Nat.pow_le_pow_right (by omega) h)
  simp only [doubled]
  omega

theorem doubled_bounds (h : initial.nanos ≤ max.nanos) (times : Nat) :
    initial.nanos ≤ (doubled initial max times).nanos ∧
      (doubled initial max times).nanos ≤ max.nanos := by
  have hfirst : (doubled initial max 0).nanos ≤ (doubled initial max times).nanos :=
    doubled_mono (Nat.zero_le times)
  rw [doubled_zero h] at hfirst
  exact ⟨hfirst, Nat.min_le_right _ _⟩

theorem nanos_doubled_succ (initial max : Duration) (times : Nat) :
    (doubled initial max (times + 1)).nanos =
      min (2 * (doubled initial max times).nanos) max.nanos := by
  have hpow : initial.nanos * 2 ^ (times + 1) = 2 * (initial.nanos * 2 ^ times) := by ring
  simp only [doubled, hpow]
  omega

theorem min_le_next (b : Backoff) :
    min (2 * b.current.nanos) b.max.nanos ≤ b.next.2.current.nanos := by
  simp only [next, Duration.nanos_min, Duration.double?]
  split
  · exact le_rfl
  · simp only [Option.getD_none]
    omega

/-- The doubling never loses anything: what would be too long is above the maximum anyway. -/
theorem nanos_next (h : b.max.nanos ≤ Duration.longest.nanos) :
    b.next.2.current.nanos = min (2 * b.current.nanos) b.max.nanos := by
  simp only [next, Duration.nanos_min, Duration.double?]
  split
  · rfl
  · simp only [Option.getD_none]
    omega

theorem failures_snoc (cs : List Call) (c : Call) :
    failures (cs ++ [c]) =
      match c with
      | .next => failures cs + 1
      | .current => failures cs
      | .reset => 0 := by
  cases c <;> simp [failures]

theorem after_snoc (b : Backoff) (cs : List Call) (c : Call) :
    b.after (cs ++ [c]) = ((b.after cs).call c).2 := by
  simp [after]

theorem after_append (b : Backoff) (cs more : List Call) :
    b.after (cs ++ more) = (b.after cs).after more := by
  simp [after]

theorem failures_le_append {more : List Call} (h : .reset ∉ more) (cs : List Call) :
    failures cs ≤ failures (cs ++ more) := by
  induction more using List.reverseRecOn with
  | nil => simp
  | append_singleton more c ih =>
    simp only [List.mem_append, List.mem_singleton, not_or] at h
    have hle := ih h.1
    rw [← List.append_assoc, failures_snoc]
    cases c with
    | next => exact Nat.le_succ_of_le hle
    | current => exact hle
    | reset => exact absurd rfl h.2

theorem after_start (h : initial.nanos ≤ max.nanos) (hmax : max.nanos ≤ Duration.longest.nanos)
    (cs : List Call) :
    (start initial max).after cs = ⟨initial, max, doubled initial max (failures cs)⟩ := by
  induction cs using List.reverseRecOn with
  | nil => simp [after, start, failures, h]
  | append_singleton cs c ih =>
    rw [after_snoc, failures_snoc, ih]
    cases c with
    | next =>
      have hnext := nanos_next (b := ⟨initial, max, doubled initial max (failures cs)⟩) hmax
      rw [← nanos_doubled_succ] at hnext
      simp only [call, next, mk.injEq, true_and]
      exact congrArg Duration.mk hnext
    | current => rfl
    | reset => simp [call, reset, h]

theorem le_after (h : initial.nanos ≤ max.nanos) (cs : List Call) : ∃ current,
    (start initial max).after cs = ⟨initial, max, current⟩ ∧
      (doubled initial max (failures cs)).nanos ≤ current.nanos := by
  induction cs using List.reverseRecOn with
  | nil => exact ⟨initial, rfl, (congrArg Duration.nanos (doubled_zero h)).le⟩
  | append_singleton cs c ih =>
    obtain ⟨current, hafter, hle⟩ := ih
    rw [after_snoc, failures_snoc, hafter]
    cases c with
    | next =>
      let b : Backoff := ⟨initial, max, current⟩
      refine ⟨b.next.2.current, rfl, Nat.le_trans ?_ (min_le_next b)⟩
      rw [nanos_doubled_succ]
      exact min_le_min_right _ (Nat.mul_le_mul_left 2 hle)
    | current => exact ⟨current, rfl, hle⟩
    | reset => exact ⟨initial, rfl, (congrArg Duration.nanos (doubled_zero h)).le⟩

/-- Every call that returns a delay returns the first one doubled for each failure since the last
success, in exact arithmetic, or the maximum if that is less. So the delays stay between the two
and do not exceed the longest span, they never become shorter without a success, and after a
success they begin anew. -/
theorem delay_of_failures (initial max : Duration) (horder : initial.nanos ≤ max.nanos)
    (hmax : max.nanos ≤ Duration.longest.nanos) (cs : List Call) :
    let b := (start initial max).after cs
    (∀ c, c ≠ .reset →
      (b.call c).1 = some ⟨min (initial.nanos * 2 ^ failures cs) max.nanos⟩) ∧
    (∀ c d, (b.call c).1 = some d → initial.nanos ≤ d.nanos ∧ d.nanos ≤ max.nanos ∧
      d.nanos ≤ Duration.longest.nanos) ∧
    (∀ more, .reset ∉ more → ∀ c d c' d', (b.call c).1 = some d →
      ((b.after more).call c').1 = some d' → d.nanos ≤ d'.nanos) ∧
    ∀ c, c ≠ .reset → ((b.after [.reset]).call c).1 = some initial := by
  have hreturns (cs : List Call) {c : Call} (hc : c ≠ .reset) :
      (((start initial max).after cs).call c).1 = some (doubled initial max (failures cs)) := by
    rw [after_start horder hmax]
    cases c with
    | next | current => rfl
    | reset => exact absurd rfl hc
  have hdelay (cs : List Call) {c : Call} {d : Duration}
      (hd : (((start initial max).after cs).call c).1 = some d) :
      d = doubled initial max (failures cs) := by
    cases c with
    | next | current => exact Option.some.inj (hd.symm.trans (hreturns cs (by simp)))
    | reset => cases hd
  refine ⟨fun c hc => hreturns cs hc, ?_, ?_, ?_⟩
  · intro c d hd
    obtain ⟨hfirst, hlast⟩ := doubled_bounds horder (failures cs)
    rw [hdelay cs hd]
    exact ⟨hfirst, hlast, Nat.le_trans hlast hmax⟩
  · intro more hmore c d c' d' hd hd'
    rw [← after_append] at hd'
    rw [hdelay cs hd, hdelay (cs ++ more) hd']
    exact doubled_mono (failures_le_append hmore cs)
  · intro c hc
    rw [← after_append, hreturns _ hc, failures_snoc]
    exact congrArg some (doubled_zero horder)

/-- Half of the longest span and a second, which cannot be doubled. -/
def overHalf : Duration :=
  ⟨Duration.longest.nanos / 2 + 1000000000⟩

theorem delay_of_overHalf : overHalf.double? = none ∧
    (((start overHalf .longest).after [.next]).call .current).1 = some .longest := by
  refine ⟨by decide, ?_⟩
  obtain ⟨hreturns, -⟩ := delay_of_failures overHalf .longest (by decide) le_rfl [.next]
  rw [hreturns .current (by decide)]
  decide

end Backoff

end PushDelivery
