import PushDelivery.Proofs.OneOutcome
import PushDelivery.Proofs.Evolution

namespace PushDelivery

def Place.stream? : Place → Option (Nat × Nat)
  | stream c n => some (c, n)
  | _ => none

def Holding.stream? : Holding → Option (Nat × Nat)
  | unwritten _ => none
  | written c n _ => some (c, n)

theorem Place.stream?_holding (place : Place) (p : Dispatch) :
    (place.holding p).stream? = place.stream? := by
  cases place <;> rfl

def World.streamsOf (n : Nat) (w : World) : List (Nat × Nat) :=
  (w.placesOf n).filterMap fun x => x.1.stream?

namespace Episode

def registered (n : Nat) (e : Episode) : List (Nat × Nat) :=
  (e.after.streamsOf n).filter fun x => x ∉ e.before.streamsOf n

def result? (x : Nat × Nat) (e : Episode) : Option StreamResult :=
  match e.move with
  | .connection c (.result n r) => if (c, n) = x then some r else none
  | _ => none

end Episode

/-- The streams that a notification was written on, in order. -/
def streams (n : Nat) (es : List Episode) : List (Nat × Nat) :=
  es.flatMap (Episode.registered n)

/-- How a stream ended, as often as it did. -/
def results (x : Nat × Nat) (es : List Episode) : List StreamResult :=
  es.filterMap (Episode.result? x)

@[simp] theorem streams_append (n : Nat) (es fs : List Episode) :
    streams n (es ++ fs) = streams n es ++ streams n fs :=
  List.flatMap_append

@[simp] theorem streams_one (n : Nat) (e : Episode) : streams n [e] = e.registered n :=
  List.flatMap_singleton _ _

@[simp] theorem results_append (x : Nat × Nat) (es fs : List Episode) :
    results x (es ++ fs) = results x es ++ results x fs :=
  List.filterMap_append

theorem results_one (x : Nat × Nat) (e : Episode) : results x [e] = (e.result? x).toList := by
  cases h : e.result? x <;> simp [results, h]

theorem Episode.result?_eq_some {x : Nat × Nat} {e : Episode} {r : StreamResult} :
    e.result? x = some r ↔ e.move = .connection x.1 (.result x.2 r) := by
  unfold Episode.result?
  constructor
  · intro h
    split at h
    · rename_i c n r' hm
      split at h
      · rename_i hx
        obtain rfl := Option.some.inj h
        rw [hm, ← hx]
      · cases h
    · cases h
  · intro h
    simp [h]

namespace World

theorem streamsOf_of_held {n : Nat} {w : World} {h : Holding} (hw : w.held n = {h}) :
    w.streamsOf n = h.stream?.toList := by
  rw [← coe_placesOf, Multiset.coe_eq_singleton] at hw
  obtain ⟨x, hx, rfl⟩ := List.map_eq_singleton_iff.mp hw
  rw [streamsOf, hx, Place.stream?_holding]
  cases hs : x.1.stream? <;> simp [hs]

theorem streamsOf_of_none {n : Nat} {w : World} (hw : w.held n = 0) : w.streamsOf n = [] := by
  rw [streamsOf, placesOf_eq_nil hw]
  rfl

/-- No notification can be registered on a stream any more, nor can an answer come. -/
structure Spent (x : Nat × Nat) (w : World) : Prop where
  made : w.Made x.1
  passed : ∀ c ∈ w.connections, c.id = x.1 → x.2 ≤ c.streams.highest ∧ x.2 ∉ c.inFlight

variable {s : ConnectionSettings} {w : World} {e : Episode} {x : Nat × Nat}

/-- A stream that is spent stays so: numbers of connections are not used twice, and on a connection
numbers of streams only rise. -/
theorem Spent.step (hx : w.Spent x) (hw : w.Sound s) (he : e.Follows w) : e.after.Spent x := by
  have hev := step?_evolves hw.tidy he.2
  refine ⟨hx.made.step hev, ?_⟩
  intro d hd hid
  cases hev.connections d hd with
  | @same c more there => exact hx.passed c there hid
  | @step c i moves there awaits =>
    have hc := List.mem_of_find?_eq_some there
    have hsame := (Connection.step_passes (s := w.settings) (hw.tidy.orderly c hc)
      ⟨w.time, e.date, e.secret⟩ i).same
    have hrises := Connection.step_rises (s := w.settings) ⟨w.time, e.date, e.secret⟩ c i
    obtain ⟨hle, hno⟩ := hx.passed c hc (hsame.symm.trans hid)
    refine ⟨Nat.le_trans hle hrises.highest, fun hf => ?_⟩
    rcases hrises.flight x.2 hf with hf | ⟨hlt, -⟩
    · exact hno hf
    · omega
  -- A connection that starts has a number that only an attempt had before.
  | start moves attempted =>
    obtain rfl : _ = x.1 := hid
    exact absurd attempted hx.made.given
  | drained t moves attempted =>
    rw [Connection.drainUntil_id] at hid
    obtain rfl : _ = x.1 := hid
    exact absurd attempted hx.made.given

theorem Sound.spent_of_result (hw : w.Sound s) (he : e.Follows w) (hr : results x [e] ≠ []) :
    ¬ w.Spent x ∧ e.after.Spent x := by
  obtain ⟨r, hr⟩ : ∃ r, e.result? x = some r := by
    rw [results_one] at hr
    cases h : e.result? x with
    | none => exact absurd (by rw [h]; rfl) hr
    | some r => exact ⟨r, rfl⟩
  have hstep := he.2
  rw [Episode.result?_eq_some.mp hr] at hstep
  obtain ⟨c, hc, hid, ha, hafter, -⟩ := connection_step hw.tidy hstep
  have hm := List.mem_of_find?_eq_some hc
  have hopen : x.2 ∈ c.inFlight := by
    unfold Connection.awaits at ha
    simpa using (Bool.and_eq_true_iff.mp ha).2
  have hle : x.2 ≤ c.streams.highest := by
    rw [(hw.tidy.orderly c hm).flight] at hopen
    obtain ⟨slot, hslot, hn⟩ := List.mem_map.mp hopen
    exact hn ▸ (hw.tidy.orderly c hm).streams.bounded slot hslot
  have hev := step?_evolves hw.tidy he.2
  have hmade : w.Made x.1 := hid ▸ hw.tidy.made hm
  refine ⟨fun hx => (hx.passed c hm hid).2 hopen, hmade.step hev, ?_⟩
  intro d hd hdid
  rw [hafter d hd hdid]
  obtain ⟨hs, hf⟩ := Connection.onResult_streams (s := w.settings) w.time x.2 r c
  change x.2 ≤ (c.onResult w.settings w.time x.2 r).1.streams.highest ∧
    x.2 ∉ (c.onResult w.settings w.time x.2 r).1.inFlight
  rw [hs, hf]
  exact ⟨hle, by simp⟩

theorem Sound.not_spent_of_written (hw : w.Sound s) {n : Nat} {p : Dispatch}
    (hh : w.held n = {.written x.1 x.2 p}) : ¬ w.Spent x := by
  intro hx
  have hm : Holding.written x.1 x.2 p ∈ w.held n := hh ▸ Multiset.mem_singleton_self _
  have hm := Multiset.mem_of_mem_filter hm
  rw [← coe_places, Multiset.mem_coe, List.mem_map] at hm
  obtain ⟨⟨place, q⟩, hp, heq⟩ := hm
  have hplace : place = .stream x.1 x.2 := by
    cases place <;> simp_all [Place.holding]
  subst hplace
  obtain ⟨d, hd, hslot⟩ : ∃ d ∈ w.connections, (Place.stream x.1 x.2, q) ∈ d.places := by
    simpa [places] using hp
  obtain ⟨hs, hid⟩ : (x.2, q) ∈ d.streams.slots ∧ d.id = x.1 := by
    simpa [Connection.places] using hslot
  refine (hx.passed d hd hid).2 ?_
  rw [(hw.tidy.orderly d hd).flight]
  exact List.mem_map.mpr ⟨(x.2, q), hs, rfl⟩

end World

namespace History

variable {config : ClientConfig} {es : List Episode} {w : World} {e : Episode} {x : Nat × Nat}

theorem spent_of_results (h : History config es w) (hx : results x es ≠ []) : w.Spent x := by
  unfold History at h
  induction h with
  | nil => exact absurd rfl hx
  | @snoc es v e hr he ih =>
    have hs := History.sound hr
    by_cases hb : results x es = []
    · rw [results_append, hb, List.nil_append] at hx
      exact (hs.spent_of_result he hx).2
    · exact (ih hb).step hs he

theorem ends_once (h : History config es w) (he : e.Follows w) (hx : results x es ≠ []) :
    results x (es ++ [e]) = results x es := by
  rw [results_append]
  by_contra hne
  have hr : results x [e] ≠ [] := fun hn => hne (by rw [hn, List.append_nil])
  exact (h.sound.spent_of_result he hr).1 (h.spent_of_results hx)

theorem results_le_one (h : History config es w) (x : Nat × Nat) : (results x es).length ≤ 1 := by
  have hrun := h
  unfold History at hrun
  induction hrun with
  | nil => simp [results]
  | @snoc es v e hr he ih =>
    by_cases hb : results x es = []
    · rw [results_append, hb, List.nil_append, results_one]
      cases e.result? x <;> simp
    · rw [ends_once hr he hb]
      exact ih hr

theorem results_eq_nil_of_written (h : History config es w) {n : Nat} {p : Dispatch}
    (hh : w.held n = {.written x.1 x.2 p}) : results x es = [] := by
  by_contra hx
  exact h.sound.not_spent_of_written hh (h.spent_of_results hx)

end History

end PushDelivery
