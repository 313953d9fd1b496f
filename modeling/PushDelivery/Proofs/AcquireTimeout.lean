import PushDelivery.Proofs.ConnectionQueues
import PushDelivery.Proofs.Deadlines
import PushDelivery.Proofs.OneOutcome
import PushDelivery.Proofs.Resending

namespace PushDelivery

namespace Episode

/-- The notification that comes to the pool, for the first time or handed back. -/
def entered? (e : Episode) : Option Nat :=
  (e.before.dealt? e.move).map Dispatch.id

theorem mem_writes {n c k : Nat} {p : Dispatch} {r : Request} {e : Episode}
    (h : .opened c k p r ∈ e.happenings) (hn : p.id = n) : (c, k, r) ∈ e.writes n :=
  List.mem_filterMap.mpr ⟨_, h, if_pos hn⟩

end Episode

/-- A notification has come to the pool in an episode, the last time in a run, and it has not been
written in the rest of the run. -/
structure Pending (n : Nat) (e : Episode) (post : List Episode) : Prop where
  enters : e.entered? = some n
  last : ∀ f ∈ post, f.entered? ≠ some n
  unwritten : ∀ f ∈ post, f.writes n = []

/-- Whether a connection can do nothing but wait for an input, since it comes from outside. -/
def ConnectionInput.isOutside : ConnectionInput → Bool
  | readiness _ | result _ _ | transportEnded | pingFailed => true
  | _ => false

/-- Every message and every timer that is due has been dealt with, and each connection has done what
it can do by itself and has asked for room for a stream. -/
structure World.Settled (w : World) : Prop where
  channel : w.channel = []
  timers : w.pool.ended = false → ∀ t d, w.pool.deadline? t = some d → w.time < d
  steps : ∀ c ∈ w.connections, ∀ i, c.awaits w.time i = true → w.allows i = true →
    i.isOutside = true
  asked : ∀ c ∈ w.connections, c.accepting = true → c.ready = false → c.blocked = true

def lastEntry (n : Nat) (es : List Episode) : Option Moment :=
  es.foldl (fun t e => if e.entered? = some n then some e.before.time else t) none

def writtenSince (n : Nat) (es : List Episode) : Bool :=
  es.foldl (fun b e => if e.entered? = some n then false else b || !(e.writes n).isEmpty) false

variable {config : ClientConfig} {n : Nat} {es pre post : List Episode} {e : Episode} {w : World}

theorem lastEntry_snoc (n : Nat) (es : List Episode) (e : Episode) :
    lastEntry n (es ++ [e]) = if e.entered? = some n then some e.before.time else lastEntry n es :=
  List.foldl_concat ..

theorem writtenSince_snoc (n : Nat) (es : List Episode) (e : Episode) :
    writtenSince n (es ++ [e]) =
      if e.entered? = some n then false else writtenSince n es || !(e.writes n).isEmpty :=
  List.foldl_concat ..

theorem Pending.lastEntry_eq (h : Pending n e post) (pre : List Episode) :
    lastEntry n (pre ++ [e] ++ post) = some e.before.time := by
  obtain ⟨henters, hlast, -⟩ := h
  induction post using List.reverseRecOn with
  | nil => rw [List.append_nil, lastEntry_snoc, if_pos henters]
  | append_singleton post f ih =>
    rw [← List.append_assoc, lastEntry_snoc, if_neg (hlast f (by simp))]
    exact ih fun g hg => hlast g (List.mem_append_left _ hg)

theorem Pending.not_written (h : Pending n e post) (pre : List Episode) :
    writtenSince n (pre ++ [e] ++ post) = false := by
  obtain ⟨henters, hlast, hunwritten⟩ := h
  induction post using List.reverseRecOn with
  | nil => rw [List.append_nil, writtenSince_snoc, if_pos henters]
  | append_singleton post f ih =>
    rw [← List.append_assoc, writtenSince_snoc, if_neg (hlast f (by simp)),
      hunwritten f (by simp), ih]
    · rfl
    · exact fun g hg => hlast g (List.mem_append_left _ hg)
    · exact fun g hg => hunwritten g (List.mem_append_left _ hg)

theorem Connection.place_of_written {c : Connection} {q : Dispatch} (hq : q ∈ c.written) :
    ∃ place, (place, q) ∈ c.places ∧ place ≠ .message := by
  rcases List.mem_append.mp hq with hq | hq
  · refine ⟨.retry c.id, List.mem_append_left _ ?_, Place.noConfusion⟩
    exact List.mem_append_right _ (List.mem_map.mpr ⟨q, hq, rfl⟩)
  · obtain ⟨x, hx, rfl⟩ := List.mem_map.mp hq
    refine ⟨.stream c.id x.1, List.mem_append_right _ ?_, Place.noConfusion⟩
    exact List.mem_map.mpr ⟨x, hx, rfl⟩

namespace World

variable {s : ConnectionSettings}

theorem Sound.places_nodup (hw : w.Sound s) : (w.places.map fun x => x.2.id).Nodup := by
  have hd := hw.distinct
  rw [← coe_places, Multiset.map_coe, Multiset.coe_nodup, List.map_map] at hd
  simpa only [Function.comp_def, Place.id_holding] using hd

theorem place_of_dealt {m : Move} {p : Dispatch} (hp : w.dealt? m = some p) :
    (.message, p) ∈ w.places := by
  obtain ⟨msg, hmsg, hd⟩ := dealt?_eq_some hp
  refine List.mem_append_left _ (List.mem_append_left _ (List.mem_map.mpr ⟨p, ?_, rfl⟩))
  exact List.mem_filterMap.mpr ⟨msg, hmsg, hd⟩

theorem Sound.id_ne_of_dealt (hw : w.Sound s) {m : Move} {p : Dispatch} (hp : w.dealt? m = some p) :
    (∀ x ∈ w.pool.waiters, x.dispatch.id ≠ p.id) ∧
      ∀ c ∈ w.connections, ∀ q ∈ c.written, q.id ≠ p.id := by
  -- No two places hold the same notification, so any other place holds another.
  have hapart : ∀ y ∈ w.places, y.1 ≠ .message → y.2.id ≠ p.id := by
    intro y hy hplace hid
    have heq := List.inj_on_of_nodup_map hw.places_nodup hy (place_of_dealt hp) hid
    exact hplace (congrArg Prod.fst heq)
  refine ⟨fun x hx => ?_, fun c hc q hq => ?_⟩
  · refine hapart (.waiter, x.dispatch) ?_ Place.noConfusion
    exact List.mem_append_left _ (List.mem_append_right _ (List.mem_map.mpr ⟨x, hx, rfl⟩))
  · obtain ⟨place, hplace, hne⟩ := Connection.place_of_written hq
    exact hapart (place, q) (List.mem_append_right _ (List.mem_flatMap.mpr ⟨c, hc, hplace⟩)) hne

end World

namespace History

theorem coherent (h : History config es w) : ∀ c ∈ w.connections, c.Coherent := by
  refine h.forall_connections (P := fun _ c => c.Coherent) fun es v e _ _ ih d _ hd => ?_
  cases hd with
  | @same c more there taken =>
    refine ⟨(ih c there).serves, fun hp => ?_⟩
    obtain ⟨hnone, hopen⟩ := (ih c there).idle hp
    -- It has been given nothing, since it takes nothing.
    have hmore : more = [] := by
      by_contra hne
      exact Bool.noConfusion (hopen.symm.trans (taken hne))
    refine ⟨?_, hopen⟩
    rw [hmore, List.append_nil]
    exact hnone
  | @step c i moves there awaits =>
    exact (Connection.step_yields _ c i).coherent (ih c (List.mem_of_find?_eq_some there))
  | @start id moves attempted => exact Connection.start_coherent _ id _
  | @drained id t moves attempted =>
    exact (Connection.drainUntil_yields t _).coherent (Connection.start_coherent _ id _)

theorem deadline_eq_of_waiter (h : History config es w) : ∀ x ∈ w.pool.waiters, ∃ t,
    lastEntry x.dispatch.id es = some t ∧
      x.deadline = Moment.after t config.acquireTimeout := by
  unfold History at h
  induction h with
  | nil =>
    intro x hx
    rw [(World.start_waiters config).2] at hx
    cases hx
  | @snoc es v e hr he ih =>
    have hv := History.sound hr
    obtain ⟨rfl, hstep⟩ := he
    intro x hx
    rw [lastEntry_snoc]
    rcases List.mem_append.mp ((World.step?_passes hstep).queues.waiters.subset hx) with hx | hx
    · rw [if_neg]
      · exact ih x hx
      · intro hin
        obtain ⟨p, hp, hid⟩ := Option.map_eq_some_iff.mp hin
        exact (hv.id_ne_of_dealt hp).1 x hx hid.symm
    · obtain ⟨p, hp, rfl⟩ := List.mem_map.mp hx
      have hin : e.entered? = some p.id :=
        congrArg (Option.map Dispatch.id) (Option.mem_toList.mp hp)
      rw [if_pos hin]
      exact ⟨_, rfl, by rw [(History.inTime hr).timeout]⟩

theorem writtenSince_of_written (h : History config es w) :
    ∀ c ∈ w.connections, ∀ p ∈ c.written, writtenSince p.id es = true := by
  refine h.forall_connections (P := fun es c => ∀ p ∈ c.written, writtenSince p.id es = true)
    fun es v e hr he ih d _ hd p hp => ?_
  have hv := hr.sound
  obtain ⟨rfl, hstep⟩ := he
  have hold : ∀ c ∈ e.before.connections, ∀ q ∈ c.written,
      writtenSince q.id (es ++ [e]) = true := by
    intro c hc q hq
    rw [writtenSince_snoc, if_neg, ih c hc q hq, Bool.true_or]
    intro hin
    obtain ⟨p, hp, hid⟩ := Option.map_eq_some_iff.mp hin
    exact (hv.id_ne_of_dealt hp).2 c hc q hq hid.symm
  cases hd with
  | @same c more there => exact hold c there p hp
  | @step c i moves there awaits =>
    rcases (Connection.step_yields _ c i).written p hp with ⟨q, hq, hid⟩ | ⟨k, q, r, hm, hid⟩
    · rw [← hid]
      exact hold c (List.mem_of_find?_eq_some there) q hq
    · have hnot : e.entered? = none := by rw [Episode.entered?, moves]; rfl
      rw [moves] at hstep
      obtain ⟨b, hb, -, -, -, hopened⟩ := World.connection_step hv.tidy hstep
      obtain rfl : b = c := Option.some.inj (hb.symm.trans there)
      have hwrites : (b.id, k, r) ∈ e.writes p.id := Episode.mem_writes (hopened k q r hm) hid
      rw [writtenSince_snoc, hnot, if_neg (by simp)]
      simp [List.ne_nil_of_mem hwrites]
  | @start id moves attempted => cases hp
  | @drained id t moves attempted => cases hp

end History

theorem Pending.exists_place (hn : Pending n e post) (h : History config (pre ++ [e] ++ post) w)
    (hu : outcomes n (pre ++ [e] ++ post) = []) :
    ∃ place q, (place, q) ∈ w.places ∧ q.id = n := by
  have hcame : n ∈ (submissions (pre ++ [e] ++ post)).map Dispatch.id := by
    obtain ⟨x, hx, -⟩ := Run.split h
    obtain ⟨v, hv, ⟨rfl, -⟩, -⟩ := hx.last
    obtain ⟨p, hp, rfl⟩ := Option.map_eq_some_iff.mp hn.enters
    rcases Story.exists_of_history hv p.id with ⟨hm, -⟩ | ⟨-, hheld, -⟩
    · rw [submissions_append, submissions_append, List.map_append, List.map_append]
      exact List.mem_append_left _ (List.mem_append_left _ hm)
    · have hm : (.message, p) ∈ e.before.placesOf p.id :=
        List.mem_filter.mpr ⟨World.place_of_dealt hp, decide_eq_true rfl⟩
      rw [World.placesOf_eq_nil hheld] at hm
      cases hm
  rcases Story.exists_of_history h n with ⟨-, k, story⟩ | ⟨hno, -⟩
  · cases k with
    | none =>
      obtain ⟨o, ho⟩ := story.outcomes_of_holding.2 rfl
      rw [hu] at ho
      cases ho
    | some g =>
      obtain ⟨place, hplace⟩ := World.placesOf_eq_one story.held_eq
      have hm : (place, g.dispatch) ∈ w.placesOf n := hplace ▸ List.mem_singleton_self _
      obtain ⟨hm, hid⟩ := List.mem_filter.mp hm
      exact ⟨place, g.dispatch, hm, of_decide_eq_true hid⟩
  · exact absurd hcame hno

/-- A connection that has something to write and can only wait has been told that there is no
room. -/
theorem World.Settled.blocked_of_commands (hs : w.Settled) {c : Connection} (hc : c ∈ w.connections)
    (hco : c.Coherent) (hne : c.commands ≠ []) :
    c.accepting = true ∧ c.blocked = true ∧ c.ready = false := by
  have hphase : c.phase = .connected := by
    by_contra hp
    exact hne (hco.idle hp).1
  have haccepts : c.accepting = true := by
    simp [Connection.accepting, Connection.isConnected, hphase, (hco.serves hphase).1]
  have hready : c.ready = false := by
    by_contra hr
    rw [Bool.not_eq_false] at hr
    cases hretries : c.retries with
    | nil =>
      have ha : c.awaits w.time (.command (.opened 1)) = true := by
        simp [Connection.awaits, Connection.mayWrite, haccepts, hr, hretries, hne]
      exact Bool.noConfusion (hs.steps c hc _ ha rfl)
    | cons p rest =>
      have ha : c.awaits w.time (.retry (.opened 1)) = true := by
        simp [Connection.awaits, Connection.mayRetry, haccepts, hr, hretries]
      exact Bool.noConfusion (hs.steps c hc _ ha rfl)
  exact ⟨haccepts, hs.asked c hc haccepts hready, hready⟩

/-- A notification that has no outcome and has not been written since it came to the pool waits
there no longer than the client allows, or else a connection has taken it that has asked for room
for its stream and has not got it. How long the client allows is any duration: that a clock has a
last moment is not part of it. -/
theorem waits_in_time_or_for_room (config : ClientConfig) (pre post : List Episode) (e : Episode)
    (w : World) (h : History config (pre ++ [e] ++ post) w) (n : Nat) (hn : Pending n e post)
    (hu : outcomes n (pre ++ [e] ++ post) = []) (hs : w.Settled) :
    (w.time < Moment.after e.before.time config.acquireTimeout ∧
      ∃ x ∈ w.pool.waiters, x.dispatch.id = n) ∨
    ∃ c ∈ w.connections, (∃ p ∈ c.commands, p.id = n) ∧
      c.accepting = true ∧ c.blocked = true ∧ c.ready = false := by
  obtain ⟨place, q, hq, rfl⟩ := hn.exists_place h hu
  have hnot := hn.not_written pre
  rcases List.mem_append.mp hq with hq | hq
  · rcases List.mem_append.mp hq with hq | hq
    · rw [hs.channel] at hq
      cases hq
    · obtain ⟨x, hx, hxq⟩ := List.mem_map.mp hq
      obtain ⟨-, rfl⟩ := Prod.mk.inj hxq
      refine .inl ⟨?_, x, hx, rfl⟩
      have hruns : w.pool.ended = false := by
        by_contra hend
        rw [(h.sound.tidy.settled (by simpa using hend)).2] at hx
        cases hx
      obtain ⟨t, ht, hdeadline⟩ := h.deadline_eq_of_waiter x hx
      rw [hn.lastEntry_eq pre] at ht
      obtain rfl := Option.some.inj ht
      rw [← hdeadline]
      exact h.inTime.lt_deadline (hs.timers hruns) x hx
  · obtain ⟨c, hc, hq⟩ := List.mem_flatMap.mp hq
    rcases List.mem_append.mp hq with hq | hq
    · rcases List.mem_append.mp hq with hq | hq
      · obtain ⟨p, hp, hpq⟩ := List.mem_map.mp hq
        obtain ⟨-, rfl⟩ := Prod.mk.inj hpq
        exact .inr ⟨c, hc, ⟨p, hp, rfl⟩,
          hs.blocked_of_commands hc (h.coherent c hc) (List.ne_nil_of_mem hp)⟩
      · obtain ⟨p, hp, hpq⟩ := List.mem_map.mp hq
        obtain ⟨-, rfl⟩ := Prod.mk.inj hpq
        rw [h.writtenSince_of_written c hc p (List.mem_append_left _ hp)] at hnot
        cases hnot
    · obtain ⟨x, hx, hxq⟩ := List.mem_map.mp hq
      obtain ⟨-, rfl⟩ := Prod.mk.inj hxq
      have hin : x.2 ∈ c.written := List.mem_append_right _ (List.mem_map.mpr ⟨x, hx, rfl⟩)
      rw [h.writtenSince_of_written c hc x.2 hin] at hnot
      cases hnot

/-- Whether an open client, not closing, has come to rest. -/
def World.isSettled (w : World) : Bool :=
  w.channel.isEmpty && !w.pool.ended && w.announced.isNone &&
    ([.reconnect, .expire, .force].all fun t => (w.pool.deadline? t).all fun d => w.time < d) &&
    w.connections.all fun c =>
      ([.retry (.opened 1), .command (.opened 1), .tokenExpired, .drainDeadline, .finish].all
        fun i => !c.awaits w.time i) && (!c.accepting || c.ready || c.blocked)

theorem World.settled_of_check (h : w.isSettled = true) : w.Settled := by
  simp only [isSettled, Bool.and_eq_true, List.isEmpty_iff, Bool.not_eq_true',
    Option.isNone_iff_eq_none, List.all_eq_true] at h
  obtain ⟨⟨⟨⟨hchannel, hruns⟩, hopen⟩, htimers⟩, hconns⟩ := h
  refine ⟨hchannel, fun _ t d hd => ?_, fun c hc i ha hallows => ?_, fun c hc haccepts hready => ?_⟩
  · have ht := htimers t (by cases t <;> simp)
    simpa [hd] using ht
  · have hno := (hconns c hc).1
    cases i with
    | retry a => exact Bool.noConfusion ((hno (.retry (.opened 1)) (by simp)).symm.trans ha)
    | command a => exact Bool.noConfusion ((hno (.command (.opened 1)) (by simp)).symm.trans ha)
    | tokenExpired | drainDeadline | finish =>
      exact Bool.noConfusion ((hno _ (by simp)).symm.trans ha)
    | abandoned => exact Bool.noConfusion (hruns.symm.trans hallows)
    | shutdown deadline => simp [allows, hopen] at hallows
    | _ => rfl
  · simpa [haccepts, hready] using (hconns c hc).2

/-- Whether a notification that came to the pool in an episode is still there to be written at the
end of a run, when the client has come to rest. -/
def isLeft (n : Nat) (e : Episode) (post : List Episode) (es : List Episode) (w : World) : Bool :=
  e.entered? == some n && (post.all fun f => f.entered? != some n && (f.writes n).isEmpty) &&
    (outcomes n es).isEmpty && w.isSettled

theorem left_of_check {ms : List (Move × Instant × P256.Scalar)} {k : Nat}
    {q : Episode → World → Bool}
    (h : ((World.start config).1.play ms).any (fun (es, w) =>
      (cut k es).any fun (_, e, mid, b) => isLeft n e (mid ++ [b]) es w && q e w) = true) :
    ∃ pre e post w, History config (pre ++ [e] ++ post) w ∧ Pending n e post ∧
      outcomes n (pre ++ [e] ++ post) = [] ∧ w.Settled ∧ q e w = true := by
  obtain ⟨⟨es, w⟩, hplay, hx⟩ := (Option.any_eq_true _ _).mp h
  obtain ⟨⟨pre, e, mid, b⟩, hcut, hx⟩ := (Option.any_eq_true _ _).mp hx
  obtain ⟨hleft, hq⟩ := Bool.and_eq_true_iff.mp hx
  simp only [isLeft, Bool.and_eq_true, beq_iff_eq, List.all_eq_true, bne_iff_ne,
    List.isEmpty_iff] at hleft
  obtain ⟨⟨⟨henters, hrest⟩, hu⟩, hsettled⟩ := hleft
  have hes : es = pre ++ [e] ++ (mid ++ [b]) :=
    (eq_of_cut hcut).trans (List.append_assoc _ _ _)
  subst hes
  exact ⟨pre, e, mid ++ [b], w, (Run.of_play hplay).1,
    ⟨henters, fun f hf => (hrest f hf).1, fun f hf => (hrest f hf).2⟩, hu,
    World.settled_of_check hsettled, hq⟩

def delayed : List (Move × Instant × P256.Scalar) :=
  [.send .sample, .pool, .wait (.ofSeconds 5)].map fun m => (m, ⟨0, 0⟩, 0)

theorem waits_in_time_of_delayed : ∃ pre e post w, History .plain (pre ++ [e] ++ post) w ∧
    Pending 1 e post ∧ w.Settled ∧
      w.time < Moment.after e.before.time ClientConfig.plain.acquireTimeout := by
  have hd : ((World.start .plain).1.play delayed).any (fun (es, w) =>
      (cut 1 es).any fun (_, e, mid, b) =>
        isLeft 1 e (mid ++ [b]) es w && w.connections.isEmpty) = true := by
    decide +kernel
  obtain ⟨pre, e, post, w, hrun, hpending, hu, hsettled, hnone⟩ :=
    left_of_check (q := fun _ w => w.connections.isEmpty) hd
  refine ⟨pre, e, post, w, hrun, hpending, hsettled, ?_⟩
  rcases waits_in_time_or_for_room .plain pre post e w hrun 1 hpending hu hsettled with
    ⟨ht, -⟩ | ⟨c, hc, -⟩
  · exact ht
  · rw [List.isEmpty_iff.mp hnone] at hc
    cases hc

def crammed : List (Move × Instant × P256.Scalar) :=
  [.connected 1, .pool, .connection 1 (.readiness .ready), .send .sample, .send .sample, .pool,
    .pool, .connection 1 (.command (.opened 1)), .connection 1 (.readiness .pending), .pool,
    .wait (.ofSeconds 10)].map fun m => (m, ⟨0, 0⟩, 0)

/-- What a connection has taken may wait there longer than the client allows. -/
theorem not_always_in_time :
    ¬ ∀ (config : ClientConfig) (pre post : List Episode) (e : Episode) (w : World) (n : Nat),
      History config (pre ++ [e] ++ post) w → Pending n e post →
      outcomes n (pre ++ [e] ++ post) = [] → w.Settled →
      w.time < Moment.after e.before.time config.acquireTimeout := by
  intro h
  have hd : ((World.start .plain).1.play crammed).any (fun (es, w) =>
      (cut 6 es).any fun (_, e, mid, b) => isLeft 2 e (mid ++ [b]) es w &&
        decide (Moment.after e.before.time ClientConfig.plain.acquireTimeout ≤ w.time)) =
      true := by
    decide +kernel
  obtain ⟨pre, e, post, w, hrun, hpending, hu, hsettled, hlate⟩ :=
    left_of_check (q := fun e w =>
      decide (Moment.after e.before.time ClientConfig.plain.acquireTimeout ≤ w.time)) hd
  exact Nat.not_lt.mpr (of_decide_eq_true hlate)
    (h .plain pre post e w 2 hrun hpending hu hsettled)

end PushDelivery
