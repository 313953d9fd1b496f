import PushDelivery.Proofs.BackoffDelays
import PushDelivery.Proofs.PoolClosing

namespace PushDelivery

namespace Moment

theorem after_mono {m n : Moment} {d e : Duration} (hm : m ≤ n) (hd : d.nanos ≤ e.nanos) :
    m.after d ≤ n.after e :=
  Nat.add_le_add hm hd

theorem lt_after (m : Moment) {d : Duration} (hd : 0 < d.nanos) : m < m.after d :=
  Nat.lt_add_of_pos_right hd

end Moment

def PoolMessage.call? : PoolMessage → Option Backoff.Call
  | established _ => some .reset
  | attemptFailed _ _ => some .next
  | _ => none

namespace PoolTurn

def call? (t : PoolTurn) : Option Backoff.Call :=
  match t.input with
  | .message m => m.call?
  | .timer _ => none

/-- The attempts to connect that are started in a step. -/
def attempts (t : PoolTurn) : List Nat :=
  t.work.actions.filterMap PoolAction.attempted?

def Fails (t : PoolTurn) : Prop :=
  ∃ id cause, t.input = .message (.attemptFailed id cause)

/-- What an open pool hears of the end of an attempt is about one that is on its way. -/
def IsGenuine (t : PoolTurn) : Prop :=
  ∀ m id, t.input = .message m → m.ends? = some id → t.before.closing = none →
    id ∈ t.before.connecting

end PoolTurn

/-- All that the backoff is told in a run. -/
def backoffCalls (ts : List PoolTurn) : List Backoff.Call :=
  ts.filterMap PoolTurn.call?

/-- How many attempts have failed since the last one that succeeded. -/
def failedInARow (ts : List PoolTurn) : Nat :=
  Backoff.failures (backoffCalls ts)

/-- The attempts to connect that are started in a run, and when. The first ones are started at once,
when nothing has come yet. -/
def attempts (config : ClientConfig) (ts : List PoolTurn) : List (Moment × Nat) :=
  ((Pool.start config).actions.filterMap PoolAction.attempted?).map (fun id => (0, id)) ++
    ts.flatMap fun t => t.attempts.map fun id => (t.time, id)

namespace Pool

variable {accepts : Acceptance} {time : Moment} {p q : Pool} {cs : List Backoff.Call}

/-- What a step does to the plan to connect and to the delays. A plan is made only when connections
are lacking, and a pool that is being closed does not tell its backoff anything more. -/
structure Plans (p : Pool) (time : Moment) (cs : List Backoff.Call) (q : Pool) : Prop where
  plan : ∀ r, q.reconnectAt = some r → p.reconnectAt = some r ∨
    r = Moment.after time p.backoff.current ∧ q.activeCount < q.target
  delays : q.backoff = p.backoff.after cs ∨ q.closing ≠ none ∧ q.backoff = p.backoff

theorem Plans.of_same (hr : q.reconnectAt = p.reconnectAt) (hb : q.backoff = p.backoff) :
    p.Plans time [] q :=
  ⟨fun _ hplan => .inl (hr ▸ hplan), .inl hb⟩

theorem Plans.handsOver {xs : List Waiter} {w v : Work} (hw : p.Plans time cs w.pool)
    (h : HandsOver accepts xs w v) : p.Plans time cs v.pool := by
  obtain ⟨-, -, rest, connections, cursor, -, -, -, hcs, hv, -⟩ := h
  have hcount : v.pool.activeCount = w.pool.activeCount := by
    rw [activeCount, activeCount, connectedCount_eq, connectedCount_eq, connectedIds_of_outline]
    all_goals rw [hv]
    exact hcs
  refine ⟨fun r hplan => ?_, ?_⟩
  · rw [hcount]
    rw [hv] at hplan ⊢
    exact hw.plan r hplan
  · rw [hv]
    exact hw.delays

theorem Plans.scheduleReconnect (hb : q.backoff = p.backoff.after cs)
    (hr : q.reconnectAt = p.reconnectAt) :
    p.Plans time cs (q.scheduleReconnect time p.backoff.current) := by
  refine ⟨?_, ?_⟩
  · unfold Pool.scheduleReconnect
    split
    · exact fun _ hplan => .inl (hr ▸ hplan)
    · rename_i hlacking
      rw [not_or, Nat.not_le] at hlacking
      intro r hplan
      dsimp only at hplan
      rw [hr] at hplan
      cases hold : p.reconnectAt with
      | none =>
        rw [hold] at hplan
        exact .inr ⟨(Option.some.inj hplan).symm, hlacking.2⟩
      | some old =>
        rw [hold] at hplan
        obtain rfl : min (Moment.after time p.backoff.current) old = r := Option.some.inj hplan
        rcases min_choice (Moment.after time p.backoff.current) old with he | he
        · exact .inr ⟨he, hlacking.2⟩
        · exact .inl (congrArg some he.symm)
  · obtain ⟨planned, hq⟩ := scheduleReconnect_frame time p.backoff.current q
    rw [hq]
    exact .inl hb

theorem route_plans (n : Dispatch) (p : Pool) :
    p.Plans time [] (p.route accepts time n).pool := by
  by_cases hc : p.closing = none
  · exact Plans.handsOver (.of_same rfl rfl) (route_handsOver accepts time n p hc)
  · rw [route_of_closing accepts time n hc]
    exact .of_same rfl rfl

theorem onEstablished_plans (id : Nat) (p : Pool) :
    p.Plans time [.reset] (p.onEstablished accepts id).pool := by
  unfold onEstablished
  dsimp only
  split
  · rename_i hc
    exact ⟨fun _ hplan => .inl hplan, .inr ⟨Option.isSome_iff_ne_none.mp hc, rfl⟩⟩
  · refine Plans.handsOver ?_ (flush_handsOver accepts _)
    exact ⟨fun _ hplan => .inl hplan, .inl rfl⟩

theorem onAttemptFailed_plans (id : Nat) (cause : String) (p : Pool) :
    p.Plans time [.next] (p.onAttemptFailed time id cause).pool := by
  unfold onAttemptFailed
  dsimp only
  split
  · rename_i hc
    exact ⟨fun _ hplan => .inl hplan, .inr ⟨Option.isSome_iff_ne_none.mp hc, rfl⟩⟩
  · split
    all_goals exact Plans.scheduleReconnect rfl rfl

theorem onMessage_plans (accepts : Acceptance) (time : Moment) (p : Pool) (m : PoolMessage) :
    p.Plans time m.call?.toList (p.onMessage accepts time m).pool := by
  cases m with
  | submit n | resubmit n => exact route_plans n p
  | established id => exact onEstablished_plans id p
  | attemptFailed id cause => exact onAttemptFailed_plans id cause p
  | draining id | closed id => exact Plans.scheduleReconnect rfl rfl
  | writabilityChanged id writable =>
    cases writable with
    | false => exact .of_same rfl rfl
    | true =>
      let w : Work := { pool := p.setWritable id true }
      have hw : p.Plans time [] w.pool := .of_same rfl rfl
      exact hw.handsOver (flush_handsOver accepts w)
  | shutdown caller =>
    unfold onMessage onShutdown
    dsimp only
    split
    · exact .of_same rfl rfl
    · refine ⟨fun r hplan => ?_, .inl rfl⟩
      cases hplan

theorem onTimer_plans (time : Moment) (p : Pool) (x : PoolTimer) :
    p.Plans time [] (p.onTimer time x).pool := by
  cases x with
  | reconnect =>
    obtain ⟨k, hq, -⟩ := fill_spec { pool := { p with reconnectAt := none } }
    unfold onTimer
    rw [hq]
    refine ⟨fun r hplan => ?_, .inl rfl⟩
    cases hplan
  | expire | force => exact .of_same rfl rfl

theorem fill_attempts (w : Work) (ha : w.actions = []) :
    ((fill w).actions.filterMap PoolAction.attempted?).length ≤
        w.pool.target - w.pool.activeCount ∧
      (w.pool.closing ≠ none → (fill w).actions = []) := by
  unfold fill
  split
  · rw [ha]
    exact ⟨Nat.zero_le _, fun _ => rfl⟩
  · rename_i hopen
    obtain ⟨-, hactions⟩ := fillWithin_spec (w.pool.target - w.pool.activeCount) w
    rw [hactions, ha, List.nil_append, List.filterMap_map]
    refine ⟨?_, fun hc => ?_⟩
    · refine Nat.le_trans (List.length_filterMap_le _ _) ?_
      rw [List.length_range']
    · exact absurd (Option.isSome_iff_ne_none.mpr hc) hopen

end Pool

namespace PoolTurn

variable {t : PoolTurn} {p : Pool}

theorem call?_of_message {m : PoolMessage} (h : t.input = .message m) : t.call? = m.call? := by
  simp [call?, h]

theorem call?_of_timer {x : Pool.PoolTimer} (h : t.input = .timer x) : t.call? = none := by
  simp [call?, h]

theorem plans (t : PoolTurn) : t.before.Plans t.time t.call?.toList t.work.pool := by
  cases hi : t.input with
  | message m =>
    rw [work_of_message hi, call?_of_message hi]
    exact Pool.onMessage_plans t.accepts t.time t.before m
  | timer x =>
    rw [work_of_timer hi, call?_of_timer hi]
    exact Pool.onTimer_plans t.time t.before x

theorem attempts_of_other (h : t.input ≠ .timer .reconnect) : t.attempts = [] := by
  cases hi : t.input with
  | message m => rw [attempts, work_of_message hi, Pool.onMessage_attempts]
  | timer x =>
    rw [attempts, work_of_timer hi]
    cases x with
    | reconnect => exact absurd hi h
    | expire => exact Pool.attempted_fail ..
    | force =>
      exact PoolAction.filterMap_inert _ t.before.forceClose_inert PoolAction.attempted_inert

theorem attempts_length (t : PoolTurn) :
    t.attempts.length ≤ t.before.target - t.before.activeCount := by
  by_cases hi : t.input = .timer .reconnect
  · rw [attempts, work_of_timer hi]
    exact (Pool.fill_attempts _ rfl).1
  · rw [attempts_of_other hi]
    exact Nat.zero_le _

theorem Follows.reconnectAt_le (h : t.Follows p) (hi : t.input = .timer .reconnect) :
    ∃ r, p.reconnectAt = some r ∧ r ≤ t.time := by
  obtain ⟨rfl, hdue⟩ := h
  unfold isDue at hdue
  rw [hi] at hdue
  obtain ⟨r, hr, hle⟩ := (Option.any_eq_true _ _).mp hdue
  exact ⟨r, hr, by simpa using hle⟩

/-- Attempts are started only in an open pool and when they are due, and no plan is left then. -/
theorem Follows.planned_of_attempts (h : t.Follows p) (ha : t.attempts ≠ []) : p.closing = none ∧
    (∃ r, p.reconnectAt = some r ∧ r ≤ t.time) ∧ t.work.pool.reconnectAt = none := by
  have hi : t.input = .timer .reconnect := by
    by_contra hother
    exact ha (attempts_of_other hother)
  have hdue := h.reconnectAt_le hi
  obtain ⟨rfl, -⟩ := h
  have hwork : t.work = Pool.fill { pool := { t.before with reconnectAt := none } } :=
    work_of_timer hi
  refine ⟨?_, hdue, ?_⟩
  · by_contra hc
    have hnone : t.work.actions = [] := by
      rw [hwork]
      exact (Pool.fill_attempts _ rfl).2 hc
    exact ha (by rw [attempts, hnone]; rfl)
  · obtain ⟨k, hpool, -⟩ := Pool.fill_spec { pool := { t.before with reconnectAt := none } }
    rw [hwork, hpool]

theorem work_target (t : PoolTurn) : t.work.pool.target = t.before.target := by
  cases hi : t.input with
  | message m =>
    rw [work_of_message hi]
    exact (Pool.onMessage_advances t.accepts t.time t.before m).target
  | timer x =>
    obtain ⟨k, -, htarget, -⟩ := Pool.onTimer_advances t.time t.before x
    rw [work_of_timer hi, htarget]

theorem open_before (h : t.work.pool.closing = none) : t.before.closing = none := by
  by_contra hclosing
  exact (winds (.inl hclosing)).1 h

end PoolTurn

/-- What is started at different instants is some time apart, and not too much at any of them. -/
structure Spaced (gap : Duration) (most : Nat) (as : List (Moment × Nat)) : Prop where
  apart : ∀ a ∈ as, ∀ b ∈ as, a.1 < b.1 → Moment.after a.1 gap ≤ b.1
  few : ∀ time, (as.countP fun a => a.1 == time) ≤ most

namespace Spaced

variable {gap : Duration} {most : Nat} {as : List (Moment × Nat)} {ids : List Nat}

theorem time_of_mem {time : Moment} {a : Moment × Nat} (h : a ∈ ids.map fun id => (time, id)) :
    a.1 = time := by
  obtain ⟨id, -, rfl⟩ := List.mem_map.mp h
  rfl

theorem at_once (gap : Duration) (time : Moment) (h : ids.length ≤ most) :
    Spaced gap most (ids.map fun id => (time, id)) := by
  refine ⟨?_, fun now => ?_⟩
  · intro a ha b hb hlt
    rw [time_of_mem ha, time_of_mem hb] at hlt
    exact absurd hlt (Nat.lt_irrefl _)
  · apply Nat.le_trans List.countP_le_length
    simpa using h

theorem snoc {time : Moment} (h : Spaced gap most as) (hgap : 0 < gap.nanos)
    (hlater : ∀ a ∈ as, Moment.after a.1 gap ≤ time) (hmost : ids.length ≤ most) :
    Spaced gap most (as ++ ids.map fun id => (time, id)) := by
  have hbefore : ∀ a ∈ as, a.1 < time :=
    fun a ha => Nat.lt_of_lt_of_le (Moment.lt_after a.1 hgap) (hlater a ha)
  have hnew : Spaced gap most (ids.map fun id => (time, id)) := at_once gap time hmost
  refine ⟨?_, fun now => ?_⟩
  · intro a ha b hb hlt
    rcases List.mem_append.mp ha with ha | ha
    · rcases List.mem_append.mp hb with hb | hb
      · exact h.apart a ha b hb hlt
      · rw [time_of_mem hb]
        exact hlater a ha
    · rcases List.mem_append.mp hb with hb | hb
      · rw [time_of_mem ha] at hlt
        exact absurd hlt (Nat.lt_asymm (hbefore b hb))
      · exact hnew.apart a ha b hb hlt
  · rw [List.countP_append]
    by_cases hnow : now = time
    · have hold : as.countP (fun a => a.1 == now) = 0 := by
        apply List.countP_eq_zero.mpr
        intro a ha
        simpa [hnow] using Nat.ne_of_lt (hbefore a ha)
      rw [hold, Nat.zero_add]
      exact hnew.few now
    · have hnone : (ids.map fun id => (time, id)).countP (fun a => a.1 == now) = 0 := by
        apply List.countP_eq_zero.mpr
        intro a ha
        simpa [time_of_mem ha] using Ne.symm hnow
      rw [hnone]
      exact h.few now

end Spaced

variable {config : ClientConfig} {ts : List PoolTurn} {p : Pool} {t : PoolTurn}

theorem backoffCalls_snoc (ts : List PoolTurn) (t : PoolTurn) :
    backoffCalls (ts ++ [t]) = backoffCalls ts ++ t.call?.toList := by
  cases h : t.call? with
  | none => simp [backoffCalls, h]
  | some c => simp [backoffCalls, h]

theorem attempts_snoc (config : ClientConfig) (ts : List PoolTurn) (t : PoolTurn) :
    attempts config (ts ++ [t]) =
      attempts config ts ++ t.attempts.map fun id => (t.time, id) := by
  simp [attempts]

theorem attempts_started (config : ClientConfig) (ts : List PoolTurn) :
    (attempts config ts).map Prod.snd = started config ts := by
  simp [attempts, started, PoolTurn.attempts, List.map_flatMap, List.filterMap_flatMap,
    Function.comp_def]

theorem attempts_past {time : Moment} (h : ∀ t ∈ ts, t.time ≤ time) :
    ∀ a ∈ attempts config ts, a.1 ≤ time := by
  intro a ha
  rcases List.mem_append.mp ha with ha | ha
  · obtain ⟨id, -, rfl⟩ := List.mem_map.mp ha
    exact Nat.zero_le _
  · obtain ⟨t, ht, ha⟩ := List.mem_flatMap.mp ha
    obtain ⟨id, -, rfl⟩ := List.mem_map.mp ha
    exact h t ht

/-- What the pool keeps between the steps: every plan is far enough from all attempts so far, and
they from each other. -/
structure Paced (config : ClientConfig) (ts : List PoolTurn) (p : Pool) : Prop where
  target : p.target = config.connections
  /-- A pool that is being closed does not hear of the last calls any more. -/
  delays : ∃ cs, p.backoff = config.backoff.after cs ∧ (p.closing = none → cs = backoffCalls ts)
  planned : ∀ r, p.reconnectAt = some r →
    ∀ a ∈ attempts config ts, Moment.after a.1 config.backoffInitial ≤ r
  spaced : Spaced config.backoffInitial config.connections (attempts config ts)

theorem Paced.doubled_le (h : Paced config ts p) (hc : p.closing = none)
    (horder : config.backoffInitial.nanos ≤ config.backoffMax.nanos) :
    (Backoff.doubled config.backoffInitial config.backoffMax (failedInARow ts)).nanos ≤
      p.backoff.current.nanos := by
  obtain ⟨cs, hcs, hcalls⟩ := h.delays
  obtain ⟨current, hafter, hle⟩ := Backoff.le_after horder cs
  rw [hcs, ClientConfig.backoff, hafter, failedInARow, ← hcalls hc]
  exact hle

theorem Paced.delay (h : Paced config ts p)
    (horder : config.backoffInitial.nanos ≤ config.backoffMax.nanos) :
    config.backoffInitial.nanos ≤ p.backoff.current.nanos := by
  obtain ⟨cs, hcs, -⟩ := h.delays
  obtain ⟨current, hafter, hle⟩ := Backoff.le_after horder cs
  rw [hcs, ClientConfig.backoff, hafter]
  exact Nat.le_trans (Backoff.doubled_bounds horder _).1 hle

theorem Paced.start (config : ClientConfig) : Paced config [] (Pool.start config).pool := by
  obtain ⟨k, hpool, -⟩ := Pool.fill_spec { pool := .ofConfig config }
  have hpool : (Pool.start config).pool = _ := hpool
  refine ⟨?_, ⟨[], ?_, fun _ => rfl⟩, ?_, ?_⟩
  · rw [hpool]
    rfl
  · rw [hpool]
    rfl
  · intro r hplan
    rw [hpool] at hplan
    cases hplan
  · rw [attempts, List.flatMap_nil, List.append_nil]
    apply Spaced.at_once
    exact (Pool.fill_attempts { pool := .ofConfig config } rfl).1

theorem Paced.quiet (h : Paced config ts t.before)
    (horder : config.backoffInitial.nanos ≤ config.backoffMax.nanos)
    (htime : ∀ u ∈ ts, u.time ≤ t.time) (ha : t.attempts = []) :
    ∀ r, t.work.pool.reconnectAt = some r →
      ∀ a ∈ attempts config (ts ++ [t]), Moment.after a.1 config.backoffInitial ≤ r := by
  rw [attempts_snoc, ha, List.map_nil, List.append_nil]
  intro r hplan a hm
  rcases t.plans.plan r hplan with hold | ⟨rfl, -⟩
  · exact h.planned r hold a hm
  · exact Moment.after_mono (attempts_past htime a hm) (h.delay horder)

theorem Paced.delays_turn (h : Paced config ts t.before) :
    ∃ cs, t.work.pool.backoff = config.backoff.after cs ∧
      (t.work.pool.closing = none → cs = backoffCalls (ts ++ [t])) := by
  obtain ⟨cs, hcs, hcalls⟩ := h.delays
  rcases t.plans.delays with hafter | ⟨hc, hsame⟩
  · refine ⟨cs ++ t.call?.toList, ?_, fun hopen => ?_⟩
    · rw [hafter, hcs, Backoff.after_append]
    · rw [backoffCalls_snoc, hcalls (PoolTurn.open_before hopen)]
  · exact ⟨cs, hsame.trans hcs, fun hopen => absurd hopen hc⟩

theorem Paced.turn (h : Paced config ts t.before) (hfollows : t.Follows t.before)
    (hfirst : 0 < config.backoffInitial.nanos)
    (horder : config.backoffInitial.nanos ≤ config.backoffMax.nanos)
    (htime : ∀ u ∈ ts, u.time ≤ t.time) : Paced config (ts ++ [t]) t.work.pool := by
  have htarget := (PoolTurn.work_target t).trans h.target
  by_cases ha : t.attempts = []
  · refine ⟨htarget, h.delays_turn, h.quiet horder htime ha, ?_⟩
    rw [attempts_snoc, ha, List.map_nil, List.append_nil]
    exact h.spaced
  · obtain ⟨-, ⟨r, hr, hdue⟩, hnone⟩ := hfollows.planned_of_attempts ha
    refine ⟨htarget, h.delays_turn, ?_, ?_⟩
    · intro r hplan
      rw [hnone] at hplan
      cases hplan
    · rw [attempts_snoc]
      apply h.spaced.snoc hfirst
      · intro a hm
        exact Nat.le_trans (h.planned r hr a hm) hdue
      · rw [← h.target]
        exact Nat.le_trans t.attempts_length (Nat.sub_le _ _)

theorem PoolRun.paced (h : PoolRun config ts p) (ht : Chronological ts)
    (hfirst : 0 < config.backoffInitial.nanos)
    (horder : config.backoffInitial.nanos ≤ config.backoffMax.nanos) : Paced config ts p := by
  induction h with
  | start => exact .start config
  | @turn ts p t _ hfollows ih =>
    obtain ⟨rfl, -⟩ := id hfollows
    obtain ⟨hbefore, htime⟩ := chronological_snoc.mp ht
    exact (ih hbefore).turn hfollows hfirst horder htime

/-- A pool of one connection. The only attempt that can be on its way leaves nothing to plan. -/
structure Single (p : Pool) : Prop where
  target : p.target = 1
  attempt : p.closing = none →
    p.connecting.length ≤ 1 ∧ (p.connecting ≠ [] → p.reconnectAt = none)

theorem Single.start (hone : config.connections = 1) : Single (Pool.start config).pool := by
  obtain ⟨hpool, -⟩ :=
    Pool.fillWithin_spec (config.connections - 0) { pool := .ofConfig config }
  have hpool : (Pool.start config).pool = _ := hpool
  rw [hpool, hone]
  refine ⟨hone, fun _ => ?_⟩
  simp [Pool.ofConfig]

theorem Single.turn (h : Single t.before) : Single t.work.pool := by
  refine ⟨(PoolTurn.work_target t).trans h.target, fun hopen => ?_⟩
  obtain ⟨hlength, hplan⟩ := h.attempt (PoolTurn.open_before hopen)
  cases hi : t.input with
  | message m =>
    have hadv := Pool.onMessage_advances t.accepts t.time t.before m
    rw [← PoolTurn.work_of_message hi] at hadv
    obtain ⟨-, hconnecting⟩ := hadv.connecting hopen
    refine ⟨?_, fun hsome => ?_⟩
    · rw [hconnecting]
      exact Nat.le_trans (List.length_filter_le _ _) hlength
    · have hbefore : t.before.connecting ≠ [] := by
        intro hnone
        rw [hconnecting, hnone] at hsome
        exact hsome rfl
      by_contra hplanned
      obtain ⟨r, hr⟩ := Option.ne_none_iff_exists'.mp hplanned
      rcases t.plans.plan r hr with hold | ⟨-, hlacking⟩
      · rw [hplan hbefore] at hold
        cases hold
      · have hpos := List.length_pos_iff.mpr hsome
        rw [PoolTurn.work_target, h.target, Pool.activeCount] at hlacking
        omega
  | timer x =>
    cases x with
    | reconnect =>
      obtain ⟨k, hpool, hactions⟩ :=
        Pool.fill_spec { pool := { t.before with reconnectAt := none } }
      have hwork : t.work = Pool.fill { pool := { t.before with reconnectAt := none } } :=
        PoolTurn.work_of_timer hi
      have hk : k = t.attempts.length := by
        simp [PoolTurn.attempts, hwork, hactions, PoolAction.attempted?, List.filterMap_map,
          Function.comp_def]
      have hfew := t.attempts_length
      rw [h.target, Pool.activeCount, ← hk] at hfew
      rw [hwork, hpool]
      refine ⟨?_, fun _ => rfl⟩
      simp only [List.length_append, List.length_range']
      omega
    | expire | force =>
      rw [PoolTurn.work_of_timer hi]
      exact ⟨hlength, hplan⟩

theorem PoolRun.single (h : PoolRun config ts p) (hone : config.connections = 1) : Single p := by
  induction h with
  | start => exact .start hone
  | @turn ts p t _ hfollows ih =>
    obtain ⟨rfl, -⟩ := hfollows
    exact ih.turn

/-- What a failed attempt leaves behind until the next one is started: nothing is on its way that
could bring the delay down, and neither a plan nor the delay of the next one is too short. -/
structure HeldBack (since : Moment) (delay : Duration) (p : Pool) : Prop where
  idle : p.connecting = []
  slow : delay.nanos ≤ p.backoff.current.nanos
  plan : ∀ r, p.reconnectAt = some r → Moment.after since delay ≤ r

/-- How long the pool waits after an attempt that fails at the end of a run. -/
def delayAfter (config : ClientConfig) (ts : List PoolTurn) : Duration :=
  Backoff.doubled config.backoffInitial config.backoffMax (failedInARow ts - 1)

/-- The only attempt fails, so nothing was planned before. -/
theorem Paced.heldBack (h : Paced config ts t.before)
    (hlater : Paced config (ts ++ [t]) t.work.pool) (hsingle : Single t.before)
    (horder : config.backoffInitial.nanos ≤ config.backoffMax.nanos)
    (hf : t.Fails) (hgenuine : t.IsGenuine) (hopen : t.work.pool.closing = none) :
    HeldBack t.time (delayAfter config (ts ++ [t])) t.work.pool := by
  obtain ⟨id, cause, hi⟩ := hf
  have hc := PoolTurn.open_before hopen
  have hmem : id ∈ t.before.connecting := hgenuine _ id hi rfl hc
  obtain ⟨hlength, hunplanned⟩ := hsingle.attempt hc
  refine ⟨?_, ?_, ?_⟩
  · have hadv := Pool.onMessage_advances t.accepts t.time t.before (.attemptFailed id cause)
    rw [← PoolTurn.work_of_message hi] at hadv
    obtain ⟨only, honly⟩ := List.length_eq_one_iff.mp
      (Nat.le_antisymm hlength (List.length_pos_of_mem hmem))
    rw [honly, List.mem_singleton] at hmem
    rw [(hadv.connecting hopen).2, honly]
    simp [PoolMessage.ends?, hmem]
  · refine Nat.le_trans (Backoff.doubled_mono ?_) (hlater.doubled_le hopen horder)
    exact Nat.sub_le _ _
  · intro r hplan
    rcases t.plans.plan r hplan with hold | ⟨rfl, -⟩
    · rw [hunplanned (List.ne_nil_of_mem hmem)] at hold
      cases hold
    · have hcount : failedInARow (ts ++ [t]) = failedInARow ts + 1 := by
        rw [failedInARow, backoffCalls_snoc, PoolTurn.call?_of_message hi]
        exact Backoff.failures_snoc _ _
      have hle := h.doubled_le hc horder
      apply Moment.after_mono (Nat.le_refl _)
      unfold delayAfter
      rw [hcount, Nat.add_sub_cancel]
      exact hle

theorem PoolMessage.call?_of_ends {m : PoolMessage} (h : m.ends? = none) : m.call? = none := by
  cases m with
  | established id | attemptFailed id cause => cases h
  | _ => rfl

theorem HeldBack.turn {since : Moment} {delay : Duration} (h : HeldBack since delay t.before)
    (hfollows : t.Follows t.before) (hgenuine : t.IsGenuine) (htime : since ≤ t.time)
    (hopen : t.work.pool.closing = none) :
    HeldBack since delay t.work.pool ∨ Moment.after since delay ≤ t.time := by
  have hc := PoolTurn.open_before hopen
  cases hi : t.input with
  | message m =>
    have hends : m.ends? = none := by
      by_contra hsome
      obtain ⟨id, he⟩ := Option.ne_none_iff_exists'.mp hsome
      have hmem := hgenuine m id hi he hc
      rw [h.idle] at hmem
      cases hmem
    have hbackoff : t.work.pool.backoff = t.before.backoff := by
      have hdelays := t.plans.delays
      rw [PoolTurn.call?_of_message hi, PoolMessage.call?_of_ends hends] at hdelays
      exact hdelays.elim id And.right
    have hadv := Pool.onMessage_advances t.accepts t.time t.before m
    rw [← PoolTurn.work_of_message hi] at hadv
    refine .inl ⟨?_, ?_, fun r hr => ?_⟩
    · rw [(hadv.connecting hopen).2, h.idle]
      rfl
    · rw [hbackoff]
      exact h.slow
    · rcases t.plans.plan r hr with hold | ⟨rfl, -⟩
      · exact h.plan r hold
      · exact Moment.after_mono htime h.slow
  | timer x =>
    cases x with
    | reconnect =>
      -- The plan is carried out, and it was not made for an earlier time.
      obtain ⟨r, hr, hle⟩ := hfollows.reconnectAt_le hi
      exact .inr (Nat.le_trans (h.plan r hr) hle)
    | expire | force =>
      rw [PoolTurn.work_of_timer hi]
      exact .inl ⟨h.idle, h.slow, h.plan⟩

/-- What is known of a pool behind a failed attempt: it closes, it is held back, or the time that it
was held back for is over. -/
def Waits (config : ClientConfig) (pre : List PoolTurn) (f : PoolTurn) (post : List PoolTurn)
    (p : Pool) : Prop :=
  p.closing ≠ none ∨ HeldBack f.time (delayAfter config (pre ++ [f])) p ∨
    ∃ u ∈ post, Moment.after f.time (delayAfter config (pre ++ [f])) ≤ u.time

variable {pre post : List PoolTurn} {f : PoolTurn}

theorem Waits.turn (h : Waits config pre f post t.before) (hfollows : t.Follows t.before)
    (hgenuine : t.IsGenuine) (htime : f.time ≤ t.time) :
    Waits config pre f (post ++ [t]) t.work.pool := by
  by_cases hopen : t.work.pool.closing = none
  · rcases h with hc | hheld | ⟨u, hu, hle⟩
    · exact absurd (PoolTurn.open_before hopen) hc
    · rcases hheld.turn hfollows hgenuine htime hopen with hheld | hover
      · exact .inr (.inl hheld)
      · exact .inr (.inr ⟨t, by simp, hover⟩)
    · exact .inr (.inr ⟨u, List.mem_append_left _ hu, hle⟩)
  · exact .inl hopen

theorem Waits.delayed_of_attempts (h : Waits config pre f post p) (hfollows : t.Follows p)
    (htime : ∀ u ∈ post, u.time ≤ t.time) (ha : t.attempts ≠ []) :
    Moment.after f.time (delayAfter config (pre ++ [f])) ≤ t.time := by
  obtain ⟨hc, ⟨r, hr, hdue⟩, -⟩ := hfollows.planned_of_attempts ha
  rcases h with hclosing | hheld | ⟨u, hu, hle⟩
  · exact absurd hc hclosing
  · exact Nat.le_trans (hheld.plan r hr) hdue
  · exact Nat.le_trans hle (htime u hu)

theorem PoolRun.waits (h : PoolRun config ts p) (ht : Chronological ts)
    (hgenuine : ∀ t ∈ ts, t.IsGenuine) (hone : config.connections = 1)
    (hfirst : 0 < config.backoffInitial.nanos)
    (horder : config.backoffInitial.nanos ≤ config.backoffMax.nanos) :
    ∀ pre f post, ts = pre ++ f :: post → f.Fails → Waits config pre f post p ∧
      ∀ t ∈ post, t.attempts ≠ [] →
        Moment.after f.time (delayAfter config (pre ++ [f])) ≤ t.time := by
  induction h with
  | start =>
    intro pre f post he
    simp at he
  | @turn ts p t hrun hfollows ih =>
    intro pre f post he hf
    obtain ⟨rfl, -⟩ := id hfollows
    obtain ⟨hbefore, htime⟩ := chronological_snoc.mp ht
    have hlast : t.IsGenuine := hgenuine t (by simp)
    rcases List.eq_nil_or_concat' post with rfl | ⟨post, u, rfl⟩
    · obtain ⟨rfl, he⟩ := List.append_inj' he rfl
      obtain rfl : t = f := by simpa using he
      have hpaced := hrun.paced hbefore hfirst horder
      have hlater := hpaced.turn hfollows hfirst horder htime
      refine ⟨?_, by simp⟩
      by_cases hopen : t.work.pool.closing = none
      · exact .inr (.inl (hpaced.heldBack hlater (hrun.single hone) horder hf hlast hopen))
      · exact .inl hopen
    · rw [← List.cons_append, ← List.append_assoc] at he
      obtain ⟨rfl, he⟩ := List.append_inj' he rfl
      obtain rfl : t = u := by simpa using he
      obtain ⟨hwaits, hstarts⟩ :=
        ih hbefore (fun u hu => hgenuine u (List.mem_append_left _ hu)) pre f post rfl hf
      have hpost : ∀ u ∈ post, u.time ≤ t.time := fun u hu => htime u (by simp [hu])
      refine ⟨hwaits.turn hfollows hlast (htime f (by simp)), fun u hu ha => ?_⟩
      rcases List.mem_append.mp hu with hu | hu
      · exact hstarts u hu ha
      · obtain rfl := List.mem_singleton.mp hu
        exact hwaits.delayed_of_attempts hfollows hpost ha

theorem PoolRun.genuine (h : PoolRun config ts p) (ho : InOrder config ts) :
    ∀ t ∈ ts, t.IsGenuine := by
  induction h with
  | start => simp
  | @turn ts p t hrun hfollows ih =>
    obtain ⟨rfl, -⟩ := hfollows
    intro u hu
    rcases List.mem_append.mp hu with hu | hu
    · exact ih ho.init u hu
    · obtain rfl := List.mem_singleton.mp hu
      intro m id hm he hc
      exact ((hrun.strong ho.init).2.pending hc id).mpr (mayCome_ends (ho.mayCome_of_last hm) he)

/-- The pool of a client goes through a run in which time does not go back, and hears only of
attempts that are on their way. -/
theorem History.pool_run {es : List Episode} {w : World} (h : History config es w)
    (hr : w.pool.ended = false) : PoolRun config (turns es) w.pool ∧ Chronological (turns es) ∧
      ∀ t ∈ turns es, t.IsGenuine := by
  have hordered := h.turns_ordered hr
  exact ⟨hordered.run, h.turns_chronological, hordered.run.genuine hordered.order⟩

theorem ClientConfig.delays_of_validate (h : config.validate = .ok ()) :
    0 < config.backoffInitial.nanos ∧ config.backoffInitial.nanos ≤ config.backoffMax.nanos := by
  unfold validate at h
  split at h
  · cases h
  · split at h
    · cases h
    · split at h
      · cases h
      · rename_i hspans
        split at h
        · cases h
        · rename_i horder
          refine ⟨?_, by omega⟩
          have hspan := List.find?_eq_none.mp hspans ("backoff.initial", config.backoffInitial)
            (by simp [spans])
          apply Nat.pos_of_ne_zero
          intro hzero
          apply hspan
          simp [Duration.zero, ← hzero]

/-- The pool does not try to connect too often, whatever fails, drains and closes, as long as time
does not go back: between two different instants at which attempts are started lies the first delay
or more, and at each of them no more are started than connections are wanted. With one connection
nothing is started after a failed attempt until the first delay, doubled for each failure before it
since the last success, or the maximum is over. There it matters that only attempts that are on
their way fail or succeed, as they do in every client. Delays are any durations, by a clock without
a last moment. -/
theorem reconnects_paced (config : ClientConfig) (ts : List PoolTurn) (p : Pool)
    (h : PoolRun config ts p) (ht : Chronological ts) (hfirst : 0 < config.backoffInitial.nanos)
    (horder : config.backoffInitial.nanos ≤ config.backoffMax.nanos) :
    (∀ a ∈ attempts config ts, ∀ b ∈ attempts config ts, a.1 < b.1 →
      Moment.after a.1 config.backoffInitial ≤ b.1) ∧
    (∀ time, ((attempts config ts).countP fun a => a.1 == time) ≤ config.connections) ∧
    (config.connections = 1 → (∀ t ∈ ts, t.IsGenuine) →
      ∀ pre f post, ts = pre ++ f :: post → f.Fails → ∀ t ∈ post, t.attempts ≠ [] →
        Moment.after f.time ⟨min
          (config.backoffInitial.nanos * 2 ^ (failedInARow (pre ++ [f]) - 1))
          config.backoffMax.nanos⟩ ≤ t.time) := by
  have hpaced := h.paced ht hfirst horder
  refine ⟨hpaced.spaced.apart, hpaced.spaced.few, fun hone hgenuine pre f post he hf => ?_⟩
  exact (h.waits ht hgenuine hone hfirst horder pre f post he hf).2

def refused : Option (List PoolTurn × Pool) :=
  (Pool.start (.standard "gateway.example" .none)).pool.play (fun _ _ => true)
    [(5000000, .message (.attemptFailed 1 "refused")), (105000000, .timer .reconnect),
      (110000000, .message (.attemptFailed 2 "refused")), (310000000, .timer .reconnect)]

/-- Whether the second attempt fails in the third step and another one is started in the fourth. -/
def failsTwice : List PoolTurn → Bool
  | [first, restart, f, t] => f.call? == some .next &&
      failedInARow [first, restart, f] == 2 && !t.attempts.isEmpty
  | _ => false

theorem PoolTurn.fails_of_call? (h : t.call? = some .next) : t.Fails := by
  cases hi : t.input with
  | message m =>
    rw [call?_of_message hi] at h
    cases m with
    | attemptFailed id cause => exact ⟨id, cause, hi⟩
    | _ => cases h
  | timer x =>
    rw [call?_of_timer hi] at h
    cases h

theorem paced_of_refused : ∃ ts p, PoolRun (.standard "gateway.example" .none) ts p ∧
    Chronological ts ∧ (∀ t ∈ ts, t.IsGenuine) ∧
    (attempts (.standard "gateway.example" .none) ts).map Prod.fst = [0, 105000000, 310000000] ∧
    ∃ pre f post, ts = pre ++ f :: post ∧ f.Fails ∧ failedInARow (pre ++ [f]) = 2 ∧
      ∃ t ∈ post, t.attempts ≠ [] ∧ Moment.after f.time (.ofMillis 200) ≤ t.time := by
  have hd : refused.any (fun x => decide (Chronological x.1) &&
      isInOrder (.standard "gateway.example" .none) x.1 && failsTwice x.1 &&
      (attempts (.standard "gateway.example" .none) x.1).map Prod.fst ==
        [0, 105000000, 310000000]) = true := by
    decide +kernel
  obtain ⟨⟨ts, p⟩, hplay, hx⟩ := (Option.any_eq_true _ _).mp hd
  simp only [Bool.and_eq_true, decide_eq_true_eq, beq_iff_eq] at hx
  obtain ⟨⟨⟨htime, horder⟩, hfails⟩, hattempts⟩ := hx
  have hrun : PoolRun (.standard "gateway.example" .none) ts p := PoolRun.start.of_play hplay
  have hgenuine := hrun.genuine (inOrder_of_check horder)
  obtain ⟨-, -, hwaits⟩ := reconnects_paced _ ts p hrun htime (by decide) (by decide)
  refine ⟨ts, p, hrun, htime, hgenuine, hattempts, ?_⟩
  unfold failsTwice at hfails
  split at hfails
  · rename_i first restart f t
    simp only [Bool.and_eq_true, beq_iff_eq, Bool.not_eq_true', List.isEmpty_eq_false_iff] at hfails
    obtain ⟨⟨hcall, hcount⟩, hstarts⟩ := hfails
    have hf := PoolTurn.fails_of_call? hcall
    refine ⟨[first, restart], f, [t], rfl, hf, hcount, t, by simp, hstarts, ?_⟩
    have hle := hwaits rfl hgenuine [first, restart] f [t] rfl hf t (by simp) hstarts
    rw [show [first, restart] ++ [f] = [first, restart, f] from rfl, hcount] at hle
    exact hle
  · cases hfails

end PushDelivery
