import PushDelivery.Proofs.Components

namespace PushDelivery

namespace Pool

variable {accepts : Acceptance} {time : Moment}

/-- Those who wait after a message are among those who waited and the one who has come with it. -/
structure Queues (p : Pool) (new : List Waiter) (q : Pool) : Prop where
  timeout : q.acquireTimeout = p.acquireTimeout
  waiters : q.waiters.Sublist (p.waiters ++ new)

variable {p q : Pool} {new : List Waiter}

theorem Queues.of_same (ht : q.acquireTimeout = p.acquireTimeout) (hw : q.waiters = p.waiters) :
    p.Queues new q :=
  ⟨ht, hw ▸ List.sublist_append_left _ _⟩

theorem Queues.of_none (ht : q.acquireTimeout = p.acquireTimeout) (hw : q.waiters = []) :
    p.Queues new q :=
  ⟨ht, hw ▸ List.nil_sublist _⟩

theorem Queues.handsOver {xs : List Waiter} {w v : Work} (h : HandsOver accepts xs w v)
    (ht : w.pool.acquireTimeout = p.acquireTimeout) (hx : xs.Sublist (p.waiters ++ new)) :
    p.Queues new v.pool := by
  obtain ⟨-, given, rest, cs, cursor, rfl, -, -, -, hv, -⟩ := h
  rw [hv]
  exact ⟨ht, (List.sublist_append_right given rest).trans hx⟩

theorem Queues.scheduleReconnect (h : p.Queues new q) (delay : Duration) :
    p.Queues new (q.scheduleReconnect time delay) := by
  obtain ⟨planned, hq⟩ := scheduleReconnect_frame time delay q
  rw [hq]
  exact ⟨h.timeout, h.waiters⟩

theorem route_queues (n : Dispatch) (p : Pool) :
    p.Queues [⟨n, Moment.after time p.acquireTimeout⟩] (p.route accepts time n).pool := by
  by_cases hc : p.closing = none
  · exact Queues.handsOver (route_handsOver accepts time n p hc) rfl (.refl _)
  · rw [route_of_closing accepts time n hc]
    exact .of_same rfl rfl

theorem onMessage_queues (accepts : Acceptance) (time : Moment) (p : Pool) (m : PoolMessage) :
    p.Queues (m.dispatch?.toList.map fun n => ⟨n, Moment.after time p.acquireTimeout⟩)
      (p.onMessage accepts time m).pool := by
  cases m with
  | submit n | resubmit n => exact route_queues n p
  | established id =>
    unfold onMessage onEstablished
    dsimp only
    split
    · exact .of_same rfl rfl
    · exact Queues.handsOver (flush_handsOver accepts _) rfl (List.sublist_append_left _ _)
  | attemptFailed id cause =>
    unfold onMessage onAttemptFailed
    dsimp only
    split
    · exact .of_same rfl rfl
    · split
      · apply Queues.scheduleReconnect
        exact .of_none rfl rfl
      · apply Queues.scheduleReconnect
        exact .of_same rfl rfl
  | draining id | closed id =>
    apply Queues.scheduleReconnect
    exact .of_same rfl rfl
  | shutdown caller =>
    unfold onMessage onShutdown
    dsimp only
    split
    · exact .of_same rfl rfl
    · exact .of_none rfl rfl
  | writabilityChanged id writable =>
    cases writable with
    | false => exact .of_same rfl rfl
    | true =>
      exact Queues.handsOver (flush_handsOver accepts { pool := p.setWritable id true }) rfl
        (List.sublist_append_left _ _)

theorem fill_queues (w : Work) : w.pool.Queues new (fill w).pool := by
  obtain ⟨k, hq, -⟩ := fill_spec w
  rw [hq]
  exact .of_same rfl rfl

theorem start_waiters (config : ClientConfig) :
    (start config).pool.acquireTimeout = config.acquireTimeout ∧
      (start config).pool.waiters = [] := by
  have hq : (ofConfig config).Queues [] (start config).pool :=
    fill_queues { pool := .ofConfig config }
  exact ⟨hq.timeout, List.sublist_nil.mp hq.waiters⟩

theorem onTimer_queues (time : Moment) (p : Pool) (x : PoolTimer) :
    p.Queues [] (p.onTimer time x).pool := by
  cases x with
  | reconnect =>
    have hq : Queues { p with reconnectAt := none } [] _ := fill_queues { pool := _ }
    exact ⟨hq.timeout, hq.waiters⟩
  | expire =>
    refine ⟨rfl, ?_⟩
    rw [List.append_nil]
    exact List.dropWhile_sublist _
  | force => exact .of_same rfl rfl

end Pool

/-- The notification that the pool is given to deal with. -/
def PoolInput.dispatch? : PoolInput → Option Dispatch
  | message m => m.dispatch?
  | timer _ => none

theorem PoolTurn.work_queues (t : PoolTurn) : t.before.Queues
    (t.input.dispatch?.toList.map fun n => ⟨n, Moment.after t.time t.before.acquireTimeout⟩)
    t.work.pool := by
  unfold PoolTurn.work
  cases t.input with
  | message m => exact Pool.onMessage_queues t.accepts t.time t.before m
  | timer x => exact Pool.onTimer_queues t.time t.before x

namespace World

variable {w v : World} {m : Move}

/-- The notification that the pool deals with in a move. -/
def dealt? (w : World) (m : Move) : Option Dispatch :=
  (w.poolInput? m).bind PoolInput.dispatch?

theorem dealt?_eq_some {p : Dispatch} (h : w.dealt? m = some p) :
    ∃ msg ∈ w.channel, msg.dispatch? = some p := by
  obtain ⟨input, hi, hd⟩ := Option.bind_eq_some_iff.mp h
  cases m with
  | pool =>
    obtain ⟨msg, hmsg, rfl⟩ := Option.map_eq_some_iff.mp hi
    exact ⟨msg, List.mem_of_mem_head? hmsg, hd⟩
  | timer t =>
    obtain rfl := Option.some.inj hi
    cases hd
  | _ => cases hi

theorem Passes.queues (h : w.Passes m v) : w.pool.Queues
    ((w.dealt? m).toList.map fun n => ⟨n, Moment.after w.time w.pool.acquireTimeout⟩) v.pool := by
  have hturn {t : PoolTurn} (turns : w.Turns m t) : w.pool.Queues
      ((w.dealt? m).toList.map fun n => ⟨n, Moment.after w.time w.pool.acquireTimeout⟩)
      t.work.pool := by
    have hq := t.work_queues
    rw [turns.follows.1, turns.time] at hq
    rw [dealt?, turns.input]
    exact hq
  obtain ⟨-, hpool⟩ := h
  generalize v.pool = q at hpool ⊢
  cases hpool with
  | still => exact .of_same rfl rfl
  | turn turns => exact hturn turns
  | last turns => exact .of_none (hturn turns).timeout rfl

theorem start_waiters (config : ClientConfig) :
    (start config).1.pool.acquireTimeout = config.acquireTimeout ∧
      (start config).1.pool.waiters = [] := by
  rw [start_eq, (each_perform_keeps _ _).1]
  exact Pool.start_waiters config

end World

/-- The waiters stand in the order of their deadlines, and nobody has more time left than anybody
gets. -/
structure InTime (config : ClientConfig) (w : World) : Prop where
  timeout : w.pool.acquireTimeout = config.acquireTimeout
  sorted : w.pool.waiters.Pairwise fun x y => x.deadline ≤ y.deadline
  bounded : ∀ x ∈ w.pool.waiters, x.deadline ≤ Moment.after w.time config.acquireTimeout

variable {config : ClientConfig} {w v : World} {m : Move}

theorem InTime.pass (h : InTime config w) (hv : w.Passes m v) : InTime config v := by
  have hlater (d : Duration) : Moment.after w.time d ≤ Moment.after v.time d :=
    Nat.add_le_add_right hv.time _
  have hnew : ∀ y ∈ (w.dealt? m).toList.map fun n =>
      (⟨n, Moment.after w.time w.pool.acquireTimeout⟩ : Waiter),
      y.deadline = Moment.after w.time config.acquireTimeout := by
    intro y hy
    obtain ⟨n, -, rfl⟩ := List.mem_map.mp hy
    rw [← h.timeout]
  refine ⟨hv.queues.timeout.trans h.timeout, ?_, ?_⟩
  · refine List.Pairwise.sublist hv.queues.waiters (List.pairwise_append.mpr ⟨h.sorted, ?_, ?_⟩)
    · cases w.dealt? m with
      | none => exact List.Pairwise.nil
      | some n => exact List.pairwise_singleton _ _
    · intro x hx y hy
      rw [hnew y hy]
      exact h.bounded x hx
  · intro x hx
    rcases List.mem_append.mp (hv.queues.waiters.subset hx) with hx | hx
    · exact Nat.le_trans (h.bounded x hx) (hlater _)
    · rw [hnew x hx]
      exact hlater _

theorem History.inTime {es : List Episode} (h : History config es w) : InTime config w := by
  unfold History at h
  induction h with
  | nil =>
    obtain ⟨htimeout, hnone⟩ := World.start_waiters config
    refine ⟨htimeout, ?_, ?_⟩
    · rw [hnone]
      exact List.Pairwise.nil
    · intro x hx
      rw [hnone] at hx
      cases hx
  | snoc hr he ih =>
    obtain ⟨rfl, hstep⟩ := he
    exact ih.pass (World.step?_passes hstep)

theorem InTime.lt_deadline (h : InTime config w)
    (hdue : ∀ t d, w.pool.deadline? t = some d → w.time < d) :
    ∀ x ∈ w.pool.waiters, w.time < x.deadline := by
  intro x hx
  have hsorted := h.sorted
  cases hw : w.pool.waiters with
  | nil =>
    rw [hw] at hx
    cases hx
  | cons first rest =>
    rw [hw] at hx hsorted
    have hfirst : w.time < first.deadline := hdue .expire _ (by simp [Pool.deadline?, hw])
    rcases List.mem_cons.mp hx with rfl | hx
    · exact hfirst
    · exact Nat.lt_of_lt_of_le hfirst (List.rel_of_pairwise_cons hsorted hx)

end PushDelivery
