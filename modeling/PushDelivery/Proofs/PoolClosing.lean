import PushDelivery.Proofs.Deadlines
import PushDelivery.Proofs.PoolMoves

namespace PushDelivery

/-- Whether an action is the beginning of something. -/
def PoolAction.begins : PoolAction → Bool
  | attempt _ | count .connectionAdded => true
  | _ => false

namespace Pool

variable {accepts : Acceptance} {time : Moment} {p : Pool}

theorem scheduleReconnect_closing (delay : Duration) (p : Pool) :
    (p.scheduleReconnect time delay).closing = p.closing := by
  obtain ⟨planned, h⟩ := scheduleReconnect_frame time delay p
  rw [h]

theorem scheduleReconnect_connections (delay : Duration) (p : Pool) :
    (p.scheduleReconnect time delay).connections = p.connections := by
  obtain ⟨planned, h⟩ := scheduleReconnect_frame time delay p
  rw [h]

theorem onAttemptFailed_connections (id : Nat) (cause : String) (p : Pool) :
    (p.onAttemptFailed time id cause).pool.connections = p.connections := by
  unfold onAttemptFailed
  dsimp only
  split
  · rfl
  · split
    · exact scheduleReconnect_connections _ _
    · exact scheduleReconnect_connections _ _

theorem HandsOver.closing {xs : List Waiter} {w v : Work} (h : HandsOver accepts xs w v) :
    v.pool.closing = w.pool.closing := by
  obtain ⟨-, -, rest, cs, cursor, -, -, -, -, hv, -⟩ := h
  rw [hv]

/-- Whatever a message carries is routed. -/
theorem onMessage_of_dispatch {m : PoolMessage} {n : Dispatch} (hm : m.dispatch? = some n) :
    p.onMessage accepts time m = p.route accepts time n := by
  cases m with
  | submit q | resubmit q =>
    obtain rfl := Option.some.inj hm
    rfl
  | _ => cases hm

/-- Only the client closes the pool. -/
theorem onMessage_closing {m : PoolMessage} (hm : ∀ caller, m ≠ .shutdown caller) :
    (p.onMessage accepts time m).pool.closing = p.closing := by
  have hroute (n : Dispatch) : (p.route accepts time n).pool.closing = p.closing := by
    by_cases hc : p.closing = none
    · exact (route_handsOver accepts time n p hc).closing
    · rw [route_of_closing accepts time n hc]
  cases m with
  | submit n | resubmit n => exact hroute n
  | established id =>
    unfold onMessage onEstablished
    dsimp only
    split
    · rfl
    · exact (flush_handsOver accepts _).closing
  | attemptFailed id cause =>
    unfold onMessage onAttemptFailed
    dsimp only
    split
    · rfl
    · split
      · exact scheduleReconnect_closing _ _
      · exact scheduleReconnect_closing _ _
  | writabilityChanged id writable =>
    cases writable with
    | false => rfl
    | true => exact (flush_handsOver accepts { pool := p.setWritable id true }).closing
  | draining id => exact scheduleReconnect_closing _ _
  | closed id => exact scheduleReconnect_closing _ _
  | shutdown caller => exact absurd rfl (hm caller)

theorem onShutdown_closing (caller : Option Nat) (p : Pool) :
    (p.onShutdown time caller).pool.closing ≠ none := by
  unfold onShutdown
  split
  · simp
  · simp

/-- A pool that closes does not open again. -/
theorem onMessage_closes (m : PoolMessage) (h : p.closing ≠ none) :
    (p.onMessage accepts time m).pool.closing ≠ none := by
  cases m with
  | shutdown caller => exact onShutdown_closing caller p
  | _ =>
    rw [onMessage_closing (by simp)]
    exact h

theorem onTimer_closing (time : Moment) (p : Pool) (x : PoolTimer) :
    (p.onTimer time x).pool.closing = p.closing := by
  obtain ⟨k, -, -, -, hclosing, -⟩ := onTimer_advances time p x
  exact hclosing

/-- Nothing waits in a pool that closes. -/
def Clears (p : Pool) : Prop :=
  p.closing ≠ none → p.waiters = []

theorem onMessage_clears (m : PoolMessage) (h : p.Clears) :
    (p.onMessage accepts time m).pool.Clears := by
  intro hc
  by_cases hp : p.closing = none
  · cases m with
    | shutdown caller =>
      unfold onMessage onShutdown
      dsimp only
      split
      · rename_i c he
        rw [hp] at he
        cases he
      · rfl
    | _ =>
      rw [onMessage_closing (by simp)] at hc
      exact absurd hp hc
  · cases hd : m.dispatch? with
    | some n =>
      rw [onMessage_of_dispatch hd, route_of_closing accepts time n hp]
      exact h hp
    | none =>
      have hqueues := (onMessage_queues accepts time p m).waiters
      rw [hd, h hp] at hqueues
      exact List.sublist_nil.mp hqueues

theorem onTimer_clears (time : Moment) (x : PoolTimer) (h : p.Clears) :
    (p.onTimer time x).pool.Clears := by
  intro hc
  have hnone := h (onTimer_closing time p x ▸ hc)
  cases x with
  | reconnect =>
    obtain ⟨k, hq, -⟩ := fill_spec { pool := { p with reconnectAt := none } }
    unfold onTimer
    rw [hq]
    exact hnone
  | expire =>
    change p.waiters.dropWhile _ = []
    rw [hnone]
    rfl
  | force => exact hnone

/-- What a step of a pool that closes does: nothing begins in it. -/
structure Winds (p : Pool) (w : Work) : Prop where
  fewer : w.pool.connectionIds.Sublist p.connectionIds
  quiet : ∀ a ∈ w.actions, a.begins = false

theorem quiet_of_fail {e : SendError} {ps : List Dispatch} :
    ∀ a ∈ fail e ps, a.begins = false := by
  intro a ha
  obtain ⟨n, -, rfl⟩ := List.mem_map.mp ha
  rfl

theorem onShutdown_winds (caller : Option Nat) (p : Pool) :
    p.Winds (p.onShutdown time caller) := by
  unfold onShutdown
  split
  · exact ⟨.refl _, by simp⟩
  · refine ⟨.refl _, fun a ha => ?_⟩
    rcases List.mem_append.mp ha with ha | ha
    · rcases List.mem_append.mp ha with ha | ha
      · exact quiet_of_fail a ha
      · obtain ⟨id, -, rfl⟩ := List.mem_map.mp ha
        rfl
    · obtain rfl := List.mem_singleton.mp ha
      rfl

theorem HandsOver.winds {xs : List Waiter} {w v : Work} (h : HandsOver accepts xs w v)
    (hw : p.Winds w) : p.Winds v := by
  obtain ⟨hands, -, rest, cs, cursor, -, -, -, hcs, hv, ha⟩ := h
  refine ⟨?_, fun a hm => ?_⟩
  · have hids : v.pool.connectionIds = w.pool.connectionIds := by
      apply connectionIds_of_outline
      rw [hv]
      exact hcs
    exact hids ▸ hw.fewer
  · rw [ha] at hm
    rcases List.mem_append.mp hm with hm | hm
    · exact hw.quiet a hm
    · obtain ⟨x, -, rfl⟩ := List.mem_map.mp hm
      rfl

theorem onMessage_winds (m : PoolMessage) (hc : p.closing ≠ none) :
    p.Winds (p.onMessage accepts time m) := by
  have hsome : p.closing.isSome = true := Option.isSome_iff_ne_none.mpr hc
  cases m with
  | submit n | resubmit n =>
    change p.Winds (p.route accepts time n)
    rw [route_of_closing accepts time n hc]
    exact ⟨.refl _, quiet_of_fail⟩
  | established id =>
    unfold onMessage onEstablished
    dsimp only
    rw [if_pos hsome]
    exact ⟨.refl _, by simp⟩
  | attemptFailed id cause =>
    unfold onMessage onAttemptFailed
    dsimp only
    rw [if_pos hsome]
    exact ⟨.refl _, by simp [PoolAction.begins]⟩
  | writabilityChanged id writable =>
    have hsets : p.Winds { pool := p.setWritable id writable } := by
      refine ⟨?_, by simp⟩
      rw [connectionIds_of_outline (outline_setWritable id writable p)]
    cases writable with
    | false => exact hsets
    | true => exact (flush_handsOver accepts { pool := p.setWritable id true }).winds hsets
  | draining id =>
    refine ⟨?_, by simp [onMessage]⟩
    unfold onMessage onDraining connectionIds
    rw [scheduleReconnect_connections]
    change (p.update id _).connectionIds.Sublist _
    rw [connectionIds_update]
    · exact .refl _
    · intro c
      rfl
  | closed id =>
    refine ⟨?_, fun a ha => ?_⟩
    · unfold onMessage onClosed connectionIds
      rw [scheduleReconnect_connections]
      exact List.filter_sublist.map _
    · unfold onMessage onClosed at ha
      dsimp only at ha
      split at ha
      · obtain rfl := List.mem_singleton.mp ha
        rfl
      · cases ha
  | shutdown caller => exact onShutdown_winds caller p

theorem onTimer_winds (time : Moment) (x : PoolTimer) (hc : p.closing ≠ none) :
    p.Winds (p.onTimer time x) := by
  cases x with
  | reconnect =>
    unfold onTimer fill
    rw [if_pos (Option.isSome_iff_ne_none.mpr hc)]
    exact ⟨.refl _, by simp⟩
  | expire => exact ⟨.refl _, quiet_of_fail⟩
  | force =>
    refine ⟨List.nil_sublist _, fun a ha => ?_⟩
    rcases List.mem_append.mp ha with ha | ha
    · obtain ⟨id, -, rfl⟩ := List.mem_map.mp ha
      rfl
    · obtain ⟨c, -, rfl⟩ := List.mem_map.mp ha
      rfl

theorem onMessage_fails {m : PoolMessage} {n : Dispatch} (hc : p.closing ≠ none)
    (hm : m.dispatch? = some n) :
    .report (n.fail .clientClosed) ∈ (p.onMessage accepts time m).actions := by
  rw [onMessage_of_dispatch hm, route_of_closing accepts time n hc]
  exact List.mem_singleton_self _

end Pool

/-- The pool ends only when the client ends it. -/
theorem PoolTurn.work_ended (t : PoolTurn) : t.work.pool.ended = t.before.ended := by
  unfold work
  split
  · exact (@Pool.onMessage_work t.accepts t.time t.before _).2.ended
  · exact (@Pool.onTimer_work t.accepts t.time t.before _).2.ended

theorem PoolTurn.winds {t : PoolTurn}
    (hc : t.before.closing ≠ none ∨ ∃ caller, t.input = .message (.shutdown caller)) :
    t.work.pool.closing ≠ none ∧ t.before.Winds t.work ∧
      ∀ m p, t.input = .message m → m.dispatch? = some p →
        .report (p.fail .clientClosed) ∈ t.work.actions := by
  unfold work
  cases hi : t.input with
  | message m =>
    rw [hi] at hc
    dsimp only
    rcases hc with hc | ⟨caller, hm⟩
    · refine ⟨Pool.onMessage_closes m hc, Pool.onMessage_winds m hc, ?_⟩
      rintro _ p ⟨⟩ hp
      exact Pool.onMessage_fails hc hp
    · obtain rfl := PoolInput.message.inj hm
      refine ⟨Pool.onShutdown_closing caller _, Pool.onShutdown_winds caller _, ?_⟩
      rintro _ p ⟨⟩ hp
      cases hp
  | timer x =>
    rw [hi] at hc
    have hclosing : t.before.closing ≠ none := hc.resolve_right (by simp)
    refine ⟨?_, Pool.onTimer_winds t.time x hclosing, by simp⟩
    rw [Pool.onTimer_closing]
    exact hclosing

variable {config : ClientConfig} {es : List Episode} {w : World}

theorem History.turn_strong {t : PoolTurn} {m : Move} (h : History config es w)
    (turns : w.Turns m t) : t.work.pool.Strong ∧ t.work.pool.Clears ∧ w.pool.Strong ∧
      ∀ msg, t.input = .message msg → w.pool.Expects msg := by
  obtain ⟨ts, hts⟩ := h.ordered turns.runs
  obtain ⟨hrun, hstrong, hexpects⟩ := hts.turn_strong turns
  refine ⟨hstrong, ?_, (hts.run.strong hts.order).1, hexpects⟩
  refine hrun.invariant ?_ (fun p accepts time m hp => Pool.onMessage_clears m hp)
    fun p time x hp => Pool.onTimer_clears time x hp
  obtain ⟨k, hp, -⟩ := Pool.fill_spec { pool := .ofConfig config }
  unfold Pool.start
  rw [hp]
  exact fun hc => absurd rfl hc

end PushDelivery
