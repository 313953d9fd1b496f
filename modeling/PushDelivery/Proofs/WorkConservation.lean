import PushDelivery.Proofs.PoolRun

namespace PushDelivery.Pool

variable {accepts : Acceptance} {time : Moment} {p : Pool}

/-- Connections have numbers of their own, and those that are open for work have their turns. -/
structure Listed (p : Pool) : Prop where
  distinct : p.connectionIds.Nodup
  turns : ∀ c ∈ p.connections, c.phase = .connected → c.id ∈ p.rotation

/-- No connection takes work. -/
def Busy (p : Pool) : Prop :=
  ∀ c ∈ p.connections, c.takesWork = false

def idleCount (p : Pool) : Nat :=
  p.connections.countP PooledConnection.takesWork

theorem connected_of_takesWork {c : PooledConnection} (h : c.takesWork = true) :
    c.phase = .connected :=
  beq_iff_eq.mp (Bool.and_eq_true_iff.mp h).2

theorem mem_of_takesWork {id : Nat} (h : p.takesWork id = true) :
    ∃ c ∈ p.connections, c.id = id ∧ c.takesWork = true := by
  unfold takesWork find? at h
  obtain ⟨c, hc, ht⟩ := (Option.any_eq_true _ _).mp h
  exact ⟨c, List.mem_of_find?_eq_some hc, by simpa using List.find?_some hc, ht⟩

section Scan

theorem scan_eq_none {places : Nat} (h : (p.scan places).1 = none) :
    ∀ j < places, ∀ id, p.rotation[(p.cursor + j) % p.rotation.length]? = some id →
      p.takesWork id = false := by
  induction places generalizing p with
  | zero =>
    intro j hj
    omega
  | succ places ih =>
    unfold scan at h
    split at h
    · -- Only an empty rotation has no place at the cursor.
      rename_i hnone
      have hlen : p.rotation.length ≤ p.cursor % p.rotation.length :=
        List.getElem?_eq_none_iff.mp hnone
      have hempty : p.rotation = [] := by
        by_contra hne
        have hlt := Nat.mod_lt p.cursor (List.length_pos_iff.mpr hne)
        omega
      intro j _ id hid
      simp [hempty] at hid
    · rename_i first hfirst
      dsimp only at h
      split at h
      · cases h
      · rename_i hidle
        intro j hj id hid
        cases j with
        | zero =>
          rw [Nat.add_zero, hfirst] at hid
          obtain rfl := Option.some.inj hid
          simpa using hidle
        | succ j =>
          refine ih h j (by omega) id ?_
          have hmod : ((p.cursor + 1) % p.rotation.length + j) % p.rotation.length =
              (p.cursor + (j + 1)) % p.rotation.length := by
            rw [Nat.mod_add_mod, Nat.add_assoc, Nat.add_comm 1 j]
          dsimp only
          rw [hmod]
          exact hid

theorem scan_eq_some {places id : Nat} (h : (p.scan places).1 = some id) :
    id ∈ p.rotation ∧ p.takesWork id = true := by
  induction places generalizing p with
  | zero => cases h
  | succ places ih =>
    unfold scan at h
    split at h
    · cases h
    · rename_i first hfirst
      dsimp only at h
      split at h
      · rename_i htakes
        obtain rfl := Option.some.inj h
        exact ⟨List.mem_of_getElem? hfirst, htakes⟩
      · have hlater := ih h
        exact hlater

theorem exists_round {i k : Nat} (hi : i < k) (cursor : Nat) : ∃ j < k, (cursor + j) % k = i := by
  have hlt := Nat.mod_lt cursor (Nat.zero_lt_of_lt hi)
  by_cases hc : cursor % k ≤ i
  · refine ⟨i - cursor % k, by omega, ?_⟩
    rw [← Nat.mod_add_mod, Nat.add_sub_cancel' hc, Nat.mod_eq_of_lt hi]
  · refine ⟨i + k - cursor % k, by omega, ?_⟩
    rw [← Nat.mod_add_mod, Nat.add_sub_cancel' (by omega), Nat.add_mod_right, Nat.mod_eq_of_lt hi]

theorem nextWritable_eq_none (h : p.nextWritable.1 = none) :
    ∀ id ∈ p.rotation, p.takesWork id = false := by
  intro id hid
  obtain ⟨i, hi, rfl⟩ := List.mem_iff_getElem.mp hid
  obtain ⟨j, hj, hround⟩ := exists_round hi p.cursor
  refine scan_eq_none h j hj _ ?_
  rw [hround, List.getElem?_eq_getElem hi]

theorem Listed.busy (hp : p.Listed) (h : p.nextWritable.1 = none) : p.Busy := by
  intro c hc
  cases ht : c.takesWork with
  | false => rfl
  | true =>
    have hno := nextWritable_eq_none h c.id (hp.turns c hc (connected_of_takesWork ht))
    simp [takesWork, find?, find?_of_nodup hp.distinct hc, ht] at hno

end Scan

/-- Only the outline of the connections and the rotation matter. -/
theorem Listed.of_outline {q : Pool} (h : p.Listed)
    (hc : outline q.connections = outline p.connections) (hr : q.rotation = p.rotation) :
    q.Listed := by
  constructor
  · rw [connectionIds_of_outline hc]
    exact h.distinct
  · intro d hd hphase
    have hm : (d.id, d.phase) ∈ outline p.connections :=
      hc ▸ List.mem_map.mpr ⟨d, hd, rfl⟩
    obtain ⟨c, hm, he⟩ := List.mem_map.mp hm
    obtain ⟨hid, hsame⟩ := Prod.mk.inj he
    rw [hr, ← hid]
    exact h.turns c hm (hsame.trans hphase)

/-- A connection that has refused is not asked again. -/
theorem idleCount_setWritable {id : Nat} (h : p.takesWork id = true) :
    (p.setWritable id false).idleCount < p.idleCount := by
  obtain ⟨c, hc, rfl, ht⟩ := mem_of_takesWork h
  obtain ⟨before, after, he⟩ := List.mem_iff_append.mp hc
  let dim : PooledConnection → PooledConnection :=
    fun d => if d.id == c.id then { d with writable := false } else d
  have hle (cs : List PooledConnection) :
      (cs.map dim).countP PooledConnection.takesWork ≤ cs.countP PooledConnection.takesWork := by
    rw [List.countP_map]
    apply List.countP_mono_left
    intro d _ hd
    by_cases hid : d.id = c.id
    · simp [dim, hid, PooledConnection.takesWork] at hd
    · simpa [dim, hid] using hd
  have hb := hle before
  have ha := hle after
  have hself : (dim c).takesWork = false := by simp [dim, PooledConnection.takesWork]
  change (p.connections.map dim).countP PooledConnection.takesWork <
    p.connections.countP PooledConnection.takesWork
  rw [he, List.map_append, List.map_cons, List.countP_append, List.countP_append,
    List.countP_cons_of_neg (by simp [hself]), List.countP_cons_of_pos ht]
  omega

theorem offerWithin_busy (n : Dispatch) (fuel : Nat) (w : Work) (hw : w.pool.Listed)
    (hfuel : w.pool.idleCount < fuel) (h : (offerWithin accepts n fuel w).1 = false) :
    (offerWithin accepts n fuel w).2.pool.Busy := by
  induction fuel generalizing w with
  | zero => omega
  | succ fuel ih =>
    obtain ⟨cursor, hq⟩ := scan_frame w.pool.rotation.length w.pool
    unfold offerWithin at h ⊢
    split at h
    · rename_i q he
      have hnone : w.pool.nextWritable.1 = none := congrArg Prod.fst he
      unfold nextWritable at he
      rw [he] at hq
      dsimp only at hq
      subst hq
      exact hw.busy hnone
    · rename_i id q he
      have hsome : w.pool.takesWork id = true := (scan_eq_some (congrArg Prod.fst he)).2
      unfold nextWritable at he
      rw [he] at hq
      dsimp only at hq h ⊢
      subst hq
      split at h
      · cases h
      · rename_i hrefused
        rw [if_neg hrefused]
        have hless : ({ w.pool with cursor := cursor }.setWritable id false).idleCount <
            w.pool.idleCount := idleCount_setWritable (p := { w.pool with cursor := cursor }) hsome
        refine ih _ ?_ (Nat.lt_of_lt_of_le hless (by omega)) h
        exact hw.of_outline (outline_setWritable id false _) rfl

theorem offer_busy (accepts : Acceptance) (n : Dispatch) (w : Work) (hw : w.pool.Listed)
    (h : (offer accepts n w).1 = false) : (offer accepts n w).2.pool.Busy := by
  have hle : w.pool.idleCount ≤ w.pool.connections.length := List.countP_le_length
  exact offerWithin_busy n _ w hw (by omega) h

/-- What the pool keeps between its steps. -/
structure Serves (p : Pool) : Prop extends Listed p where
  waits : p.waiters ≠ [] → p.Busy

theorem flushWithin_serves (xs : List Waiter) (w : Work) (hw : w.pool.Listed) :
    (flushWithin accepts xs w).pool.Serves := by
  induction xs generalizing w with
  | nil => exact ⟨⟨hw.distinct, hw.turns⟩, fun h => absurd rfl h⟩
  | cons x xs ih =>
    obtain ⟨cs, cursor, hcs, hp, -⟩ :=
      offerWithin_spec accepts x.dispatch (w.pool.connections.length + 1) w
    have hlisted : (offer accepts x.dispatch w).2.pool.Listed := by
      refine hw.of_outline ?_ ?_
      · rw [offer, hp]
        exact hcs
      · rw [offer, hp]
    have hbusy := offer_busy accepts x.dispatch w hw
    unfold flushWithin
    split
    · rename_i v he
      rw [he] at hlisted
      exact ih v hlisted
    · rename_i v he
      rw [he] at hlisted hbusy
      exact ⟨⟨hlisted.distinct, hlisted.turns⟩, fun _ => hbusy rfl⟩

theorem flush_serves (w : Work) (hw : w.pool.Listed) : (flush accepts w).pool.Serves :=
  flushWithin_serves w.pool.waiters w hw

theorem route_serves (n : Dispatch) (hp : p.Serves) : (p.route accepts time n).pool.Serves := by
  obtain ⟨cs, cursor, hcs, hpool, -⟩ :=
    offerWithin_spec accepts n (p.connections.length + 1) { pool := p }
  have hlisted : (offer accepts n { pool := p }).2.pool.Listed := by
    refine hp.toListed.of_outline ?_ ?_
    · rw [offer, hpool]
      exact hcs
    · rw [offer, hpool]
  unfold route
  split
  · exact hp
  · dsimp only
    split
    · rename_i hnobody
      split
      · rename_i w he
        rw [he] at hlisted
        refine ⟨hlisted, fun hwaits => ?_⟩
        -- The notification is taken, and nothing waited before it.
        have hnone : w.pool.waiters = p.waiters := by
          have hw : (offer accepts n { pool := p }).2.pool.waiters = p.waiters := by
            rw [offer, hpool]
          rw [he] at hw
          exact hw
        rw [hnone, List.isEmpty_iff.mp hnobody] at hwaits
        exact absurd rfl hwaits
      · rename_i w he
        rw [he] at hlisted
        exact flush_serves _ ⟨hlisted.distinct, hlisted.turns⟩
    · exact flush_serves _ ⟨hp.distinct, hp.turns⟩

theorem Serves.of_fewer {q : Pool} (hp : p.Serves) (hq : q.Listed)
    (hw : q.waiters ≠ [] → p.waiters ≠ [])
    (hc : ∀ d ∈ q.connections, d.takesWork = true → ∃ c ∈ p.connections, c.takesWork = true) :
    q.Serves := by
  refine ⟨hq, fun hwaits d hd => ?_⟩
  cases ht : d.takesWork with
  | false => rfl
  | true =>
    obtain ⟨c, hm, hc⟩ := hc d hd ht
    rw [hp.waits (hw hwaits) c hm] at hc
    cases hc

theorem Serves.of_same {q : Pool} (hp : p.Serves) (hc : q.connections = p.connections)
    (hr : q.rotation = p.rotation) (hw : q.waiters ≠ [] → p.waiters ≠ []) : q.Serves :=
  hp.of_fewer (hp.toListed.of_outline (by rw [hc]) hr) hw fun d hd ht => ⟨d, hc ▸ hd, ht⟩

theorem Serves.scheduleReconnect (hp : p.Serves) (delay : Duration) :
    (p.scheduleReconnect time delay).Serves := by
  obtain ⟨planned, h⟩ := scheduleReconnect_frame time delay p
  rw [h]
  exact hp.of_same rfl rfl fun hw => hw

theorem onEstablished_serves (id : Nat) (hp : p.Serves) :
    (p.onEstablished accepts id).pool.Serves := by
  unfold onEstablished
  dsimp only
  split
  · exact hp.of_same rfl rfl fun hw => hw
  · refine flush_serves _ ⟨?_, ?_⟩
    · rw [connectionIds, List.map_append, List.nodup_append]
      refine ⟨hp.distinct.sublist (List.filter_sublist.map _), List.nodup_singleton _, ?_⟩
      intro a ha b hb
      obtain ⟨c, hc, rfl⟩ := List.mem_map.mp ha
      obtain rfl : b = id := by simpa using hb
      simpa using (List.mem_filter.mp hc).2
    · intro c hc hphase
      rcases List.mem_append.mp hc with hc | hc
      · exact List.mem_append_left _ (hp.turns c (List.mem_of_mem_filter hc) hphase)
      · obtain rfl := List.mem_singleton.mp hc
        exact List.mem_append_right _ (List.mem_singleton_self id)

theorem onAttemptFailed_serves (id : Nat) (cause : String) (hp : p.Serves) :
    (p.onAttemptFailed time id cause).pool.Serves := by
  unfold onAttemptFailed
  dsimp only
  split
  · exact hp.of_same rfl rfl fun hw => hw
  · split
    · refine Serves.scheduleReconnect ?_ _
      exact hp.of_same rfl rfl fun hw => absurd rfl hw
    · refine Serves.scheduleReconnect ?_ _
      exact hp.of_same rfl rfl fun hw => hw

theorem onDraining_serves (id : Nat) (hp : p.Serves) : (p.onDraining time id).Serves := by
  unfold onDraining
  refine Serves.scheduleReconnect ?_ _
  have hleft : ∀ d ∈ (p.update id fun c => { c with phase := .draining, writable := false }
      ).connections, d.phase = .connected → d ∈ p.connections ∧ d.id ≠ id := by
    intro d hd hphase
    obtain ⟨c, hc, rfl⟩ := List.mem_map.mp hd
    by_cases hid : c.id = id
    · simp [hid] at hphase
    · rw [if_neg (by simpa using hid)]
      exact ⟨hc, hid⟩
  refine hp.of_fewer ⟨?_, ?_⟩ (fun hw => hw) ?_
  · change (p.update id _).connectionIds.Nodup
    rw [connectionIds_update]
    · exact hp.distinct
    · intro c
      rfl
  · intro d hd hphase
    obtain ⟨hm, hne⟩ := hleft d hd hphase
    exact List.mem_filter.mpr ⟨hp.turns d hm hphase, by simpa using hne⟩
  · intro d hd ht
    exact ⟨d, (hleft d hd (connected_of_takesWork ht)).1, ht⟩

theorem onClosed_serves (id : Nat) (hp : p.Serves) : (p.onClosed time id).pool.Serves := by
  unfold onClosed
  refine Serves.scheduleReconnect ?_ _
  refine hp.of_fewer ⟨?_, ?_⟩ (fun hw => hw) ?_
  · exact hp.distinct.sublist (List.filter_sublist.map _)
  · intro d hd hphase
    obtain ⟨hm, hne⟩ := List.mem_filter.mp hd
    exact List.mem_filter.mpr ⟨hp.turns d hm hphase, hne⟩
  · intro d hd ht
    exact ⟨d, List.mem_of_mem_filter hd, ht⟩

theorem onShutdown_serves (caller : Option Nat) (hp : p.Serves) :
    (p.onShutdown time caller).pool.Serves := by
  unfold onShutdown
  split
  · exact hp.of_same rfl rfl fun hw => hw
  · exact hp.of_same rfl rfl fun hw => absurd rfl hw

theorem setWritable_serves (id : Nat) (hp : p.Serves) : (p.setWritable id false).Serves := by
  refine hp.of_fewer (hp.toListed.of_outline (outline_setWritable id false p) rfl)
    (fun hw => hw) ?_
  intro d hd ht
  obtain ⟨c, hc, rfl⟩ := List.mem_map.mp hd
  by_cases hid : c.id = id
  · simp [hid, PooledConnection.takesWork] at ht
  · exact ⟨c, hc, by simpa [hid] using ht⟩

theorem onMessage_serves (m : PoolMessage) (hp : p.Serves) :
    (p.onMessage accepts time m).pool.Serves := by
  cases m with
  | submit n | resubmit n => exact route_serves n hp
  | established id => exact onEstablished_serves id hp
  | attemptFailed id cause => exact onAttemptFailed_serves id cause hp
  | draining id => exact onDraining_serves id hp
  | closed id => exact onClosed_serves id hp
  | shutdown caller => exact onShutdown_serves caller hp
  | writabilityChanged id writable =>
    cases writable with
    | false => exact setWritable_serves id hp
    | true => exact flush_serves _ (hp.toListed.of_outline (outline_setWritable id true p) rfl)

theorem fill_serves (w : Work) (hw : w.pool.Serves) : (fill w).pool.Serves := by
  obtain ⟨k, hp, -⟩ := fill_spec w
  rw [hp]
  exact hw.of_same rfl rfl fun h => h

theorem onTimer_serves (t : PoolTimer) (hp : p.Serves) : (p.onTimer time t).pool.Serves := by
  cases t with
  | reconnect => exact fill_serves _ (hp.of_same rfl rfl fun hw => hw)
  | expire =>
    refine hp.of_same rfl rfl fun hw hnone => hw ?_
    change p.waiters.dropWhile (isExpired time) = []
    rw [hnone]
    rfl
  | force =>
    refine hp.of_fewer ⟨List.nodup_nil, ?_⟩ (fun hw => hw) ?_
    all_goals
      intro c hc
      cases hc

theorem start_serves (config : ClientConfig) : (start config).pool.Serves := by
  refine fill_serves _ ⟨⟨List.nodup_nil, ?_⟩, fun hw => absurd rfl hw⟩
  intro c hc
  cases hc

theorem serves_of_run {config : ClientConfig} {ts : List PoolTurn} (h : PoolRun config ts p) :
    p.Serves :=
  h.invariant (start_serves config) (fun _ _ _ m hp => onMessage_serves m hp)
    fun _ _ x hp => onTimer_serves x hp

/-- Whatever messages come and timers go off, and whatever connections refuse: as long as something
waits in the pool, no connection takes work. -/
theorem no_connection_idle (config : ClientConfig) (ts : List PoolTurn) (p : Pool)
    (h : PoolRun config ts p) (hw : p.waiters ≠ []) : ∀ c ∈ p.connections, c.takesWork = false :=
  (serves_of_run h).waits hw

/-- The only connection says that it takes no more streams, and then a notification comes. -/
def crowded : Option (List PoolTurn × Pool) :=
  (start (.standard "gateway.example" .none)).pool.play (fun _ _ => true)
    [(0, .message (.established 1)), (0, .message (.writabilityChanged 1 false)),
      (0, .message (.submit ⟨1, ⟨"00fc13ad", "com.example.app", "\x7b\x7d", none, .immediate, none,
        none, none⟩, false, false, false⟩))]

theorem none_idle_of_crowded : ∃ ts p, PoolRun (.standard "gateway.example" .none) ts p ∧
    p.waiters ≠ [] ∧ ∃ c ∈ p.connections, c.phase = .connected ∧ c.takesWork = false := by
  have hd : crowded.any (fun x => !x.2.waiters.isEmpty &&
      x.2.connections.any PooledConnection.isConnected) = true := by decide +kernel
  obtain ⟨⟨ts, p⟩, hplay, hx⟩ := (Option.any_eq_true _ _).mp hd
  obtain ⟨hwaits, hconnected⟩ := Bool.and_eq_true_iff.mp hx
  have hw : p.waiters ≠ [] := by simpa using hwaits
  obtain ⟨c, hc, hphase⟩ := List.any_eq_true.mp hconnected
  have hrun : PoolRun (.standard "gateway.example" .none) ts p := PoolRun.start.of_play hplay
  have hidle := no_connection_idle _ ts p hrun hw c hc
  exact ⟨ts, p, hrun, hw, c, hc, by simpa [PooledConnection.isConnected] using hphase, hidle⟩

end PushDelivery.Pool
