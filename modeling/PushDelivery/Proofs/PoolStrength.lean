import PushDelivery.Proofs.PoolOrder

namespace PushDelivery

namespace Pool

variable {accepts : Acceptance} {time : Moment} {p q : Pool}

def connectedIds (p : Pool) : List Nat :=
  (p.connections.filter PooledConnection.isConnected).map PooledConnection.id

theorem connectedCount_eq (p : Pool) : p.connectedCount = p.connectedIds.length := by
  simp [connectedCount, connectedIds, List.countP_eq_length_filter]

theorem connectedIds_of_outline (h : outline q.connections = outline p.connections) :
    q.connectedIds = p.connectedIds := by
  have hids (cs : List PooledConnection) :
      (cs.filter PooledConnection.isConnected).map PooledConnection.id =
        ((outline cs).filter fun x => x.2 == .connected).map Prod.fst := by
    simp [outline, List.filter_map, Function.comp_def]
    rfl
  unfold connectedIds
  rw [hids, hids, h]

/-- What the pool keeps between its steps, all but the plan to connect. -/
structure Sized (p : Pool) : Prop where
  distinct : (p.connecting ++ p.connectionIds).Nodup
  turns : p.rotation = p.connectedIds
  running : ∀ id, id ∈ p.tasks ↔ id ∈ p.connecting ∨ id ∈ p.connectionIds
  bounded : p.activeCount ≤ p.target
  stopped : p.closing ≠ none → p.connecting = []

/-- Whether connections are to be opened. -/
def Lacking (p : Pool) : Prop :=
  p.closing = none ∧ p.activeCount < p.target

structure Strong (p : Pool) : Prop extends Sized p where
  planned : p.reconnectAt.isSome = true ↔ p.Lacking

theorem Sized.strong (hp : p.Sized) (h : p.reconnectAt.isSome = true → p.Lacking)
    (time : Moment) (delay : Duration) : (p.scheduleReconnect time delay).Strong := by
  obtain ⟨planned, hq⟩ := scheduleReconnect_frame time delay p
  refine ⟨?_, ?_⟩
  · rw [hq]
    exact ⟨hp.distinct, hp.turns, hp.running, hp.bounded, hp.stopped⟩
  · unfold scheduleReconnect
    split
    · rename_i hno
      refine ⟨h, fun hlacking => ?_⟩
      rcases hno with hclosing | hfull
      · simp [hlacking.1] at hclosing
      · exact absurd hlacking.2 (Nat.not_lt.mpr hfull)
    · rename_i hno
      refine ⟨fun _ => ?_, fun _ => rfl⟩
      rw [not_or, Option.isSome_iff_ne_none, not_not, Nat.not_le] at hno
      exact hno

/-- Only the outline of the connections matters, and what is on its way, running or planned. -/
theorem Sized.of_same (hp : p.Sized) (hc : outline q.connections = outline p.connections)
    (hn : q.connecting = p.connecting) (hr : q.rotation = p.rotation) (ht : q.tasks = p.tasks)
    (hw : q.target = p.target) (hs : q.closing = p.closing) : q.Sized where
  distinct := by
    rw [hn, connectionIds_of_outline hc]
    exact hp.distinct
  turns := by
    rw [hr, connectedIds_of_outline hc]
    exact hp.turns
  running := by
    rw [ht, hn, connectionIds_of_outline hc]
    exact hp.running
  bounded := by
    rw [activeCount, connectedCount_eq, connectedIds_of_outline hc, ← connectedCount_eq, hn, hw]
    exact hp.bounded
  stopped := by
    rw [hs, hn]
    exact hp.stopped

theorem Strong.of_same (hp : p.Strong) (hc : outline q.connections = outline p.connections)
    (hn : q.connecting = p.connecting) (hr : q.rotation = p.rotation) (ht : q.tasks = p.tasks)
    (hw : q.target = p.target) (hs : q.closing = p.closing) (hat : q.reconnectAt = p.reconnectAt) :
    q.Strong := by
  refine ⟨hp.toSized.of_same hc hn hr ht hw hs, ?_⟩
  rw [Lacking, activeCount, connectedCount_eq, connectedIds_of_outline hc, ← connectedCount_eq, hn,
    hw, hs, hat]
  exact hp.planned

theorem Strong.handsOver {xs : List Waiter} {w v : Work} (h : HandsOver accepts xs w v)
    (hw : w.pool.Strong) : v.pool.Strong := by
  obtain ⟨-, -, rest, cs, cursor, -, -, -, hcs, hv, -⟩ := h
  rw [hv]
  exact hw.of_same hcs rfl rfl rfl rfl rfl rfl

theorem route_strong (n : Dispatch) (hp : p.Strong) : (p.route accepts time n).pool.Strong := by
  by_cases hc : p.closing = none
  · exact hp.handsOver (route_handsOver accepts time n p hc)
  · rw [route_of_closing accepts time n hc]
    exact hp

theorem Strong.established {id : Nat} (hp : p.Strong) (hc : p.closing = none)
    (hm : id ∈ p.connecting) (b : Backoff) :
    Strong { p with
      connecting := p.connecting.filter (· != id)
      backoff := b
      connections := p.connections.filter (fun c => c.id != id) ++ [{ id := id }]
      rotation := p.rotation ++ [id] } := by
  obtain ⟨hnodup, -, hapart⟩ := List.nodup_append.mp hp.distinct
  have hrest : p.connections.filter (fun c => c.id != id) = p.connections := by
    apply List.filter_eq_self.mpr
    intro c hc
    have hne := hapart id hm c.id (List.mem_map.mpr ⟨c, hc, rfl⟩)
    simpa using hne.symm
  have herase : p.connecting.filter (· != id) = p.connecting.erase id :=
    (hnodup.erase_eq_filter id).symm
  rw [hrest, herase]
  let new : PooledConnection := { id := id }
  have hids : (p.connections ++ [new]).map PooledConnection.id = p.connectionIds ++ [id] :=
    List.map_append
  have hconnected : ((p.connections ++ [new]).filter PooledConnection.isConnected).map
      PooledConnection.id = p.connectedIds ++ [id] := by
    rw [List.filter_append, List.map_append]
    rfl
  have hperm : (p.connecting.erase id ++ (p.connectionIds ++ [id])).Perm
      (p.connecting ++ p.connectionIds) := by
    rw [← List.append_assoc]
    exact (List.perm_append_singleton id _).trans
      ((List.perm_cons_erase hm).symm.append_right p.connectionIds)
  have hcount : (p.connectedIds ++ [id]).length + (p.connecting.erase id).length =
      p.activeCount := by
    have hlen := (List.perm_cons_erase hm).length_eq
    rw [List.length_cons] at hlen
    rw [activeCount, connectedCount_eq, List.length_append, List.length_singleton]
    omega
  refine ⟨⟨?_, ?_, ?_, ?_, fun hn => absurd hc hn⟩, ?_⟩
  · rw [connectionIds, hids]
    exact hperm.nodup_iff.mpr hp.distinct
  · rw [connectedIds, hconnected, ← hp.turns]
  · intro i
    rw [connectionIds, hids, ← List.mem_append, hperm.mem_iff, List.mem_append]
    exact hp.running i
  · rw [activeCount, connectedCount_eq, connectedIds, hconnected, hcount]
    exact hp.bounded
  · rw [Lacking, activeCount, connectedCount_eq, connectedIds, hconnected, hcount]
    exact hp.planned

theorem onEstablished_strong {id : Nat} (hp : p.Strong)
    (hid : p.closing = none → id ∈ p.connecting) : (p.onEstablished accepts id).pool.Strong := by
  unfold onEstablished
  dsimp only
  split
  · rename_i hclosing
    have hnone : p.connecting = [] := hp.stopped (Option.isSome_iff_ne_none.mp hclosing)
    exact hp.of_same rfl (by simp [hnone]) rfl rfl rfl rfl rfl
  · rename_i hopen
    have hclosing : p.closing = none := by simpa using hopen
    refine Strong.handsOver (flush_handsOver accepts _) ?_
    exact hp.established hclosing (hid hclosing) p.backoff.reset

theorem Strong.attemptFailed {id : Nat} (hp : p.Strong) (hid : id ∉ p.connectionIds) :
    Sized { p with
      connecting := p.connecting.filter (· != id), tasks := p.tasks.filter (· != id) } where
  distinct := hp.distinct.sublist (List.filter_sublist.append_right _)
  turns := hp.turns
  running := by
    intro i
    change i ∈ p.tasks.filter (· != id) ↔
      i ∈ p.connecting.filter (· != id) ∨ i ∈ p.connectionIds
    by_cases hi : i = id
    · subst hi
      simpa using hid
    · have h := hp.running i
      simpa [hi] using h
  bounded := Nat.le_trans (Nat.add_le_add_left (List.length_filter_le ..) _) hp.bounded
  stopped := by
    intro hc
    simp [hp.stopped hc]

theorem onAttemptFailed_strong {id : Nat} (cause : String) (hp : p.Strong)
    (hid : id ∉ p.connectionIds) : (p.onAttemptFailed time id cause).pool.Strong := by
  have hs := hp.attemptFailed hid
  have hlacking : p.reconnectAt.isSome = true → p.closing = none ∧
      p.connectedCount + (p.connecting.filter (· != id)).length < p.target := by
    intro hplanned
    obtain ⟨hc, hlt⟩ := hp.planned.mp hplanned
    exact ⟨hc, Nat.lt_of_le_of_lt (Nat.add_le_add_left (List.length_filter_le ..) _) hlt⟩
  unfold onAttemptFailed
  dsimp only
  split
  · rename_i hc
    refine ⟨hs, fun hplanned => hlacking hplanned, fun hl => ?_⟩
    rw [hl.1] at hc
    cases hc
  · split
    all_goals
      refine Sized.strong ?_ hlacking _ _
      exact hs.of_same rfl rfl rfl rfl rfl rfl

theorem connectedIds_draining (id : Nat) (p : Pool) :
    (p.update id fun c => { c with phase := .draining, writable := false }).connectedIds =
      p.connectedIds.filter (· != id) := by
  let drain : PooledConnection → PooledConnection := fun c =>
    if c.id == id then { c with phase := .draining, writable := false } else c
  have hphase (c : PooledConnection) : (drain c).isConnected = (c.id != id && c.isConnected) := by
    by_cases hc : c.id = id
    · simp [drain, hc, PooledConnection.isConnected]
    · simp [drain, hc]
  have hid (c : PooledConnection) : (drain c).id = c.id := by
    by_cases hc : c.id = id
    · simp [drain, hc]
    · simp [drain, hc]
  change ((p.connections.map drain).filter PooledConnection.isConnected).map
    PooledConnection.id = _
  rw [List.filter_map, List.map_map, connectedIds, List.filter_map, List.filter_filter]
  simp only [Function.comp_def, hphase, hid]

theorem Strong.lacking (hp : p.Strong) (hplanned : p.reconnectAt.isSome = true)
    (hc : q.closing = p.closing) (ht : q.target = p.target) (hle : q.activeCount ≤ p.activeCount) :
    q.Lacking := by
  obtain ⟨hclosing, hlt⟩ := hp.planned.mp hplanned
  exact ⟨hc.trans hclosing, ht ▸ Nat.lt_of_le_of_lt hle hlt⟩

theorem activeCount_le_of_connectedIds {id : Nat}
    (hconnected : q.connectedIds = p.connectedIds.filter (· != id))
    (hconnecting : q.connecting = p.connecting) : q.activeCount ≤ p.activeCount := by
  rw [activeCount, activeCount, connectedCount_eq, connectedCount_eq, hconnected, hconnecting]
  exact Nat.add_le_add_right (List.length_filter_le ..) _

theorem onDraining_strong (id : Nat) (hp : p.Strong) : (p.onDraining time id).Strong := by
  let q : Pool := { p.update id (fun c => { c with phase := .draining, writable := false }) with
    rotation := p.rotation.filter (· != id) }
  have hids : q.connectionIds = p.connectionIds := by
    apply connectionIds_update
    intro c
    rfl
  have hconnected : q.connectedIds = p.connectedIds.filter (· != id) := connectedIds_draining id p
  have hle : q.activeCount ≤ p.activeCount := activeCount_le_of_connectedIds hconnected rfl
  have hq : q.Sized := by
    refine ⟨?_, ?_, ?_, Nat.le_trans hle hp.bounded, hp.stopped⟩
    · rw [hids]
      exact hp.distinct
    · rw [hconnected, ← hp.turns]
    · rw [hids]
      exact hp.running
  exact hq.strong (fun hplanned => hp.lacking hplanned rfl rfl hle) time p.backoff.current

theorem onClosed_strong {id : Nat} (hp : p.Strong) (hid : id ∉ p.connecting) :
    (p.onClosed time id).pool.Strong := by
  let q : Pool := { p with
    tasks := p.tasks.filter (· != id)
    rotation := p.rotation.filter (· != id)
    connections := p.connections.filter fun c => c.id != id }
  have hids : q.connectionIds = p.connectionIds.filter (· != id) := by
    rw [connectionIds, connectionIds, List.filter_map]
    rfl
  have hconnected : q.connectedIds = p.connectedIds.filter (· != id) := by
    rw [connectedIds, connectedIds, List.filter_map, List.filter_filter, List.filter_filter]
    simp only [Function.comp_def, Bool.and_comm]
  have hle : q.activeCount ≤ p.activeCount := activeCount_le_of_connectedIds hconnected rfl
  have hq : q.Sized := by
    refine ⟨?_, ?_, ?_, Nat.le_trans hle hp.bounded, hp.stopped⟩
    · rw [hids]
      exact hp.distinct.sublist (List.filter_sublist.append_left _)
    · rw [hconnected, ← hp.turns]
    · intro i
      rw [hids]
      change i ∈ p.tasks.filter (· != id) ↔ i ∈ p.connecting ∨ _
      by_cases hi : i = id
      · subst hi
        simpa using hid
      · have h := hp.running i
        simpa [hi] using h
  exact hq.strong (fun hplanned => hp.lacking hplanned rfl rfl hle) time p.backoff.current

theorem Sized.strong_of_closing (hp : p.Sized) (hc : p.closing ≠ none)
    (hr : p.reconnectAt = none) : p.Strong := by
  refine ⟨hp, ?_, ?_⟩
  · intro hplanned
    simp [hr] at hplanned
  · intro hlacking
    exact absurd hlacking.1 hc

theorem Strong.no_plan (hp : p.Strong) (hc : p.closing ≠ none) : p.reconnectAt = none := by
  by_contra hplanned
  exact hc (hp.planned.mp (Option.isSome_iff_ne_none.mpr hplanned)).1

/-- Whatever was on its way is stopped, and nothing is opened any more. -/
theorem onShutdown_strong (caller : Option Nat) (hp : p.Strong) :
    (p.onShutdown time caller).pool.Strong := by
  unfold onShutdown
  split
  · rename_i c hc
    have hclosing : p.closing ≠ none := by simp [hc]
    refine Sized.strong_of_closing ?_ (by simp) (hp.no_plan hclosing)
    exact ⟨hp.distinct, hp.turns, hp.running, hp.bounded, fun _ => hp.stopped hclosing⟩
  · refine Sized.strong_of_closing ⟨?_, hp.turns, ?_, ?_, fun _ => rfl⟩ (by simp) rfl
    · exact hp.distinct.sublist (List.sublist_append_right _ _)
    · intro i
      have hrunning := hp.running i
      have hapart : i ∈ p.connectionIds → i ∉ p.connecting := by
        intro hc hn
        exact (List.nodup_append.mp hp.distinct).2.2 i hn i hc rfl
      change i ∈ p.tasks.filter _ ↔ i ∈ [] ∨ i ∈ p.connectionIds
      rw [List.mem_filter, hrunning]
      simp
      tauto
    · exact Nat.le_trans (Nat.add_le_add_left (Nat.zero_le _) _) hp.bounded

theorem fill_strong (hp : p.Sized) (hr : p.reconnectAt = none)
    (hfresh : p.closing = none → ∀ id, id ∈ p.connecting ∨ id ∈ p.connectionIds → id < p.ids.next) :
    (fill { pool := p }).pool.Strong := by
  unfold fill
  split
  · rename_i hc
    exact hp.strong_of_closing (Option.isSome_iff_ne_none.mp hc) hr
  · rename_i hopen
    have hc : p.closing = none := by simpa using hopen
    obtain ⟨hq, -⟩ := fillWithin_spec (p.target - p.activeCount) { pool := p }
    dsimp only at hq ⊢
    rw [hq]
    have hactive : p.connectedIds.length + (p.connecting ++
        List.range' p.ids.next (p.target - p.activeCount)).length = p.target := by
      have hle := hp.bounded
      rw [activeCount, connectedCount_eq] at hle ⊢
      rw [List.length_append, List.length_range']
      omega
    refine ⟨⟨?_, hp.turns, ?_, ?_, fun hn => absurd hc hn⟩, ?_⟩
    · -- The numbers given out are new.
      rw [List.append_assoc, (List.perm_append_comm_assoc _ _ _).nodup_iff, List.nodup_append]
      refine ⟨List.nodup_range', hp.distinct, ?_⟩
      intro i hi j hj
      have hlow := (List.mem_range'_1.mp hi).1
      have hlt := hfresh hc j (List.mem_append.mp hj)
      omega
    · intro i
      simp [hp.running i, or_assoc, or_comm, or_left_comm, connectionIds]
    · rw [activeCount, connectedCount_eq]
      exact hactive.le
    · refine ⟨fun hplanned => ?_, fun hlacking => ?_⟩
      · simp [hr] at hplanned
      · have hlt := hlacking.2
        rw [activeCount, connectedCount_eq] at hlt
        exact absurd hactive hlt.ne

/-- What the order of messages gives the pool at each of them. -/
def Expects (p : Pool) : PoolMessage → Prop
  | .established id => p.closing = none → id ∈ p.connecting
  | .attemptFailed id _ => id ∉ p.connectionIds
  | .closed id => id ∉ p.connecting
  | _ => True

theorem onMessage_strong {m : PoolMessage} (hp : p.Strong) (hm : p.Expects m) :
    (p.onMessage accepts time m).pool.Strong := by
  cases m with
  | submit n | resubmit n => exact route_strong n hp
  | established id => exact onEstablished_strong hp hm
  | attemptFailed id cause => exact onAttemptFailed_strong cause hp hm
  | draining id => exact onDraining_strong id hp
  | closed id => exact onClosed_strong hp hm
  | shutdown caller => exact onShutdown_strong caller hp
  | writabilityChanged id writable =>
    have hq : (p.setWritable id writable).Strong :=
      hp.of_same (outline_setWritable id writable p) rfl rfl rfl rfl rfl rfl
    cases writable with
    | false => exact hq
    | true => exact Strong.handsOver (flush_handsOver accepts { pool := p.setWritable id true }) hq

theorem onTimer_strong {x : PoolTimer} (hp : p.Strong) (hdue : (p.deadline? x).isSome = true)
    (hfresh : p.closing = none → ∀ id, id ∈ p.connecting ∨ id ∈ p.connectionIds → id < p.ids.next) :
    (p.onTimer time x).pool.Strong := by
  cases x with
  | reconnect => exact fill_strong (hp.toSized.of_same rfl rfl rfl rfl rfl rfl) rfl hfresh
  | expire => exact hp.of_same rfl rfl rfl rfl rfl rfl rfl
  | force =>
    have hc : p.closing ≠ none := by
      intro hnone
      simp [deadline?, hnone] at hdue
    have hnone : p.connecting = [] := hp.stopped hc
    refine Sized.strong_of_closing ⟨?_, rfl, ?_, ?_, fun _ => hnone⟩ hc (hp.no_plan hc)
    · change (p.connecting ++ []).Nodup
      simp [hnone]
    · intro i
      change i ∈ [] ↔ i ∈ p.connecting ∨ i ∈ []
      simp [hnone]
    · change 0 + p.connecting.length ≤ p.target
      simp [hnone]

theorem start_strong (config : ClientConfig) : (start config).pool.Strong := by
  refine fill_strong ⟨List.nodup_nil, rfl, ?_, Nat.zero_le _, fun _ => rfl⟩ rfl ?_
  · intro i
    change i ∈ [] ↔ i ∈ [] ∨ i ∈ []
    simp
  · rintro - id (hid | hid)
    all_goals cases hid

end Pool

variable {config : ClientConfig} {ts : List PoolTurn}

theorem Abreast.expects {p : Pool} {m : PoolMessage} (h : Abreast config ts p) (hp : p.Strong)
    (hm : mayCome config ts m = true) : p.Expects m := by
  cases m with
  | established id =>
    intro hc
    exact (h.pending hc id).mpr (mayCome_ends hm rfl)
  | attemptFailed id cause =>
    intro hid
    exact h.settled id hid (mayCome_ends hm rfl).2
  | closed id =>
    intro hid
    by_cases hc : p.closing = none
    · exact mayCome_later hm rfl rfl ((h.pending hc id).mp hid).2
    · simp [hp.stopped hc] at hid
  | _ => trivial

theorem PoolRun.strong {p : Pool} (h : PoolRun config ts p) (ho : InOrder config ts) :
    p.Strong ∧ Abreast config ts p := by
  induction h with
  | start => exact ⟨Pool.start_strong config, .start config⟩
  | @turn ts p t _ ht ih =>
    obtain ⟨hstrong, habreast⟩ := ih ho.init
    obtain ⟨rfl, hdue⟩ := ht
    cases hi : t.input with
    | message m =>
      have hcome := ho.mayCome_of_last hi
      refine ⟨?_, habreast.message hi hcome⟩
      unfold PoolTurn.work
      rw [hi]
      exact Pool.onMessage_strong hstrong (habreast.expects hstrong hcome)
    | timer x =>
      refine ⟨?_, habreast.timer hi⟩
      have hset : (t.before.deadline? x).isSome = true := by
        unfold PoolTurn.isDue at hdue
        rw [hi] at hdue
        obtain ⟨d, hd, -⟩ := (Option.any_eq_true _ _).mp hdue
        exact Option.isSome_iff_exists.mpr ⟨d, hd⟩
      unfold PoolTurn.work
      rw [hi]
      exact Pool.onTimer_strong hstrong hset habreast.fresh

/-- As long as the messages about each connection come in order, the pool has at most as many
connections open for work or on their way as are wanted, and plans to open more exactly when some
are lacking and it is not being closed. Its turns are the connections that are open for work, and
what runs is what is on its way or there. -/
theorem pool_at_strength (config : ClientConfig) (ts : List PoolTurn) (p : Pool)
    (h : PoolRun config ts p) (ho : InOrder config ts) :
    p.connectedCount + p.connecting.length ≤ config.connections ∧
    (p.reconnectAt.isSome = true ↔
      p.closing = none ∧ p.connectedCount + p.connecting.length < config.connections) ∧
    (p.rotation.Nodup ∧
      ∀ id, id ∈ p.rotation ↔ ∃ c ∈ p.connections, c.id = id ∧ c.phase = .connected) ∧
    (∀ id, id ∈ p.tasks ↔ id ∈ p.connecting ∨ ∃ c ∈ p.connections, c.id = id) ∧
    (p.connecting ++ p.connections.map PooledConnection.id).Nodup := by
  obtain ⟨hp, habreast⟩ := h.strong ho
  rw [← habreast.target]
  refine ⟨hp.bounded, hp.planned, ⟨?_, fun id => ?_⟩, fun id => ?_, hp.distinct⟩
  · rw [hp.turns]
    exact hp.distinct.sublist
      ((List.filter_sublist.map _).trans (List.sublist_append_right _ _))
  · rw [hp.turns, Pool.connectedIds, List.mem_map]
    simp only [List.mem_filter, PooledConnection.isConnected, beq_iff_eq, and_assoc]
    simp only [and_comm]
  · rw [hp.running id, Pool.connectionIds, List.mem_map]

/-- Whether the messages come in order, one after the other. -/
def isInOrder (config : ClientConfig) (ts : List PoolTurn) : Bool :=
  (List.range ts.length).all fun k => (ts[k]?).all fun t =>
    match t.input with
    | .message m => mayCome config (ts.take k) m
    | .timer _ => true

theorem inOrder_of_check (h : isInOrder config ts = true) : InOrder config ts := by
  rintro past t ⟨rest, rfl⟩ m hm
  have hk := List.all_eq_true.mp h past.length (List.mem_range.mpr (by simp))
  simpa [hm] using hk

/-- Two connections, one after the other, come up and drain. -/
def relayed : Option (List PoolTurn × Pool) :=
  (Pool.start (.standard "gateway.example" .none)).pool.play (fun _ _ => true)
    [(0, .message (.established 1)), (0, .message (.draining 1)),
      (Moment.after 0 (.ofMillis 100), .timer .reconnect),
      (Moment.after 0 (.ofMillis 100), .message (.established 2)),
      (Moment.after 0 (.ofMillis 100), .message (.closed 1)),
      (Moment.after 0 (.ofMillis 100), .message (.draining 2))]

theorem at_strength_of_relayed : ∃ ts p, PoolRun (.standard "gateway.example" .none) ts p ∧
    InOrder (.standard "gateway.example" .none) ts ∧ p.connections.length = 1 ∧
    p.rotation = [] ∧ p.reconnectAt.isSome = true := by
  have hd : relayed.any (fun x => isInOrder (.standard "gateway.example" .none) x.1 &&
      (x.2.closing.isNone && x.2.connectedCount + x.2.connecting.length == 0 &&
        x.2.connections.length == 1)) = true := by
    decide +kernel
  obtain ⟨⟨ts, p⟩, hplay, hx⟩ := (Option.any_eq_true _ _).mp hd
  obtain ⟨hcheck, hx⟩ := Bool.and_eq_true_iff.mp hx
  simp only [Bool.and_eq_true, Option.isNone_iff_eq_none, beq_iff_eq] at hx
  obtain ⟨⟨hclosing, hnone⟩, hlength⟩ := hx
  have hrun : PoolRun (.standard "gateway.example" .none) ts p := PoolRun.start.of_play hplay
  have horder := inOrder_of_check hcheck
  obtain ⟨-, hplanned, ⟨-, hturns⟩, -⟩ := pool_at_strength _ ts p hrun horder
  refine ⟨ts, p, hrun, horder, hlength, ?_, hplanned.mpr ⟨hclosing, ?_⟩⟩
  · apply List.eq_nil_iff_forall_not_mem.mpr
    intro id hid
    obtain ⟨c, hc, -, hphase⟩ := (hturns id).mp hid
    have hcount : 0 < p.connectedCount :=
      List.countP_pos_iff.mpr ⟨c, hc, by simp [PooledConnection.isConnected, hphase]⟩
    omega
  · rw [hnone]
    exact Nat.one_pos

end PushDelivery
