import PushDelivery.Proofs.PoolRun

namespace PushDelivery

/-- The connection of whose course a message tells. -/
def PoolMessage.about? : PoolMessage → Option Nat
  | established id | attemptFailed id _ | draining id | closed id => some id
  | _ => none

/-- The attempt that a message ends. -/
def PoolMessage.ends? : PoolMessage → Option Nat
  | established id | attemptFailed id _ => some id
  | _ => none

/-- What the pool has been told of the course of one connection. -/
def milestones (id : Nat) (ts : List PoolTurn) : List PoolMessage :=
  ts.filterMap fun t =>
    match t.input with
    | .message m => if m.about? = some id then some m else none
    | .timer _ => none

/-- The attempts to connect that the pool has made. -/
def started (config : ClientConfig) (ts : List PoolTurn) : List Nat :=
  ((Pool.start config).actions ++ ts.flatMap fun t => t.work.actions).filterMap
    PoolAction.attempted?

/-- Whether a message can come after some steps, as far as the course of its connection goes. -/
def mayCome (config : ClientConfig) (past : List PoolTurn) : PoolMessage → Bool
  | .established id | .attemptFailed id _ =>
    (started config past).contains id && (milestones id past).isEmpty
  | .draining id => milestones id past == [.established id]
  | .closed id => milestones id past == [.established id, .draining id]
  | _ => true

/-- The messages about each connection come in their own order. -/
def InOrder (config : ClientConfig) (ts : List PoolTurn) : Prop :=
  ∀ past t, past ++ [t] <+: ts → ∀ m, t.input = .message m → mayCome config past m = true

variable {config : ClientConfig} {ts : List PoolTurn} {t : PoolTurn}

theorem InOrder.init (h : InOrder config (ts ++ [t])) : InOrder config ts :=
  fun past u hp => h past u (hp.trans (List.prefix_append ts [t]))

theorem InOrder.mayCome_of_last (h : InOrder config (ts ++ [t])) {m : PoolMessage}
    (hm : t.input = .message m) : mayCome config ts m = true :=
  h ts t List.prefix_rfl m hm

theorem InOrder.snoc (h : InOrder config ts)
    (ht : ∀ m, t.input = .message m → mayCome config ts m = true) : InOrder config (ts ++ [t]) := by
  intro past u hu m hm
  rcases List.prefix_concat_iff.mp hu with he | hu
  · obtain ⟨rfl, hlast⟩ := List.append_inj' he rfl
    obtain rfl : u = t := by simpa using hlast
    exact ht m hm
  · exact h past u hu m hm

theorem milestones_snoc (id : Nat) (ts : List PoolTurn) (t : PoolTurn) :
    milestones id (ts ++ [t]) = milestones id ts ++ milestones id [t] :=
  List.filterMap_append

theorem started_snoc (config : ClientConfig) (ts : List PoolTurn) (t : PoolTurn) :
    started config (ts ++ [t]) =
      started config ts ++ t.work.actions.filterMap PoolAction.attempted? := by
  simp [started]

theorem milestones_of_message {m : PoolMessage} (hm : t.input = .message m) (id : Nat) :
    milestones id [t] = if m.about? = some id then [m] else [] := by
  by_cases ha : m.about? = some id
  · simp [milestones, hm, ha]
  · simp [milestones, hm, ha]

theorem milestones_of_timer {x : Pool.PoolTimer} (hx : t.input = .timer x) (id : Nat) :
    milestones id [t] = [] := by
  simp [milestones, hx]

theorem mayCome_ends {m : PoolMessage} {id : Nat} (h : mayCome config ts m = true)
    (hm : m.ends? = some id) : id ∈ started config ts ∧ milestones id ts = [] := by
  cases m with
  | established i | attemptFailed i cause =>
    obtain rfl := Option.some.inj hm
    simpa [mayCome] using h
  | _ => cases hm

theorem mayCome_later {m : PoolMessage} {id : Nat} (h : mayCome config ts m = true)
    (ha : m.about? = some id) (hm : m.ends? = none) : milestones id ts ≠ [] := by
  cases m with
  | draining i | closed i =>
    obtain rfl := Option.some.inj ha
    intro hnone
    simp [mayCome, hnone] at h
  | established i | attemptFailed i cause => cases hm
  | _ => cases ha

theorem about_of_ends {m : PoolMessage} {id : Nat} (h : m.ends? = some id) :
    m.about? = some id := by
  cases m with
  | established i | attemptFailed i cause => exact h
  | _ => cases h

namespace Pool

variable {accepts : Acceptance} {time : Moment} {p q : Pool}

/-- What a message does to what is on its way and to the connections. -/
structure Advances (p : Pool) (m : PoolMessage) (q : Pool) : Prop where
  target : q.target = p.target
  ids : q.ids = p.ids
  connecting : q.closing = none → p.closing = none ∧
    q.connecting = p.connecting.filter fun id => m.ends? != some id
  connections : ∀ id ∈ q.connectionIds, id ∈ p.connectionIds ∨ m = .established id

namespace Advances

variable {m : PoolMessage} {r : Pool}

theorem refl (hm : m.ends? = none) : p.Advances m p where
  target := rfl
  ids := rfl
  connecting hc := by
    refine ⟨hc, (List.filter_eq_self.mpr fun i _ => ?_).symm⟩
    rw [hm]
    rfl
  connections _ hid := .inl hid

theorem of_same (h : p.Advances m q) (ht : r.target = q.target) (hi : r.ids = q.ids)
    (hn : r.connecting = q.connecting) (hs : r.closing = q.closing)
    (hc : ∀ id ∈ r.connectionIds, id ∈ q.connectionIds) : p.Advances m r where
  target := ht.trans h.target
  ids := hi.trans h.ids
  connecting := by
    rw [hn, hs]
    exact h.connecting
  connections id hid := h.connections id (hc id hid)

theorem handsOver {xs : List Waiter} {w v : Work} (h : p.Advances m w.pool)
    (hv : HandsOver accepts xs w v) : p.Advances m v.pool := by
  obtain ⟨-, -, rest, cs, cursor, -, -, -, hcs, hv, -⟩ := hv
  have hids : v.pool.connectionIds = w.pool.connectionIds := by
    apply connectionIds_of_outline
    rw [hv]
    exact hcs
  refine h.of_same ?_ ?_ ?_ ?_ fun id hid => hids ▸ hid
  all_goals rw [hv]

theorem scheduleReconnect (h : p.Advances m q) (time : Moment) (delay : Duration) :
    p.Advances m (q.scheduleReconnect time delay) := by
  obtain ⟨planned, hq⟩ := scheduleReconnect_frame time delay q
  rw [hq]
  exact h.of_same rfl rfl rfl rfl fun _ hid => hid

end Advances

theorem route_advances {m : PoolMessage} (n : Dispatch) (hm : m.ends? = none) (p : Pool) :
    p.Advances m (p.route accepts time n).pool := by
  by_cases hc : p.closing = none
  · exact (Advances.refl hm).handsOver (route_handsOver accepts time n p hc)
  · rw [route_of_closing accepts time n hc]
    exact .refl hm

theorem filter_ends {m : PoolMessage} {id : Nat} (hm : m.ends? = some id) (l : List Nat) :
    l.filter (· != id) = l.filter fun i => m.ends? != some i := by
  apply List.filter_congr
  intro i _
  rw [hm, bne_comm]
  rfl

theorem onEstablished_advances (id : Nat) (p : Pool) :
    p.Advances (.established id) (p.onEstablished accepts id).pool := by
  unfold onEstablished
  dsimp only
  split
  · rename_i hc
    refine ⟨rfl, rfl, fun hnone => ?_, fun i hi => .inl hi⟩
    rw [show p.closing = none from hnone] at hc
    cases hc
  · refine Advances.handsOver ⟨rfl, rfl, fun hc => ⟨hc, filter_ends rfl _⟩, ?_⟩
      (flush_handsOver accepts _)
    intro i hi
    obtain ⟨c, hc, rfl⟩ := List.mem_map.mp hi
    rcases List.mem_append.mp hc with hc | hc
    · exact .inl (List.mem_map.mpr ⟨c, List.mem_of_mem_filter hc, rfl⟩)
    · obtain rfl := List.mem_singleton.mp hc
      exact .inr rfl

theorem onAttemptFailed_advances (id : Nat) (cause : String) (p : Pool) :
    p.Advances (.attemptFailed id cause) (p.onAttemptFailed time id cause).pool := by
  unfold onAttemptFailed
  dsimp only
  split
  · exact ⟨rfl, rfl, fun hc => ⟨hc, filter_ends rfl _⟩, fun i hi => .inl hi⟩
  · split
    all_goals
      refine Advances.scheduleReconnect ?_ _ _
      exact ⟨rfl, rfl, fun hc => ⟨hc, filter_ends rfl _⟩, fun i hi => .inl hi⟩

theorem onShutdown_advances (caller : Option Nat) (p : Pool) :
    p.Advances (.shutdown caller) (p.onShutdown time caller).pool := by
  unfold onShutdown
  split
  · exact ⟨rfl, rfl, fun hc => by (cases hc), fun i hi => .inl hi⟩
  · exact ⟨rfl, rfl, fun hc => by (cases hc), fun i hi => .inl hi⟩

theorem onMessage_advances (accepts : Acceptance) (time : Moment) (p : Pool) (m : PoolMessage) :
    p.Advances m (p.onMessage accepts time m).pool := by
  cases m with
  | submit n | resubmit n => exact route_advances n rfl p
  | established id => exact onEstablished_advances id p
  | attemptFailed id cause => exact onAttemptFailed_advances id cause p
  | shutdown caller => exact onShutdown_advances caller p
  | draining id =>
    refine Advances.scheduleReconnect ?_ time _
    refine (Advances.refl rfl).of_same rfl rfl rfl rfl ?_
    intro i hi
    refine (connectionIds_update id ?_ p) ▸ hi
    intro c
    rfl
  | closed id =>
    refine Advances.scheduleReconnect ?_ time _
    refine (Advances.refl rfl).of_same rfl rfl rfl rfl ?_
    intro i hi
    exact List.map_subset _ (List.filter_subset_self _) hi
  | writabilityChanged id writable =>
    have hq : p.Advances (.writabilityChanged id writable) (p.setWritable id writable) := by
      refine (Advances.refl rfl).of_same rfl rfl rfl rfl fun i hi => ?_
      exact connectionIds_of_outline (outline_setWritable id writable p) ▸ hi
    cases writable with
    | false => exact hq
    | true => exact hq.handsOver (flush_handsOver accepts { pool := p.setWritable id true })

theorem onTimer_advances (time : Moment) (p : Pool) (x : PoolTimer) : ∃ k,
    (p.onTimer time x).actions.filterMap PoolAction.attempted? = List.range' p.ids.next k ∧
    (p.onTimer time x).pool.target = p.target ∧
    (p.onTimer time x).pool.ids.next = p.ids.next + k ∧
    (p.onTimer time x).pool.closing = p.closing ∧
    (p.onTimer time x).pool.connecting = p.connecting ++ List.range' p.ids.next k ∧
    ∀ id ∈ (p.onTimer time x).pool.connectionIds, id ∈ p.connectionIds := by
  cases x with
  | reconnect =>
    obtain ⟨k, hq, ha⟩ := fill_spec { pool := { p with reconnectAt := none } }
    refine ⟨k, ?_, ?_, ?_, ?_, ?_, ?_⟩
    · unfold onTimer
      rw [ha, List.filterMap_append, List.filterMap_map]
      exact List.filterMap_some
    all_goals
      unfold onTimer
      rw [hq]
    exact fun id hid => hid
  | expire =>
    exact ⟨0, attempted_fail .., rfl, rfl, rfl, by simp [onTimer, expire], fun id hid => hid⟩
  | force =>
    refine ⟨0, ?_, rfl, rfl, rfl, by simp [onTimer, forceClose], fun id hid => by cases hid⟩
    exact PoolAction.filterMap_inert _ p.forceClose_inert PoolAction.attempted_inert

theorem onMessage_attempts (p : Pool) (m : PoolMessage) :
    (p.onMessage accepts time m).actions.filterMap PoolAction.attempted? = [] := by
  obtain ⟨k, hk, hnext⟩ := (@onMessage_work accepts time p m).2.attempts
  rw [(onMessage_advances accepts time p m).ids] at hnext
  obtain rfl : k = 0 := by omega
  exact hk

end Pool

/-- The pool is abreast of what it has been told. -/
structure Abreast (config : ClientConfig) (ts : List PoolTurn) (p : Pool) : Prop where
  target : p.target = config.connections
  pending : p.closing = none → ∀ id, id ∈ p.connecting ↔
    id ∈ started config ts ∧ milestones id ts = []
  settled : ∀ id ∈ p.connectionIds, milestones id ts ≠ []
  begun : ∀ id, milestones id ts ≠ [] → id ∈ started config ts
  known : ∀ id ∈ started config ts, id < p.ids.next

namespace Abreast

variable {p : Pool} {m : PoolMessage}

theorem start (config : ClientConfig) : Abreast config [] (Pool.start config).pool := by
  obtain ⟨k, hp, ha⟩ := Pool.fill_spec { pool := .ofConfig config }
  have hs : started config [] = List.range' 1 k := by
    rw [started, Pool.start, ha, List.flatMap_nil, List.append_nil, List.nil_append,
      List.filterMap_map]
    exact List.filterMap_some
  unfold Pool.start
  rw [hp]
  refine ⟨rfl, ?_, ?_, ?_, ?_⟩
  · intro _ id
    rw [hs]
    exact ⟨fun h => ⟨h, rfl⟩, fun h => h.1⟩
  · intro id hid
    cases hid
  · intro id hm
    exact absurd rfl hm
  · intro id hid
    rw [hs, List.mem_range'_1] at hid
    exact hid.2

theorem message (h : Abreast config ts t.before) (hm : t.input = .message m)
    (hcome : mayCome config ts m = true) : Abreast config (ts ++ [t]) t.work.pool := by
  have hwork := PoolTurn.work_of_message hm
  have hstarted : started config (ts ++ [t]) = started config ts := by
    rw [started_snoc, hwork, Pool.onMessage_attempts, List.append_nil]
  have hnone (id : Nat) : milestones id (ts ++ [t]) = [] ↔
      milestones id ts = [] ∧ m.about? ≠ some id := by
    rw [milestones_snoc, milestones_of_message hm, List.append_eq_nil_iff]
    by_cases ha : m.about? = some id
    · simp [ha]
    · simp [ha]
  have hadv := Pool.onMessage_advances t.accepts t.time t.before m
  rw [← hwork] at hadv
  refine ⟨hadv.target.trans h.target, ?_, ?_, ?_, ?_⟩
  · intro hc id
    obtain ⟨hopen, hconnecting⟩ := hadv.connecting hc
    rw [hconnecting, List.mem_filter, h.pending hopen id, hstarted, hnone, bne_iff_ne]
    constructor
    · rintro ⟨⟨hs, hquiet⟩, hends⟩
      refine ⟨hs, hquiet, fun ha => ?_⟩
      -- A message about an attempt that nothing was said of before ends it.
      cases he : m.ends? with
      | none => exact mayCome_later hcome ha he hquiet
      | some i =>
        have hi := about_of_ends he
        rw [ha] at hi
        exact hends (he.trans hi.symm)
    · rintro ⟨hs, hquiet, hne⟩
      exact ⟨⟨hs, hquiet⟩, fun he => hne (about_of_ends he)⟩
  · intro id hid hquiet
    obtain ⟨hbefore, hne⟩ := (hnone id).mp hquiet
    rcases hadv.connections id hid with hid | rfl
    · exact h.settled id hid hbefore
    · exact hne rfl
  · intro id hid
    rw [hstarted]
    by_cases hbefore : milestones id ts = []
    · have ha : m.about? = some id := by
        by_contra hne
        exact hid ((hnone id).mpr ⟨hbefore, hne⟩)
      cases he : m.ends? with
      | none => exact absurd hbefore (mayCome_later hcome ha he)
      | some i =>
        obtain rfl : i = id := Option.some.inj ((about_of_ends he).symm.trans ha)
        exact (mayCome_ends hcome he).1
    · exact h.begun id hbefore
  · intro id hid
    rw [hstarted] at hid
    rw [hadv.ids]
    exact h.known id hid

theorem timer {x : Pool.PoolTimer} (h : Abreast config ts t.before) (hx : t.input = .timer x) :
    Abreast config (ts ++ [t]) t.work.pool := by
  have hwork := PoolTurn.work_of_timer hx
  obtain ⟨k, hattempts, htarget, hnext, hclosing, hconnecting, hids⟩ :=
    Pool.onTimer_advances t.time t.before x
  rw [← hwork] at hattempts htarget hnext hclosing hconnecting hids
  have hstarted : started config (ts ++ [t]) =
      started config ts ++ List.range' t.before.ids.next k := by
    rw [started_snoc, hattempts]
  have hsame (id : Nat) : milestones id (ts ++ [t]) = milestones id ts := by
    rw [milestones_snoc, milestones_of_timer hx, List.append_nil]
  refine ⟨htarget.trans h.target, ?_, ?_, ?_, ?_⟩
  · intro hc id
    rw [hconnecting, hstarted, hsame, List.mem_append, List.mem_append,
      h.pending (hclosing ▸ hc) id]
    have hnew (hi : id ∈ List.range' t.before.ids.next k) : milestones id ts = [] := by
      by_contra hm
      have hlt := h.known id (h.begun id hm)
      have hle := (List.mem_range'_1.mp hi).1
      omega
    tauto
  · intro id hid
    rw [hsame]
    exact h.settled id (hids id hid)
  · intro id hid
    rw [hsame] at hid
    rw [hstarted]
    exact List.mem_append_left _ (h.begun id hid)
  · intro id hid
    rw [hstarted, List.mem_append, List.mem_range'_1] at hid
    rcases hid with hid | ⟨-, hlt⟩
    · have hlt := h.known id hid
      omega
    · omega

theorem fresh (h : Abreast config ts p) (hc : p.closing = none) :
    ∀ id, id ∈ p.connecting ∨ id ∈ p.connectionIds → id < p.ids.next := by
  rintro id (hid | hid)
  · exact h.known id ((h.pending hc id).mp hid).1
  · exact h.known id (h.begun id (h.settled id hid))

end Abreast

end PushDelivery
