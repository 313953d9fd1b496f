import PushDelivery.Proofs.Run

namespace PushDelivery

/-- Where a connection comes from that is there after a move. -/
inductive Comes (w : World) (now : Present) (m : Move) : Connection → Prop
  | same {c : Connection} (more : List Dispatch) (there : c ∈ w.connections)
      (taken : more ≠ [] → c.commandsOpen = true) :
      Comes w now m { c with commands := c.commands ++ more }
  | step {c : Connection} {i : ConnectionInput} (moves : m = .connection c.id i)
      (there : w.find? c.id = some c) (awaits : c.awaits w.time i = true) :
      Comes w now m (c.step w.settings now i).1
  | start {id : Nat} (moves : m = .connected id) (attempted : id ∈ w.attempts) :
      Comes w now m (Connection.start w.settings id w.time)
  | drained {id : Nat} (t : Moment) (moves : m = .connected id) (attempted : id ∈ w.attempts) :
      Comes w now m ((Connection.start w.settings id w.time).drainUntil t).1

namespace World

/-- What a move does to connections and attempts. -/
structure Evolves (w : World) (now : Present) (m : Move) (e : Effect) : Prop where
  next : w.pool.ids.next ≤ e.1.pool.ids.next
  attempts : ∀ id ∈ e.1.attempts, id ∈ w.attempts ∨ w.pool.ids.next ≤ id
  connections : ∀ d ∈ e.1.connections, Comes w now m d
  opened : ∀ d n p r, .opened d n p r ∈ e.2 → ∃ c i, m = .connection d i ∧
    w.find? d = some c ∧ c.awaits w.time i = true ∧ .opened n p r ∈ (c.step w.settings now i).2

variable {w : World} {m : Move} {now : Present}

theorem comes_of_mem {c : Connection} (hc : c ∈ w.connections) : Comes w now m c := by
  have h : Comes w now m { c with commands := c.commands ++ [] } :=
    .same [] hc fun h => absurd rfl h
  rwa [List.append_nil] at h

theorem Evolves.of_comes {e : Effect} (hn : w.pool.ids.next ≤ e.1.pool.ids.next)
    (ha : ∀ id ∈ e.1.attempts, id ∈ w.attempts ∨ w.pool.ids.next ≤ id)
    (hc : ∀ d ∈ e.1.connections, Comes w now m d) (ho : ∀ d n p r, .opened d n p r ∉ e.2) :
    w.Evolves now m e :=
  ⟨hn, ha, hc, fun d n p r hm => absurd hm (ho d n p r)⟩

theorem tell_frame (w : World) (msg : PoolMessage) :
    (∃ channel, (w.tell msg).1 = { w with channel := channel }) ∧
      ∀ d n p r, .opened d n p r ∉ (w.tell msg).2 := by
  unfold tell
  split
  · refine ⟨⟨w.channel, ?_⟩, ?_⟩ <;> cases msg <;> simp
  · exact ⟨⟨_, rfl⟩, by simp⟩

theorem Evolves.of_still {e : Effect} (hn : e.1.pool = w.pool)
    (ha : ∀ id ∈ e.1.attempts, id ∈ w.attempts) (hc : e.1.connections = w.connections)
    (ho : ∀ d n p r, .opened d n p r ∉ e.2) : w.Evolves now m e :=
  .of_comes (le_of_eq (congrArg (fun p => p.ids.next) hn.symm)) (fun id hm => .inl (ha id hm))
    (fun _ hd => comes_of_mem (hc ▸ hd)) ho

theorem Evolves.of_tell {v : World} (msg : PoolMessage) (hn : v.pool = w.pool)
    (ha : ∀ id ∈ v.attempts, id ∈ w.attempts) (hc : v.connections = w.connections) :
    w.Evolves now m (v.tell msg) := by
  obtain ⟨⟨channel, ht⟩, ho⟩ := tell_frame v msg
  refine .of_still ?_ ?_ ?_ ho
  · rw [ht]
    exact hn
  · rw [ht]
    exact ha
  · rw [ht]
    exact hc

/-- A notification that comes in moves nothing but the channel. -/
theorem Evolves.of_submit {v : World} {p : Dispatch} (hn : v.pool = w.pool)
    (ha : v.attempts = w.attempts) (hc : v.connections = w.connections) :
    w.Evolves now m (andThen (v, [.submitted p]) fun v => v.tell (.submit p)) := by
  have hv : w.Evolves now m (v.tell (.submit p)) :=
    .of_tell _ hn (fun id hm => ha ▸ hm) hc
  refine ⟨hv.next, hv.attempts, hv.connections, fun d k q r hm => hv.opened d k q r ?_⟩
  exact (List.mem_cons.mp hm).resolve_left (by simp)

theorem performed_evolves {work : Pool.Work} {p : Pool} (hw : w.Tidy) (hp : p.ids = w.pool.ids)
    (hs : work.Sound w.accepts p) (queue : List PoolMessage) :
    w.Evolves now m (each perform { w with pool := work.pool, channel := queue } work.actions) := by
  let v : World := { w with pool := work.pool, channel := queue }
  have hv : v.Performed work.actions (each perform v work.actions) :=
    each_performed work.actions v hw.connections
      (fun id n hm => find?_of_handOff (w := w) hs hm) hs.counts hs.apart
  obtain ⟨k, hk, hn⟩ := hs.attempts
  rw [hp] at hk hn
  refine .of_comes ?_ ?_ ?_ hv.unopened
  · rw [hv.frame]
    change w.pool.ids.next ≤ work.pool.ids.next
    omega
  · intro id hm
    rcases hv.attempts id hm with hm | hm
    · exact .inl hm
    · rw [hk] at hm
      exact .inr (List.mem_range'_1.mp hm).1
  · intro d hd
    obtain ⟨c, hc, more, rfl, hmore⟩ := hv.same d hd
    refine .same more hc fun hne => ?_
    obtain ⟨p, hp⟩ := hmore hne
    obtain ⟨k, hk⟩ := hs.accepted c.id p hp
    obtain ⟨b, hb, hopen⟩ := (Option.any_eq_true _ _).mp hk
    rw [find?, find?_of_nodup hw.connections hc] at hb
    obtain rfl := Option.some.inj hb
    exact hopen

theorem carryOut_evolves {work : Pool.Work} {A : Multiset Holding} (hw : w.Tidy)
    (h : work.Accounts A ∧ work.Sound w.accepts w.pool) (queue : List PoolMessage) (ends : Bool) :
    w.Evolves now m ({ w with channel := queue }.carryOut work ends) := by
  unfold carryOut
  split
  · exact performed_evolves (p := { w.pool with ended := true }) hw rfl
      (Pool.finish_work queue h).2 []
  · exact performed_evolves hw rfl h.2 queue

theorem mem_set {id : Nat} {c d : Connection} (hc : c.id = id) (hd : d ∈ (w.set c).connections) :
    d ∈ w.connections ∧ d.id ≠ id ∨ d = c := by
  obtain ⟨e, he, rfl⟩ := List.mem_map.mp hd
  by_cases hid : e.id = id
  · exact .inr (if_pos (by simp [hid, hc]))
  · rw [if_neg (by simpa [hc] using hid)]
    exact .inl ⟨he, hid⟩

theorem settle_frame {id : Nat} {o : Connection.Effect} (hi : o.1.id = id)
    (ho : ∀ p, .tell (.submit p) ∉ o.2) :
    (w.settle o).1.pool = w.pool ∧ (w.settle o).1.attempts = w.attempts ∧
      (∀ d ∈ (w.settle o).1.connections, d ∈ w.connections ∧ d.id ≠ id ∨ d = o.1) ∧
      ∀ d n p r, .opened d n p r ∈ (w.settle o).2 ↔ d = id ∧ .opened n p r ∈ o.2 := by
  unfold settle
  dsimp only
  rw [hi]
  split
  · obtain ⟨channel, hv, -⟩ := acts_spec id o.2 (w.remove id) ho
    have hpool := congrArg World.pool hv
    have hattempts := congrArg World.attempts hv
    have hconns := congrArg World.connections hv
    refine ⟨hpool, hattempts, ?_, ?_⟩
    · intro d hd
      have hm : d ∈ (w.remove id).connections := hconns ▸ hd
      obtain ⟨hd, hne⟩ := List.mem_filter.mp hm
      exact .inl ⟨hd, by simpa using hne⟩
    · intro d n p r
      rw [← opened_mem_acts o.2 (w.remove id)]
      simp [andThen]
  · obtain ⟨channel, hv, -⟩ := acts_spec id o.2 (w.set o.1) ho
    have hpool := congrArg World.pool hv
    have hattempts := congrArg World.attempts hv
    have hconns := congrArg World.connections hv
    refine ⟨hpool, hattempts, ?_, ?_⟩
    · exact fun d hd => mem_set hi (hconns ▸ hd)
    · exact fun d n p r => opened_mem_acts o.2 _

theorem connection_evolves {c : Connection} {i : ConnectionInput} (hw : w.Tidy)
    (hc : w.find? c.id = some c) (ha : c.awaits w.time i = true) :
    w.Evolves now (.connection c.id i) (w.settle (c.step w.settings now i)) := by
  have hp := Connection.step_passes (s := w.settings)
    (hw.orderly c (List.mem_of_find?_eq_some hc)) now i
  obtain ⟨hpool, hattempts, hconns, hopened⟩ := settle_frame (w := w) hp.same hp.returns
  refine ⟨by rw [hpool], ?_, ?_, ?_⟩
  · rw [hattempts]
    exact fun id hm => .inl hm
  · intro d hd
    rcases hconns d hd with ⟨hd, -⟩ | rfl
    · exact comes_of_mem hd
    · exact .step rfl hc ha
  · intro d n p r hm
    obtain ⟨rfl, ho⟩ := (hopened d n p r).mp hm
    exact ⟨c, i, rfl, hc, ha, ho⟩

/-- A move of a connection is a step of it. Afterwards it is what the step has made of it, and has
opened the streams that the step opens. -/
theorem connection_step {id : Nat} {i : ConnectionInput} {date : Instant} {secret : P256.Scalar}
    {e : Effect} (hw : w.Tidy) (h : w.step? date secret (.connection id i) = some e) :
    ∃ c, w.find? id = some c ∧ c.id = id ∧ c.awaits w.time i = true ∧
      (∀ d ∈ e.1.connections, d.id = id → d = (c.step w.settings ⟨w.time, date, secret⟩ i).1) ∧
      ∀ n p r, .opened n p r ∈ (c.step w.settings ⟨w.time, date, secret⟩ i).2 →
        .opened id n p r ∈ e.2 := by
  cases makes_of_step? h with
  | @connection c i hc ha hallows =>
    have hp := Connection.step_passes (s := w.settings)
      (hw.orderly c (List.mem_of_find?_eq_some hc)) ⟨w.time, date, secret⟩ i
    obtain ⟨-, -, hconns, hopened⟩ := settle_frame (w := w) hp.same hp.returns
    exact ⟨c, hc, rfl, ha, fun d hd hid => (hconns d hd).resolve_left fun hm => hm.2 hid,
      fun n p r ho => (hopened _ n p r).mpr ⟨rfl, ho⟩⟩

theorem bringUp_evolves {id : Nat} (hm : id ∈ w.attempts) :
    w.Evolves now (.connected id) (w.bringUp id) := by
  have hattempts : ∀ n ∈ w.attempts.filter (· != id), n ∈ w.attempts ∨ w.pool.ids.next ≤ n :=
    fun n hn => .inl (List.mem_of_mem_filter hn)
  have hconns : ∀ d ∈ (w.withConnection id).connections, Comes w now (.connected id) d := by
    intro d hd
    rcases List.mem_append.mp hd with hd | hd
    · exact comes_of_mem hd
    · obtain rfl := List.mem_singleton.mp hd
      exact .start rfl hm
  unfold bringUp andThen
  dsimp only
  split
  · exact .of_comes (Nat.le_refl _) hattempts hconns (by simp)
  · rename_i deadline ha
    have hp := Connection.drainUntil_passes (s := w.settings) (m := .connected id)
      (Connection.start_orderly w.settings id w.time) deadline
    obtain ⟨hpool, hat, hcs, hopened⟩ :=
      settle_frame (w := w.withConnection id) hp.same hp.returns
    refine .of_comes ?_ ?_ ?_ ?_
    · rw [hpool]
      exact Nat.le_refl _
    · rw [hat]
      exact hattempts
    · intro d hd
      rcases hcs d hd with ⟨hd, -⟩ | rfl
      · exact hconns d hd
      · exact .drained deadline rfl hm
    · intro d n p r hmem
      rcases List.mem_append.mp hmem with hmem | hmem
      · simp at hmem
      · have hn := ((hopened d n p r).mp hmem).2
        simp [Connection.drainUntil, Connection.start, Connection.resubmit] at hn

theorem step?_evolves {date : Instant} {secret : P256.Scalar} {e : Effect} (hw : w.Tidy)
    (h : w.step? date secret m = some e) : w.Evolves ⟨w.time, date, secret⟩ m e := by
  cases makes_of_step? h with
  | wait d | pass ho | sendLate n ho he | submitLate n hp he | refuse n ho | closeLate caller he
  | leaveLate ho =>
    exact .of_still rfl (fun id hm => hm) rfl (by simp)
  | send n ho he => exact .of_submit rfl rfl rfl
  | submit n hp he => exact .of_submit rfl rfl rfl
  | close caller he => exact .of_tell _ rfl (fun id hm => hm) rfl
  | leave ho => exact .of_tell _ rfl (fun id hm => hm) rfl
  | @pool msg rest hc he => exact carryOut_evolves hw (Pool.onMessage_work w.pool msg) rest false
  | @timer t he hd => exact carryOut_evolves hw (Pool.onTimer_work w.pool t) w.channel _
  | connected hm he => exact bringUp_evolves hm
  | connectedLate hm he =>
    exact .of_still rfl (fun id hm => List.mem_of_mem_filter hm) rfl (by simp)
  | attemptFailed cause hm => exact .of_tell _ rfl (fun id hm => List.mem_of_mem_filter hm) rfl
  | connection hc ha hallows => exact connection_evolves hw hc ha

/-- The number of a connection that has been made. No other connection gets it. -/
structure Made (id : Nat) (w : World) : Prop where
  known : id < w.pool.ids.next
  given : id ∉ w.attempts

theorem Tidy.made {c : Connection} (hw : w.Tidy) (hc : c ∈ w.connections) : w.Made c.id := by
  have hm : c.id ∈ w.connections.map Connection.id := List.mem_map.mpr ⟨c, hc, rfl⟩
  refine ⟨hw.known c.id (Multiset.mem_add.mpr (.inr hm)), fun hn => ?_⟩
  exact Multiset.disjoint_left.mp (Multiset.nodup_add.mp hw.distinct).2.2 hn hm

theorem Made.step {id : Nat} {e : Effect} (h : w.Made id) (he : w.Evolves now m e) :
    e.1.Made id := by
  refine ⟨lt_of_lt_of_le h.known he.next, fun hm => ?_⟩
  rcases he.attempts id hm with hm | hm
  · exact h.given hm
  · exact absurd h.known (Nat.not_lt.mpr hm)

theorem Made.not_connected {id : Nat} {date : Instant} {secret : P256.Scalar} {e : Effect}
    (h : w.Made id) : w.step? date secret (.connected id) ≠ some e := by
  simp [step?, h.given]

theorem start_connections (config : ClientConfig) : (start config).1.connections = [] := by
  have hev : (blank config).Evolves ⟨0, ⟨0, 0⟩, 0⟩ .pool (start config) :=
    carryOut_evolves (blank_tidy config)
      (Pool.fill_work (blank config).pool { pool := (blank config).pool } rfl rfl rfl rfl) [] false
  refine List.eq_nil_iff_forall_not_mem.mpr fun d hd => ?_
  cases hev.connections d hd with
  | same more there => cases there
  | step moves there awaits => cases there
  | start moves attempted => cases attempted
  | drained t moves attempted => cases attempted

end World

/-- What holds of every connection that comes up, and is kept by every move of the client, holds of
every connection that a client has. -/
theorem History.forall_connections {config : ClientConfig} {P : List Episode → Connection → Prop}
    {es : List Episode} {w : World} (h : History config es w)
    (comes : ∀ es v e, History config es v → e.Follows v → (∀ c ∈ v.connections, P es c) →
      ∀ d ∈ e.after.connections, Comes v ⟨v.time, e.date, e.secret⟩ e.move d → P (es ++ [e]) d) :
    ∀ c ∈ w.connections, P es c := by
  unfold History at h
  induction h with
  | nil =>
    intro c hc
    rw [World.start_connections] at hc
    cases hc
  | @snoc es v e hr he ih =>
    intro d hd
    exact comes es v e hr he ih d hd
      ((World.step?_evolves (History.sound hr).tidy he.2).connections d hd)

end PushDelivery
