import PushDelivery.Proofs.ClientOrder

namespace PushDelivery

/-- The caller who waits for the end. -/
def PoolMessage.caller? : PoolMessage → Option Nat
  | shutdown caller => caller
  | _ => none

def Move.caller? : Move → Option Nat
  | close caller => some caller
  | _ => none

/-- Whether a move ends the pool whatever is left. -/
def Move.isForced : Move → Bool
  | timer .force => true
  | _ => false

namespace PoolAction

/-- Whether an action is one that only the pool takes. -/
def isDeed : PoolAction → Bool
  | attempt _ | count _ | answer _ => true
  | _ => false

end PoolAction

def Happening.deed? : Happening → Option PoolAction
  | attempt id => some (.attempt id)
  | count e => some (.count e)
  | answered caller => some (.answer caller)
  | _ => none

/-- What has happened that only the pool does. -/
def deeds (hs : List Happening) : List PoolAction :=
  hs.filterMap Happening.deed?

@[simp] theorem deeds_append (hs gs : List Happening) : deeds (hs ++ gs) = deeds hs ++ deeds gs :=
  List.filterMap_append

theorem mem_deeds {h : Happening} {hs : List Happening} {a : PoolAction} (ha : h.deed? = some a)
    (hm : h ∈ hs) : a ∈ deeds hs :=
  List.mem_filterMap.mpr ⟨h, hm, ha⟩

theorem deeds_of_reports (rs : List Report) : deeds (rs.map .report) = [] := by
  refine List.filterMap_eq_nil_iff.mpr fun h hm => ?_
  obtain ⟨r, -, rfl⟩ := List.mem_map.mp hm
  rfl

namespace Connection

variable {c : Connection} {o : Effect}

theorem Goes.told_cases (h : Goes c o) : ∀ m ∈ told o.2, (∃ p, m = .resubmit p) ∨
    m = .writabilityChanged c.id c.blocked ∨ m = .draining c.id ∨ m = .closed c.id := by
  have hlate {as : List ConnectionAction} (hl : ∀ a ∈ as, a.isLate = true) :
      ∀ m ∈ told as, ∃ p, m = .resubmit p := by
    intro m hm
    rw [told_of_late hl] at hm
    obtain ⟨p, -, rfl⟩ := List.mem_map.mp hm
    exact ⟨p, rfl⟩
  intro m hm
  cases h with
  | on _ _ _ reports =>
    rw [told_of_silent fun a ha => ConnectionAction.isSilent_of_report (reports a ha)] at hm
    cases hm
  | writes _ _ _ _ silent =>
    rw [told_of_silent silent] at hm
    cases hm
  | flips => exact .inr (.inl (List.mem_singleton.mp hm))
  | drains _ _ _ silent late =>
    rw [told_append, told_of_silent silent, List.nil_append, told_tell] at hm
    rcases List.mem_cons.mp hm with rfl | hm
    · exact .inr (.inr (.inl rfl))
    · exact .inl (hlate late m hm)
  | lingers _ _ _ late => exact .inl (hlate late m hm)
  | ends _ _ _ late =>
    rw [told_append] at hm
    rcases List.mem_append.mp hm with hm | hm
    · exact .inl (hlate late m hm)
    · exact .inr (.inr (.inr (List.mem_singleton.mp hm)))

theorem Goes.told_callers (h : Goes c o) : (told o.2).filterMap PoolMessage.caller? = [] := by
  refine List.filterMap_eq_nil_iff.mpr fun m hm => ?_
  rcases h.told_cases m hm with ⟨p, rfl⟩ | rfl | rfl | rfl
  · rfl
  · rfl
  · rfl
  · rfl

end Connection

/-- Those who wait for the end of a pool. -/
def Pool.callers (p : Pool) : List Nat :=
  (p.closing.map Closing.callers).getD []

namespace World

open PoolAction

variable {w : World} {m : Move} {e : Effect}

/-- What is still queued when the pool has taken its turn. -/
def behind (w : World) : Move → List PoolMessage
  | .pool => w.channel.tail
  | _ => w.channel

/-- What a move is for the pool. -/
inductive PoolSide (w : World) (m : Move) (e : Effect) : Prop
  /-- It leaves the pool alone and lets messages queue up. -/
  | queues (new : List PoolMessage) (apart : w.poolInput? m = none)
      (runs : w.pool.ended = false) (pool : e.1.pool = w.pool)
      (channel : e.1.channel = w.channel ++ new)
      (callers : new.filterMap PoolMessage.caller? = m.caller?.toList) (quiet : deeds e.2 = [])
  /-- The pool has ended before; whoever closes the client is answered at once. -/
  | late (apart : w.poolInput? m = none) (ended : w.pool.ended = true)
      (pool : e.1.pool = w.pool) (channel : e.1.channel = w.channel)
      (answers : deeds e.2 = m.caller?.toList.map .answer)
  /-- It is a turn of the pool. -/
  | turn (t : PoolTurn) (turns : w.Turns m t) (accepts : t.accepts = w.accepts)
      (pool : e.1.pool = t.work.pool) (channel : e.1.channel = w.behind m)
      (deeds : deeds e.2 = t.work.actions.filter isDeed)
      (reports : ∀ r, .report r ∈ t.work.actions → .report r ∈ e.2)
  /-- It is the last turn of the pool, which lets go of what is still queued. -/
  | last (t : PoolTurn) (turns : w.Turns m t)
      (finished : m.isForced = true ∨ t.work.pool.isFinished = true)
      (pool : e.1.pool = { t.work.pool with waiters := [], ended := true })
      (channel : e.1.channel = [])
      (deeds : deeds e.2 = t.work.actions.filter isDeed ++ t.work.pool.callers.map .answer)
      (reports : ∀ r, .report r ∈ t.work.actions → .report r ∈ e.2)
      (fails : ∀ p ∈ (w.behind m).filterMap PoolMessage.dispatch?,
        .report (p.fail .clientClosed) ∈ e.2)

theorem deeds_tell (w : World) (msg : PoolMessage) : deeds (w.tell msg).2 = [] := by
  unfold tell
  split
  · cases msg <;> rfl
  · rfl

theorem deeds_each_act (id : Nat) (as : List ConnectionAction) (w : World) :
    deeds (each (act id) w as).2 = [] := by
  induction as generalizing w with
  | nil => rfl
  | cons a as ih =>
    have hone : deeds (w.act id a).2 = [] := by
      cases a with
      | tell msg => exact deeds_tell w msg
      | _ => rfl
    rw [each_cons, deeds_append, hone, ih, List.nil_append]

theorem deeds_settle (o : Connection.Effect) (w : World) : deeds (w.settle o).2 = [] := by
  unfold settle
  dsimp only
  split
  · rw [andThen, deeds_append, deeds_each_act]
    rfl
  · exact deeds_each_act o.1.id o.2 (w.set o.1)

theorem deeds_each_perform (as : List PoolAction) (w : World) :
    deeds (each perform w as).2 = as.filter PoolAction.isDeed := by
  induction as generalizing w with
  | nil => rfl
  | cons a as ih =>
    have hone : deeds (w.perform a).2 = [a].filter PoolAction.isDeed := by
      cases a with
      | abort id => exact deeds_of_reports (((w.find? id).map Connection.abort).getD [])
      | _ => rfl
    rw [each_cons, deeds_append, hone, ih]
    exact (List.filter_append ..).symm

theorem reports_each_perform {r : Report} (as : List PoolAction) (w : World)
    (hr : .report r ∈ as) : .report r ∈ (each perform w as).2 := by
  induction as generalizing w with
  | nil => cases hr
  | cons a as ih =>
    rw [each_cons]
    rcases List.mem_cons.mp hr with rfl | hr
    · exact List.mem_append_left _ (List.mem_singleton_self _)
    · exact List.mem_append_right _ (ih _ hr)

theorem each_act_late (id : Nat) (as : List ConnectionAction) (w : World)
    (hr : w.pool.ended = true) : (each (act id) w as).1 = w := by
  induction as with
  | nil => rfl
  | cons a as ih =>
    have hone : (w.act id a).1 = w := by
      cases a with
      | tell msg =>
        unfold act tell
        dsimp only
        rw [if_pos hr]
        cases msg <;> rfl
      | _ => rfl
    rw [each_cons]
    dsimp only
    rw [hone]
    exact ih

theorem settle_late (o : Connection.Effect) (hr : w.pool.ended = true) :
    (w.settle o).1.pool = w.pool ∧ (w.settle o).1.channel = w.channel := by
  unfold settle andThen
  dsimp only
  split
  · rw [each_act_late o.1.id o.2 (w.remove o.1.id) hr]
    exact ⟨rfl, rfl⟩
  · rw [each_act_late o.1.id o.2 (w.set o.1) hr]
    exact ⟨rfl, rfl⟩

theorem PoolSide.of_still (ha : w.poolInput? m = none) (hp : e.1.pool = w.pool)
    (hc : e.1.channel = w.channel) (hd : deeds e.2 = []) (hm : m.caller? = none) :
    w.PoolSide m e := by
  cases hr : w.pool.ended with
  | true =>
    refine .late ha hr hp hc ?_
    rw [hd, hm]
    rfl
  | false =>
    refine .queues [] ha hr hp ?_ ?_ hd
    · rw [hc, List.append_nil]
    · rw [hm]
      rfl

/-- The pool is told something, as long as it has not ended. -/
theorem PoolSide.of_tell {v : World} (msg : PoolMessage) (ha : w.poolInput? m = none)
    (hp : v.pool = w.pool) (hc : v.channel = w.channel)
    (hm : [msg].filterMap PoolMessage.caller? = m.caller?.toList)
    (hl : w.pool.ended = true → m.caller? = none) : w.PoolSide m (v.tell msg) := by
  cases hr : w.pool.ended with
  | true =>
    have htell : (v.tell msg).1 = v := by
      unfold tell
      rw [if_pos (hp ▸ hr)]
      cases msg <;> rfl
    refine .of_still ha ?_ ?_ (deeds_tell v msg) (hl hr)
    · rw [htell]
      exact hp
    · rw [htell]
      exact hc
  | false =>
    have htell := tell_runs (w := v) (hp ▸ hr) msg
    refine .queues [msg] ha hr ?_ ?_ hm (deeds_tell v msg)
    · rw [htell]
      exact hp
    · rw [htell, ← hc]

theorem PoolSide.of_submit {v : World} {p : Dispatch} (ha : w.poolInput? m = none)
    (hm : m.caller? = none) (hr : w.pool.ended = false) (hp : v.pool = w.pool)
    (hc : v.channel = w.channel) :
    w.PoolSide m (andThen (v, [.submitted p]) fun v => v.tell (.submit p)) := by
  have htell := tell_runs (w := v) (hp ▸ hr) (.submit p)
  unfold andThen
  dsimp only
  rw [htell]
  refine .queues [.submit p] ha hr hp ?_ ?_ rfl
  · rw [← hc]
  · rw [hm]
    rfl

theorem PoolSide.of_bringUp {id : Nat} (hr : w.pool.ended = false) :
    w.PoolSide (.connected id) (w.bringUp id) := by
  unfold bringUp andThen
  dsimp only
  split
  · exact .queues [.established id] rfl hr rfl rfl rfl rfl
  · rename_i deadline _
    let o := (Connection.start w.settings id w.time).drainUntil deadline
    have ho : Connection.Goes (Connection.start w.settings id w.time) o :=
      Connection.drainUntil_goes deadline (by simp [Connection.start]) rfl rfl
    have hsettle := settle_eq (w := w.withConnection id) o hr
    refine .queues (.established id :: Connection.told o.2) rfl hr ?_ ?_ ?_
      (by rw [deeds_append, deeds_settle]; rfl)
    · rw [hsettle]
      split
      · rfl
      · rfl
    · rw [hsettle]
      exact List.append_assoc _ _ _
    · rw [List.filterMap_cons_none rfl, ho.told_callers]
      rfl

theorem PoolSide.of_settle {c : Connection} {o : Connection.Effect} (ho : Connection.Goes c o)
    (ha : w.poolInput? m = none) (hm : m.caller? = none) : w.PoolSide m (w.settle o) := by
  cases hr : w.pool.ended with
  | true =>
    obtain ⟨hpool, hchannel⟩ := settle_late o hr
    refine .late ha hr hpool hchannel ?_
    rw [deeds_settle, hm]
    rfl
  | false =>
    have hsettle := settle_eq o hr
    refine .queues (Connection.told o.2) ha hr ?_ ?_ ?_ (deeds_settle o w)
    · rw [hsettle]
      split
      · rfl
      · rfl
    · rw [hsettle]
    · rw [ho.told_callers, hm]
      rfl

theorem PoolSide.of_carryOut (t : PoolTurn) (turns : w.Turns m t) (ha : t.accepts = w.accepts) :
    w.PoolSide m ({ w with channel := w.behind m }.carryOut t.work m.isForced) := by
  unfold carryOut
  split
  · rename_i hover
    rw [Bool.or_eq_true] at hover
    obtain ⟨hpool, -, hchannel⟩ := each_perform_keeps (Pool.finish (w.behind m) t.work).actions
      { w with channel := [], pool := (Pool.finish (w.behind m) t.work).pool }
    refine .last t turns hover hpool hchannel ?_ (fun r hr => reports_each_perform _ _ ?_)
      fun p hp => reports_each_perform _ _ ?_
    · rw [deeds_each_perform]
      simp [Pool.finish, Pool.Work.act, Pool.Work.setPool, Pool.discard_eq, Pool.fail, isDeed,
        List.filter_map, Function.comp_def, Pool.callers]
    · exact List.mem_append_left _ hr
    · refine List.mem_append_right _ (List.mem_append_left _ (List.mem_append_left _ ?_))
      rw [Pool.discard_eq]
      exact List.mem_map.mpr ⟨p, hp, rfl⟩
  · obtain ⟨hpool, -, hchannel⟩ := each_perform_keeps t.work.actions
      { w with channel := w.behind m, pool := t.work.pool }
    exact .turn t turns ha hpool hchannel (deeds_each_perform _ _)
      fun r hr => reports_each_perform _ _ hr

theorem step?_poolSide {date : Instant} {secret : P256.Scalar} (hw : w.Tidy)
    (h : w.step? date secret m = some e) : w.PoolSide m e := by
  cases makes_of_step? h with
  | wait d | pass ho | refuse n ho | leaveLate ho | sendLate n ho he | submitLate n hp he
  | connectedLate hm he =>
    exact .of_still rfl rfl rfl rfl rfl
  | closeLate caller he => exact .late rfl he rfl rfl rfl
  | send n ho he | submit n hp he => exact .of_submit rfl rfl he rfl rfl
  | close caller he =>
    exact .of_tell _ rfl rfl rfl rfl fun hl => Bool.noConfusion (he.symm.trans hl)
  | leave ho => exact .of_tell _ rfl rfl rfl rfl fun _ => rfl
  | attemptFailed cause hm => exact .of_tell _ rfl rfl rfl rfl fun _ => rfl
  | connected hm he => exact .of_bringUp he
  | @connection c i hc ha hallows =>
    exact .of_settle (Connection.step_goes _ (hw.running c (List.mem_of_find?_eq_some hc)) ha)
      rfl rfl
  | @pool msg rest hc he =>
    let t : PoolTurn := ⟨w.pool, .message msg, w.time, w.accepts⟩
    have turns : w.Turns .pool t := ⟨⟨rfl, rfl⟩, by simp [poolInput?, hc, t], rfl, he⟩
    have hside := PoolSide.of_carryOut t turns rfl
    rw [show w.behind .pool = rest by rw [behind, hc]; rfl] at hside
    exact hside
  | @timer x he hd =>
    let t : PoolTurn := ⟨w.pool, .timer x, w.time, w.accepts⟩
    have turns : w.Turns (.timer x) t := ⟨⟨rfl, hd⟩, rfl, rfl, he⟩
    have hside := PoolSide.of_carryOut t turns rfl
    cases x with
    | reconnect | expire | force => exact hside

theorem Ordered.turn_strong {config : ClientConfig} {ts : List PoolTurn} {t : PoolTurn}
    (h : Ordered config ts w) (turns : w.Turns m t) :
    PoolRun config (ts ++ [t]) t.work.pool ∧ t.work.pool.Strong ∧
      ∀ msg, t.input = .message msg → w.pool.Expects msg := by
  have hcome : ∀ msg, t.input = .message msg → PushDelivery.mayCome config ts msg = true := by
    intro msg hmsg
    have hinput := turns.input
    rw [hmsg] at hinput
    cases m with
    | pool =>
      obtain ⟨x, hx, he⟩ := Option.map_eq_some_iff.mp hinput
      obtain rfl : x = msg := PoolInput.message.inj he
      obtain ⟨rest, hrest⟩ := List.head?_eq_some_iff.mp hx
      exact h.mayCome hrest
    | timer x =>
      have hinput : PoolInput.timer x = .message msg := Option.some.inj hinput
      cases hinput
    | _ => cases hinput
  obtain ⟨hstrong, habreast⟩ := h.run.strong h.order
  have hrun := h.run.turn turns.follows
  exact ⟨hrun, (hrun.strong (h.order.snoc hcome)).1,
    fun msg hmsg => habreast.expects hstrong (hcome msg hmsg)⟩

end World

end PushDelivery
