import PushDelivery.Proofs.Counting
import PushDelivery.Proofs.PoolClosing

namespace PushDelivery

namespace Pool

variable {accepts : Acceptance} {time : Moment} {p : Pool}

theorem onMessage_callers (accepts : Acceptance) (time : Moment) (p : Pool) (m : PoolMessage) :
    (p.onMessage accepts time m).pool.callers = p.callers ++ m.caller?.toList := by
  cases m with
  | shutdown caller =>
    unfold onMessage onShutdown
    dsimp only
    split
    · rename_i c hc
      simp [callers, hc, PoolMessage.caller?]
    · rename_i hc
      simp [callers, hc, PoolMessage.caller?]
  | _ =>
    unfold callers
    rw [onMessage_closing (by simp)]
    exact (List.append_nil _).symm

/-- The connections that a step counts are those that come and go in it. It answers nobody. -/
structure Evens (p : Pool) (w : Work) : Prop where
  counts : w.pool.connections.length + w.actions.count (.count .connectionRemoved) =
    p.connections.length + w.actions.count (.count .connectionAdded)
  unanswered : ∀ caller, .answer caller ∉ w.actions

theorem Evens.of_same {w : Work} (hc : w.pool.connections.length = p.connections.length)
    (ha : ∀ e, .count e ∈ w.actions → e = .connectionCreationFailed)
    (hu : ∀ caller, .answer caller ∉ w.actions) : p.Evens w := by
  have hnone {e : MetricEvent} (he : e ≠ .connectionCreationFailed) :
      w.actions.count (.count e) = 0 :=
    List.count_eq_zero.mpr fun hm => he (ha e hm)
  refine ⟨?_, hu⟩
  rw [hnone (by simp), hnone (by simp), hc]

theorem length_of_outline {as bs : List PooledConnection} (h : outline as = outline bs) :
    as.length = bs.length := by
  simpa [outline] using congrArg List.length h

theorem HandsOver.evens {xs : List Waiter} {w v : Work} (h : HandsOver accepts xs w v)
    (hw : p.Evens w) : p.Evens v := by
  obtain ⟨hands, -, rest, cs, cursor, -, -, -, hcs, hv, ha⟩ := h
  have hlength : v.pool.connections.length = w.pool.connections.length := by
    rw [hv]
    exact length_of_outline hcs
  have hsame (e : MetricEvent) : v.actions.count (.count e) = w.actions.count (.count e) := by
    rw [ha, List.count_append, Nat.add_eq_left, List.count_eq_zero]
    intro hm
    obtain ⟨x, -, hx⟩ := List.mem_map.mp hm
    cases hx
  refine ⟨?_, fun caller hm => ?_⟩
  · rw [hlength, hsame, hsame]
    exact hw.counts
  · rw [ha] at hm
    rcases List.mem_append.mp hm with hm | hm
    · exact hw.unanswered caller hm
    · obtain ⟨x, -, hx⟩ := List.mem_map.mp hm
      cases hx

theorem route_evens (n : Dispatch) (p : Pool) : p.Evens (p.route accepts time n) := by
  by_cases hc : p.closing = none
  · exact (route_handsOver accepts time n p hc).evens ⟨rfl, by simp⟩
  · rw [route_of_closing accepts time n hc]
    exact .of_same rfl (by simp [fail]) (by simp [fail])

theorem onEstablished_evens {id : Nat} (hid : p.closing = none → id ∉ p.connectionIds) :
    p.Evens (p.onEstablished accepts id) := by
  unfold onEstablished
  dsimp only
  split
  · exact .of_same rfl (by simp) (by simp)
  · rename_i hopen
    refine (flush_handsOver accepts _).evens ⟨?_, by simp⟩
    have hnew : id ∉ p.connectionIds := hid (by simpa using hopen)
    have hall : p.connections.filter (fun c => c.id != id) = p.connections := by
      refine List.filter_eq_self.mpr fun c hc => ?_
      simpa using fun he => hnew (List.mem_map.mpr ⟨c, hc, he⟩)
    simp [hall]

theorem onClosed_counts (id : Nat) (hp : p.connectionIds.Nodup) :
    (p.onClosed time id).pool.connections.length +
        (p.onClosed time id).actions.count (.count .connectionRemoved) =
      p.connections.length + (p.onClosed time id).actions.count (.count .connectionAdded) := by
  unfold onClosed
  dsimp only
  rw [scheduleReconnect_connections]
  dsimp only
  cases hf : p.find? id with
  | none =>
    have hall : p.connections.filter (fun c => c.id != id) = p.connections := by
      refine List.filter_eq_self.mpr fun c hc => ?_
      simpa using List.find?_eq_none.mp hf c hc
    simp [hall]
  | some c =>
    obtain ⟨hid, before, after, hcs, hbefore⟩ := List.find?_eq_some_iff_append.mp hf
    obtain rfl : c.id = id := by simpa using hid
    have hafter : ∀ d ∈ after, d.id ≠ c.id := by
      rw [connectionIds, hcs, List.map_append, List.map_cons, List.nodup_append,
        List.nodup_cons] at hp
      intro d hd he
      exact hp.2.1.1 (List.mem_map.mpr ⟨d, hd, he⟩)
    have hfilter : p.connections.filter (fun d => d.id != c.id) = before ++ after := by
      rw [hcs, List.filter_append, List.filter_cons_of_neg (by simp),
        List.filter_eq_self.mpr fun d hd => ?_, List.filter_eq_self.mpr fun d hd => ?_]
      · simpa using hafter d hd
      · simpa using hbefore d hd
    rw [hfilter, hcs]
    simp
    omega

theorem onClosed_evens (id : Nat) (hp : p.connectionIds.Nodup) :
    p.Evens (p.onClosed time id) := by
  refine ⟨onClosed_counts id hp, fun caller hm => ?_⟩
  unfold onClosed at hm
  dsimp only at hm
  split at hm
  · simp at hm
  · cases hm

theorem onAttemptFailed_actions (id : Nat) (cause : String) (p : Pool) :
    ∀ a ∈ (p.onAttemptFailed time id cause).actions,
      a = .count .connectionCreationFailed ∨ ∃ r, a = .report r := by
  intro a ha
  unfold onAttemptFailed at ha
  dsimp only at ha
  split at ha
  · exact .inl (List.mem_singleton.mp ha)
  · split at ha
    · rcases List.mem_cons.mp ha with rfl | ha
      · exact .inl rfl
      · obtain ⟨n, -, rfl⟩ := List.mem_map.mp ha
        exact .inr ⟨_, rfl⟩
    · exact .inl (List.mem_singleton.mp ha)

theorem onMessage_evens {m : PoolMessage} (hp : p.connectionIds.Nodup)
    (hm : ∀ id, m = .established id → p.closing = none → id ∉ p.connectionIds) :
    p.Evens (p.onMessage accepts time m) := by
  cases m with
  | submit n | resubmit n => exact route_evens n p
  | established id => exact onEstablished_evens (hm id rfl)
  | closed id => exact onClosed_evens id hp
  | attemptFailed id cause =>
    have hactions := @onAttemptFailed_actions time id cause p
    refine .of_same (congrArg _ (onAttemptFailed_connections id cause p)) (fun e he => ?_)
      fun caller he => ?_
    · simpa using hactions _ he
    · simpa using hactions _ he
  | writabilityChanged id writable =>
    have hsets : p.Evens { pool := p.setWritable id writable } :=
      .of_same (length_of_outline (outline_setWritable id writable p)) (by simp) (by simp)
    cases writable with
    | false => exact hsets
    | true => exact (flush_handsOver accepts { pool := p.setWritable id true }).evens hsets
  | draining id =>
    refine .of_same ?_ (by simp [onMessage]) (by simp [onMessage])
    unfold onMessage onDraining
    rw [scheduleReconnect_connections]
    exact List.length_map _
  | shutdown caller =>
    unfold onMessage onShutdown
    dsimp only
    split
    · exact .of_same rfl (by simp) (by simp)
    · exact .of_same rfl (by simp [fail]) (by simp [fail])

theorem onTimer_evens (time : Moment) (p : Pool) (x : PoolTimer) :
    p.Evens (p.onTimer time x) := by
  cases x with
  | reconnect =>
    obtain ⟨k, hq, ha⟩ := fill_spec { pool := { p with reconnectAt := none } }
    refine .of_same ?_ ?_ ?_
    · unfold onTimer
      rw [hq]
    all_goals
      unfold onTimer
      rw [ha]
      simp
  | expire =>
    exact .of_same rfl (by simp [onTimer, Pool.expire, fail])
      (by simp [onTimer, Pool.expire, fail])
  | force =>
    have hnone (e : MetricEvent) : (p.tasks.map PoolAction.abort).count (.count e) = 0 :=
      List.count_eq_zero.mpr (by simp)
    refine ⟨?_, by simp [onTimer, forceClose]⟩
    simp [onTimer, forceClose, List.count_append, hnone, List.map_const', List.count_replicate]

end Pool

namespace PoolAction

/-- The caller who is told of the end. -/
def answered? : PoolAction → Option Nat
  | answer caller => some caller
  | _ => none

end PoolAction

namespace Happening

def answered? : Happening → Option Nat
  | answered caller => some caller
  | _ => none

end Happening

namespace Episode

/-- The message that the pool deals with. -/
def message? (e : Episode) : Option PoolMessage :=
  match e.move with
  | .pool => e.before.channel.head?
  | _ => none

/-- The messages that are still queued when the pool ends. -/
def discarded (e : Episode) : List PoolMessage :=
  if !e.before.pool.ended && e.after.pool.ended then e.before.behind e.move else []

end Episode

/-- Those who have closed the client and want to know when it is done. -/
def asked (es : List Episode) : List Nat :=
  es.flatMap fun e => e.move.caller?.toList

/-- Those of them who have been answered. -/
def answered (es : List Episode) : List Nat :=
  es.flatMap fun e => e.happenings.filterMap Happening.answered?

/-- Those who were let go because their message came too late. -/
def letGo (es : List Episode) : List Nat :=
  es.flatMap fun e => e.discarded.filterMap PoolMessage.caller?

variable {config : ClientConfig} {es : List Episode} {e : Episode} {w : World}

/-- The message that a turn deals with. -/
def PoolTurn.message? (t : PoolTurn) : Option PoolMessage :=
  match t.input with
  | .message m => some m
  | .timer _ => none

theorem World.Turns.channel_eq {t : PoolTurn} {m : Move} (h : w.Turns m t) :
    w.channel = t.message?.toList ++ w.behind m ∧ m.caller? = none := by
  have hinput := h.input
  unfold PoolTurn.message?
  cases m with
  | pool =>
    obtain ⟨msg, hmsg, he⟩ := Option.map_eq_some_iff.mp hinput
    rw [← he]
    obtain ⟨rest, hrest⟩ := List.head?_eq_some_iff.mp hmsg
    rw [World.behind, hrest]
    exact ⟨rfl, rfl⟩
  | timer x =>
    rw [← show PoolInput.timer x = t.input from Option.some.inj hinput]
    exact ⟨rfl, rfl⟩
  | _ => cases hinput

theorem PoolTurn.work_callers (t : PoolTurn) :
    t.work.pool.callers = t.before.callers ++ t.message?.toList.filterMap PoolMessage.caller? := by
  unfold work message?
  cases t.input with
  | message m =>
    dsimp only
    rw [Pool.onMessage_callers]
    cases hm : m.caller? <;> simp [hm]
  | timer x =>
    dsimp only
    rw [Pool.callers, Pool.onTimer_closing]
    exact (List.append_nil _).symm

theorem count_metrics {x : MetricEvent} (hx : x.isConnection = true) (hs : List Happening) :
    (hs.filterMap Happening.metric?).count x = (deeds hs).count (.count x) := by
  induction hs with
  | nil => rfl
  | cons a hs ih =>
    cases a with
    | report r =>
      have hne : r.metric ≠ x := by
        rintro rfl
        exact Bool.noConfusion ((metric_isConnection r).symm.trans hx)
      change (r.metric :: _).count x = _
      rw [List.count_cons_of_ne hne]
      exact ih
    | count y =>
      change (y :: hs.filterMap Happening.metric?).count x = (.count y :: deeds hs).count (.count x)
      rw [List.count_cons, List.count_cons, ih]
      simp
    | attempt id =>
      change _ = (PoolAction.attempt id :: deeds hs).count (.count x)
      rw [List.count_cons_of_ne (by simp)]
      exact ih
    | answered caller =>
      change _ = (PoolAction.answer caller :: deeds hs).count (.count x)
      rw [List.count_cons_of_ne (by simp)]
      exact ih
    | _ => exact ih

theorem answered_deeds (hs : List Happening) :
    hs.filterMap Happening.answered? = (deeds hs).filterMap PoolAction.answered? := by
  unfold deeds
  rw [List.filterMap_filterMap]
  apply List.filterMap_congr
  intro h _
  cases h <;> rfl

namespace Totals

theorem connections_eq_count (xs : List MetricEvent) :
    (ofEvents xs).connectionsAdded = xs.count .connectionAdded ∧
      (ofEvents xs).connectionsRemoved = xs.count .connectionRemoved := by
  have hfold (t : Totals) :
      (xs.foldl count t).connectionsAdded = t.connectionsAdded + xs.count .connectionAdded ∧
      (xs.foldl count t).connectionsRemoved =
        t.connectionsRemoved + xs.count .connectionRemoved := by
    induction xs generalizing t with
    | nil => exact ⟨rfl, rfl⟩
    | cons x xs ih =>
      obtain ⟨ha, hr⟩ := ih (t.count x)
      rw [List.foldl_cons, ha, hr, List.count_cons, List.count_cons]
      cases x <;> simp [count] <;> omega
  have h := hfold {}
  simpa [ofEvents] using h

end Totals

namespace World

/-- How the counts and the callers of a run stand. -/
structure Balanced (es : List Episode) (w : World) : Prop where
  counts : (metrics es).count .connectionAdded =
    (metrics es).count .connectionRemoved + w.pool.connections.length
  waiting : w.pool.ended = false → answered es = [] ∧ letGo es = [] ∧
    (asked es).Perm (w.pool.callers ++ w.channel.filterMap PoolMessage.caller?)
  finished : w.pool.ended = true → w.pool.connections = [] ∧
    (asked es).Perm (answered es ++ letGo es)

variable {t : PoolTurn} {m : Move}

/-- Whatever ends the pool, it has no connections left. -/
theorem Turns.connections_eq_nil (turns : w.Turns m t)
    (finished : m.isForced = true ∨ t.work.pool.isFinished = true) :
    t.work.pool.connections = [] := by
  rcases finished with hforced | hfinished
  · have hinput := turns.input
    cases m with
    | timer x =>
      cases x with
      | force =>
        have hforce : PoolInput.timer .force = t.input := Option.some.inj hinput
        rw [PoolTurn.work, ← hforce]
        rfl
      | _ => cases hforced
    | _ => cases hforced
  · simp only [Pool.isFinished, Bool.and_eq_true, List.isEmpty_iff] at hfinished
    exact hfinished.1.2

end World

theorem History.evens {t : PoolTurn} {m : Move} (h : History config es w) (turns : w.Turns m t) :
    w.pool.Evens t.work := by
  obtain ⟨-, -, hstrong, hexpects⟩ := h.turn_strong turns
  rw [← turns.follows.1] at hstrong hexpects ⊢
  unfold PoolTurn.work
  cases hi : t.input with
  | timer x => exact Pool.onTimer_evens t.time t.before x
  | message msg =>
    refine Pool.onMessage_evens (hstrong.distinct.sublist (List.sublist_append_right _ _)) ?_
    rintro id rfl hopen hid
    exact (List.nodup_append.mp hstrong.distinct).2.2 id (hexpects _ hi hopen) id hid rfl

theorem Pool.Evens.answered_eq_nil {p : Pool} {work : Pool.Work} (h : p.Evens work) :
    (work.actions.filter PoolAction.isDeed).filterMap PoolAction.answered? = [] := by
  refine List.filterMap_eq_nil_iff.mpr fun a ha => ?_
  cases a with
  | answer caller => exact absurd (List.mem_of_mem_filter ha) (h.unanswered caller)
  | _ => rfl

theorem count_snoc {x : MetricEvent} (hx : x.isConnection = true) (es : List Episode)
    (e : Episode) : (metrics (es ++ [e])).count x =
      (metrics es).count x + (deeds e.happenings).count (.count x) := by
  rw [metrics, List.flatMap_append, List.flatMap_singleton, List.count_append, count_metrics hx]
  rfl

theorem asked_snoc (es : List Episode) (e : Episode) :
    asked (es ++ [e]) = asked es ++ e.move.caller?.toList := by
  simp [asked]

theorem answered_snoc (es : List Episode) (e : Episode) : answered (es ++ [e]) =
    answered es ++ (deeds e.happenings).filterMap PoolAction.answered? := by
  simp [answered, answered_deeds]

theorem letGo_snoc (es : List Episode) (e : Episode) :
    letGo (es ++ [e]) = letGo es ++ e.discarded.filterMap PoolMessage.caller? := by
  simp [letGo]

theorem answered_answers (callers : List Nat) :
    (callers.map PoolAction.answer).filterMap PoolAction.answered? = callers := by
  simp [PoolAction.answered?, List.filterMap_map, Function.comp_def]

theorem count_answers (callers : List Nat) (x : MetricEvent) :
    (callers.map PoolAction.answer).count (.count x) = 0 :=
  List.count_eq_zero.mpr (by simp)

namespace World

theorem Balanced.queues {new : List PoolMessage} (h : e.before.Balanced es)
    (runs : e.before.pool.ended = false) (pool : e.after.pool = e.before.pool)
    (channel : e.after.channel = e.before.channel ++ new)
    (callers : new.filterMap PoolMessage.caller? = e.move.caller?.toList)
    (quiet : deeds e.happenings = []) : e.after.Balanced (es ++ [e]) := by
  obtain ⟨hnone, hkept, hperm⟩ := h.waiting runs
  have hdiscarded : e.discarded = [] := by simp [Episode.discarded, pool, runs]
  refine ⟨?_, fun _ => ⟨?_, ?_, ?_⟩, fun hended => ?_⟩
  · rw [count_snoc rfl, count_snoc rfl, quiet, pool]
    exact h.counts
  · rw [answered_snoc, hnone, quiet]
    rfl
  · rw [letGo_snoc, hkept, hdiscarded]
    rfl
  · rw [asked_snoc, pool, channel, List.filterMap_append, callers, ← List.append_assoc]
    exact hperm.append_right _
  · rw [pool, runs] at hended
    cases hended

theorem Balanced.late (h : e.before.Balanced es) (ended : e.before.pool.ended = true)
    (pool : e.after.pool = e.before.pool)
    (answers : deeds e.happenings = e.move.caller?.toList.map .answer) :
    e.after.Balanced (es ++ [e]) := by
  obtain ⟨hempty, hperm⟩ := h.finished ended
  have hdiscarded : e.discarded = [] := by simp [Episode.discarded, ended]
  refine ⟨?_, fun hruns => ?_, fun _ => ⟨?_, ?_⟩⟩
  · rw [count_snoc rfl, count_snoc rfl, answers, count_answers, count_answers, pool]
    exact h.counts
  · rw [pool, ended] at hruns
    cases hruns
  · rw [pool]
    exact hempty
  · rw [asked_snoc, answered_snoc, letGo_snoc, answers, answered_answers, hdiscarded,
      List.filterMap_nil, List.append_nil, List.append_assoc]
    refine (hperm.append_right _).trans ?_
    rw [List.append_assoc]
    exact List.perm_append_comm.append_left _

theorem Balanced.turn (h : e.before.Balanced es) (turns : e.before.Turns e.move t)
    (hevens : e.before.pool.Evens t.work) (pool : e.after.pool = t.work.pool)
    (channel : e.after.channel = e.before.behind e.move)
    (hdeeds : deeds e.happenings = t.work.actions.filter PoolAction.isDeed) :
    e.after.Balanced (es ++ [e]) := by
  obtain ⟨hnone, hkept, hperm⟩ := h.waiting turns.runs
  obtain ⟨hchannel, hcaller⟩ := turns.channel_eq
  have hcount (x : MetricEvent) :
      (deeds e.happenings).count (.count x) = t.work.actions.count (.count x) := by
    rw [hdeeds]
    exact List.count_filter rfl
  have hruns : e.after.pool.ended = false := by
    rw [pool, t.work_ended, turns.follows.1]
    exact turns.runs
  have hdiscarded : e.discarded = [] := by simp [Episode.discarded, hruns]
  refine ⟨?_, fun _ => ⟨?_, ?_, ?_⟩, fun hended => ?_⟩
  · have hbefore := h.counts
    have hturn := hevens.counts
    rw [count_snoc rfl, count_snoc rfl, hcount, hcount, pool]
    omega
  · rw [answered_snoc, hnone, hdeeds, hevens.answered_eq_nil]
    rfl
  · rw [letGo_snoc, hkept, hdiscarded]
    rfl
  · rw [asked_snoc, hcaller, pool, channel, t.work_callers, turns.follows.1, List.append_assoc,
      ← List.filterMap_append, ← hchannel]
    exact (List.append_nil _).symm ▸ hperm
  · rw [hruns] at hended
    cases hended

theorem Balanced.last (h : e.before.Balanced es) (turns : e.before.Turns e.move t)
    (hevens : e.before.pool.Evens t.work)
    (finished : e.move.isForced = true ∨ t.work.pool.isFinished = true)
    (pool : e.after.pool = { t.work.pool with waiters := [], ended := true })
    (hdeeds : deeds e.happenings =
      t.work.actions.filter PoolAction.isDeed ++ t.work.pool.callers.map .answer) :
    e.after.Balanced (es ++ [e]) := by
  obtain ⟨hnone, hkept, hperm⟩ := h.waiting turns.runs
  obtain ⟨hchannel, hcaller⟩ := turns.channel_eq
  have hcount (x : MetricEvent) :
      (deeds e.happenings).count (.count x) = t.work.actions.count (.count x) := by
    rw [hdeeds, List.count_append, count_answers, Nat.add_zero]
    exact List.count_filter rfl
  have hdiscarded : e.discarded = e.before.behind e.move := by
    simp [Episode.discarded, pool, turns.runs]
  refine ⟨?_, fun hruns => ?_, fun _ => ⟨?_, ?_⟩⟩
  · have hbefore := h.counts
    have hturn := hevens.counts
    rw [count_snoc rfl, count_snoc rfl, hcount, hcount, pool]
    dsimp only
    omega
  · rw [pool] at hruns
    cases hruns
  · rw [pool]
    exact turns.connections_eq_nil finished
  · rw [asked_snoc, answered_snoc, letGo_snoc, hcaller, hnone, hkept, hdeeds, hdiscarded,
      List.filterMap_append, hevens.answered_eq_nil, answered_answers, t.work_callers,
      turns.follows.1, List.nil_append, List.nil_append, List.nil_append, List.append_assoc,
      ← List.filterMap_append, ← hchannel]
    exact (List.append_nil _).symm ▸ hperm

theorem start_balanced (config : ClientConfig) : (start config).1.Balanced [] := by
  obtain ⟨k, hp, -⟩ := Pool.fill_spec { pool := .ofConfig config }
  obtain ⟨hpool, -, hchannel⟩ := each_perform_keeps (Pool.start config).actions
    { settings := .ofConfig config, pool := (Pool.start config).pool }
  rw [← start_eq, Pool.start, hp] at hpool
  rw [← start_eq] at hchannel
  refine ⟨?_, fun _ => ⟨rfl, rfl, ?_⟩, fun hended => ?_⟩
  · rw [hpool]
    rfl
  · rw [hpool, hchannel]
    exact .refl _
  · rw [hpool] at hended
    cases hended

end World

/-- In every state of every run the counts are right, and every caller is accounted for. -/
theorem History.balanced (h : History config es w) : w.Balanced es := by
  unfold History at h
  induction h with
  | nil => exact World.start_balanced config
  | @snoc es v e hr he ih =>
    obtain ⟨rfl, hstep⟩ := he
    cases World.step?_poolSide (History.sound hr).tidy hstep with
    | queues new apart runs pool channel callers quiet =>
      exact ih.queues runs pool channel callers quiet
    | late apart ended pool channel answers => exact ih.late ended pool answers
    | turn t turns accepts pool channel deeds reports =>
      exact ih.turn turns (History.evens hr turns) pool channel deeds
    | last t turns finished pool channel deeds reports fails =>
      exact ih.last turns (History.evens hr turns) finished pool deeds

end PushDelivery
