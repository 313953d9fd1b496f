import Mathlib.Data.List.Forall2
import PushDelivery.Proofs.PoolClosing

namespace PushDelivery

/-- How a waiter leaves the pool. -/
inductive Departure where
  | handed (connection : Nat)
  | failed (e : SendError)
deriving DecidableEq, Repr

def Departure.action (n : Dispatch) : Departure → PoolAction
  | handed id => .handOff id n
  | failed e => .report (n.fail e)

def PoolAction.departs : PoolAction → Bool
  | handOff _ _ | report _ => true
  | _ => false

namespace PoolTurn

/-- Who joins the line in a step. One who is handed over at once counts, too. -/
def arrivals (t : PoolTurn) : List Waiter :=
  t.input.dispatch?.toList.map fun n => ⟨n, Moment.after t.time t.before.acquireTimeout⟩

/-- What is done in a step with the notifications that leave. -/
def departures (t : PoolTurn) : List PoolAction :=
  t.work.actions.filter PoolAction.departs

/-- Why a step ends all waiting, if it does: an attempt has failed that leaves no connection open
for work and none on its way, or the pool is told to close. -/
def dismissal? (t : PoolTurn) : Option SendError :=
  if t.before.closing.isSome then none
  else
    match t.input with
    | .message (.attemptFailed _ cause) =>
      if t.work.pool.connectedCount = 0 ∧ t.work.pool.connecting = [] then
        some (.connectionFailed cause)
      else none
    | .message (.shutdown _) => some .clientClosed
    | _ => none

/-- The causes for which waiters leave in a step, with all that leave in it. -/
inductive Cause (t : PoolTurn) : List (Waiter × Departure) → Prop
  /-- Connections have taken them. -/
  | handed {gone : List (Waiter × Departure)} (stays : t.dismissal? = none)
      (other : t.input ≠ .timer .expire)
      (taken : ∀ x ∈ gone, ∃ id k, x.2 = .handed id ∧ t.accepts k id = true) : Cause t gone
  /-- Their time is over. -/
  | expired (timer : t.input = .timer .expire) : Cause t
      ((t.before.waiters.filter (Pool.isExpired t.time)).map fun x => (x, .failed .acquireTimeout))
  /-- Nobody waits any longer. -/
  | dismissed {e : SendError} (all : t.dismissal? = some e) :
      Cause t (t.before.waiters.map fun x => (x, .failed e))
  /-- Who comes while the pool closes cannot wait. -/
  | late (closing : t.before.closing ≠ none) (nobody : t.before.waiters = []) :
      Cause t (t.arrivals.map fun x => (x, .failed .clientClosed))

/-- Who leaves in a step, and how. Those who leave stood before those who stay. -/
structure Lets (t : PoolTurn) (gone : List (Waiter × Departure)) : Prop where
  line : t.before.waiters ++ t.arrivals = gone.map Prod.fst ++ t.work.pool.waiters
  departures : t.departures = gone.map fun x => x.2.action x.1.dispatch
  cause : t.Cause gone

end PoolTurn

namespace Pool

variable {accepts : Acceptance} {time : Moment} {p : Pool}

/-- The first in the line has the first deadline. -/
def Sorted (xs : List Waiter) : Prop :=
  xs.Pairwise fun x y => x.deadline ≤ y.deadline

theorem Sorted.takeWhile_expired {xs : List Waiter} (h : Sorted xs) (time : Moment) :
    xs.takeWhile (isExpired time) = xs.filter (isExpired time) ∧
      xs.dropWhile (isExpired time) = xs.filter fun x => !isExpired time x := by
  induction xs with
  | nil => exact ⟨rfl, rfl⟩
  | cons x xs ih =>
    obtain ⟨hfirst, hrest⟩ := List.pairwise_cons.mp h
    by_cases hx : isExpired time x = true
    · simpa [hx] using ih hrest
    · -- Nobody behind one who may still wait is due.
      have hlater : ∀ y ∈ xs, ¬isExpired time y = true := by
        intro y hy hdue
        simp only [isExpired, decide_eq_true_eq] at hx hdue
        exact hx (Nat.le_trans (hfirst y hy) hdue)
      have hall : xs.filter (fun y => !isExpired time y) = xs := by
        apply List.filter_eq_self.mpr
        simpa using hlater
      have hnone : xs.filter (isExpired time) = [] := List.filter_eq_nil_iff.mpr hlater
      simp [hx, hall, hnone]

theorem expire_of_sorted (h : Sorted p.waiters) (time : Moment) : p.expire time =
    { pool := { p with waiters := p.waiters.filter fun x => !isExpired time x }
      actions := fail .acquireTimeout
        ((p.waiters.filter (isExpired time)).map Waiter.dispatch) } := by
  obtain ⟨hgone, hleft⟩ := h.takeWhile_expired time
  rw [expire, hgone, hleft]

theorem fail_eq (e : SendError) (xs : List Waiter) : fail e (xs.map Waiter.dispatch) =
    (xs.map fun x => (x, Departure.failed e)).map fun x => x.2.action x.1.dispatch := by
  simp [fail, Departure.action]

theorem departs_fail (e : SendError) (ps : List Dispatch) :
    (fail e ps).filter PoolAction.departs = fail e ps := by
  rw [List.filter_eq_self]
  intro a ha
  obtain ⟨n, -, rfl⟩ := List.mem_map.mp ha
  rfl

theorem departs_inert (as : List PoolAction) (h : ∀ a ∈ as, a.isInert = true) :
    as.filter PoolAction.departs = [] := by
  rw [List.filter_eq_nil_iff]
  intro a ha hdeparts
  have hinert := h a ha
  cases a with
  | handOff id n | report r => cases hinert
  | _ => cases hdeparts

theorem Work.Accounts.no_departure {w : Work} (h : w.Accounts (unwritten [])) :
    w.actions.filter PoolAction.departs = [] := by
  obtain ⟨F, -, hreports, hall⟩ := h
  have hnone : F = [] ∧ w.handed = [] := by
    have hcard := congrArg Multiset.card hall
    simp only [unwritten, Multiset.card_add, Multiset.coe_card, List.length_map, List.length_nil]
      at hcard
    exact ⟨List.length_eq_zero_iff.mp (by omega), List.length_eq_zero_iff.mp (by omega)⟩
  rw [hnone.1] at hreports
  rw [List.filter_eq_nil_iff]
  intro a ha hdeparts
  cases a with
  | handOff id n =>
    have hhanded := List.filterMap_eq_nil_iff.mp hnone.2 _ ha
    cases hhanded
  | report r =>
    have hreported := List.filterMap_eq_nil_iff.mp hreports _ ha
    cases hreported
  | _ => cases hdeparts

theorem exists_handed {hands : List (Nat × Dispatch)} {given : List Waiter}
    (h : hands.map Prod.snd = given.map Waiter.dispatch) :
    ∃ gone : List (Waiter × Departure), gone.map Prod.fst = given ∧
      (gone.map fun x => x.2.action x.1.dispatch) =
        (hands.map fun x => PoolAction.handOff x.1 x.2) ∧
      ∀ x ∈ gone, ∃ y ∈ hands, x.2 = .handed y.1 := by
  induction hands generalizing given with
  | nil =>
    obtain rfl := List.map_eq_nil_iff.mp h.symm
    exact ⟨[], rfl, rfl, by simp⟩
  | cons y hands ih =>
    obtain ⟨x, given, rfl, hx, hrest⟩ := List.map_eq_cons_iff.mp h.symm
    obtain ⟨gone, hfst, hactions, hhanded⟩ := ih hrest.symm
    refine ⟨(x, .handed y.1) :: gone, ?_, ?_, ?_⟩
    · rw [List.map_cons, hfst]
    · rw [List.map_cons, List.map_cons, hactions, ← hx]
      rfl
    · intro z hz
      rcases List.mem_cons.mp hz with rfl | hz
      · exact ⟨y, List.mem_cons_self, rfl⟩
      · obtain ⟨u, hu, he⟩ := hhanded z hz
        exact ⟨u, List.mem_cons_of_mem _ hu, he⟩

theorem scheduleReconnect_waiters (delay : Duration) (p : Pool) :
    (p.scheduleReconnect time delay).waiters = p.waiters := by
  obtain ⟨planned, h⟩ := scheduleReconnect_frame time delay p
  rw [h]

theorem onAttemptFailed_cases (id : Nat) (cause : String) (hc : p.closing = none) :
    let w := p.onAttemptFailed time id cause
    (w.pool.connectedCount = 0 ∧ w.pool.connecting = [] ∧ w.pool.waiters = [] ∧
      w.actions = .count .connectionCreationFailed ::
        fail (.connectionFailed cause) (p.waiters.map Waiter.dispatch)) ∨
    (¬(w.pool.connectedCount = 0 ∧ w.pool.connecting = []) ∧ w.pool.waiters = p.waiters ∧
      w.actions = [.count .connectionCreationFailed]) := by
  unfold onAttemptFailed
  dsimp only
  rw [if_neg (by simp [hc])]
  split
  · rename_i hlast
    obtain ⟨planned, hq⟩ := scheduleReconnect_frame time p.backoff.next.1 { p with
      connecting := p.connecting.filter (· != id), tasks := p.tasks.filter (· != id)
      backoff := p.backoff.next.2, waiters := [] }
    refine .inl ?_
    simp only [Work.act, Work.setPool, hq]
    exact ⟨hlast.1, hlast.2, trivial, rfl⟩
  · rename_i hmore
    obtain ⟨planned, hq⟩ := scheduleReconnect_frame time p.backoff.next.1 { p with
      connecting := p.connecting.filter (· != id), tasks := p.tasks.filter (· != id)
      backoff := p.backoff.next.2 }
    refine .inr ?_
    simp only [Work.setPool, hq]
    exact ⟨hmore, trivial, trivial⟩

end Pool

namespace PoolTurn

variable {t : PoolTurn}

theorem lets_of_handsOver {w : Pool.Work} (stays : t.dismissal? = none)
    (other : t.input ≠ .timer .expire) (hw : ∀ a ∈ w.actions, a.isInert = true)
    (h : Pool.HandsOver t.accepts (t.before.waiters ++ t.arrivals) w t.work) :
    ∃ gone, t.Lets gone := by
  obtain ⟨hands, given, rest, cs, cursor, hline, hsame, haccepted, -, hpool, hactions⟩ := h
  obtain ⟨gone, hfst, hgone, hhanded⟩ := Pool.exists_handed hsame
  refine ⟨gone, ?_, ?_, .handed stays other ?_⟩
  · rw [hline, hfst, hpool]
  · have hall : (hands.map fun x => PoolAction.handOff x.1 x.2).filter PoolAction.departs =
        hands.map fun x => PoolAction.handOff x.1 x.2 := by
      rw [List.filter_eq_self]
      intro a ha
      obtain ⟨y, -, rfl⟩ := List.mem_map.mp ha
      rfl
    rw [departures, hactions, List.filter_append, Pool.departs_inert _ hw, hall, hgone,
      List.nil_append]
  · intro x hx
    obtain ⟨y, hy, he⟩ := hhanded x hx
    obtain ⟨k, hk⟩ := haccepted y hy
    exact ⟨y.1, k, he, hk⟩

theorem lets_nobody (stays : t.dismissal? = none) (other : t.input ≠ .timer .expire)
    (hnew : t.arrivals = []) (hw : t.work.pool.waiters = t.before.waiters)
    (ha : t.departures = []) : ∃ gone, t.Lets gone := by
  refine ⟨[], ?_, ha, .handed stays other (by simp)⟩
  rw [hnew, hw, List.append_nil]
  rfl

theorem lets_all {e : SendError} (pre post : List PoolAction) (all : t.dismissal? = some e)
    (hnew : t.arrivals = []) (hw : t.work.pool.waiters = [])
    (ha : t.work.actions = pre ++ (Pool.fail e (t.before.waiters.map Waiter.dispatch) ++ post))
    (hpre : ∀ a ∈ pre, a.isInert = true) (hpost : ∀ a ∈ post, a.isInert = true) :
    ∃ gone, t.Lets gone := by
  refine ⟨_, ?_, ?_, .dismissed all⟩
  · simp [hnew, hw, Function.comp_def]
  · rw [departures, ha, List.filter_append, List.filter_append, Pool.departs_inert pre hpre,
      Pool.departs_inert post hpost, Pool.departs_fail, Pool.fail_eq, List.append_nil,
      List.nil_append]

theorem arrivals_eq_nil (h : t.input.dispatch? = none) : t.arrivals = [] := by
  simp [arrivals, h]

theorem dismissal?_eq_none (h : ∀ m, t.input = .message m →
    (∀ id cause, m ≠ .attemptFailed id cause) ∧ ∀ caller, m ≠ .shutdown caller) :
    t.dismissal? = none := by
  unfold dismissal?
  split
  · rfl
  · split
    · rename_i id cause hm
      exact absurd rfl ((h _ hm).1 id cause)
    · rename_i caller hm
      exact absurd rfl ((h _ hm).2 caller)
    · rfl

theorem lets_closing {m : PoolMessage} (hm : t.input = .message m) (hc : t.before.closing ≠ none)
    (hclears : t.before.Clears) : ∃ gone, t.Lets gone := by
  have hnobody := hclears hc
  have hwork := work_of_message hm
  refine ⟨_, ?_, ?_, .late hc hnobody⟩
  · have hstill : t.work.pool.waiters = [] := by
      rw [hwork]
      exact Pool.onMessage_clears m hclears (Pool.onMessage_closes m hc)
    simp [hnobody, hstill, Function.comp_def]
  · cases hd : m.dispatch? with
    | some n =>
      have hnew : t.input.dispatch? = some n := by rw [hm, PoolInput.dispatch?, hd]
      rw [departures, hwork, Pool.onMessage_of_dispatch hd, Pool.route_of_closing _ _ n hc]
      simp only [Pool.departs_fail, arrivals, hnew]
      rfl
    | none =>
      have hnew : t.input.dispatch? = none := by rw [hm, PoolInput.dispatch?, hd]
      have hquiet := (@Pool.onMessage_work t.accepts t.time t.before m).1
      rw [hd, show t.before.waiting = [] from List.map_eq_nil_iff.mpr hnobody] at hquiet
      rw [arrivals_eq_nil hnew, departures, hwork]
      exact hquiet.no_departure

theorem lets_attemptFailed {id : Nat} {cause : String}
    (hm : t.input = .message (.attemptFailed id cause)) (hc : t.before.closing = none) :
    ∃ gone, t.Lets gone := by
  have hnew : t.arrivals = [] := arrivals_eq_nil (by rw [hm]; rfl)
  have hdismissal : t.dismissal? =
      if t.work.pool.connectedCount = 0 ∧ t.work.pool.connecting = [] then
        some (.connectionFailed cause)
      else none := by
    simp [dismissal?, hc, hm]
  have hwork : t.work = t.before.onAttemptFailed t.time id cause := work_of_message hm
  have hcases := @Pool.onAttemptFailed_cases t.time t.before id cause hc
  rw [← hwork] at hcases
  have hinert : ∀ a ∈ [PoolAction.count .connectionCreationFailed], a.isInert = true := by
    simp [PoolAction.isInert, MetricEvent.isConnection]
  rcases hcases with ⟨hnone, hway, hnobody, hactions⟩ | ⟨hleft, hsame, hactions⟩
  · apply lets_all [.count .connectionCreationFailed] []
      (hdismissal.trans (if_pos ⟨hnone, hway⟩)) hnew hnobody
    · rw [hactions, List.append_nil]
      rfl
    · exact hinert
    · simp
  · apply lets_nobody (hdismissal.trans (if_neg hleft)) (by simp [hm]) hnew hsame
    rw [departures, hactions, Pool.departs_inert _ hinert]

theorem lets_message {m : PoolMessage} (hm : t.input = .message m) (hc : t.before.closing = none) :
    ∃ gone, t.Lets gone := by
  have hwork := work_of_message hm
  have hother : t.input ≠ .timer .expire := by simp [hm]
  have hstays (hf : ∀ id cause, m ≠ .attemptFailed id cause) (hs : ∀ caller, m ≠ .shutdown caller) :
      t.dismissal? = none := by
    apply dismissal?_eq_none
    simpa [hm] using ⟨hf, hs⟩
  have hnew (hd : m.dispatch? = none) : t.arrivals = [] := by
    apply arrivals_eq_nil
    rw [hm, PoolInput.dispatch?, hd]
  cases m with
  | submit n | resubmit n =>
    apply lets_of_handsOver (w := { pool := t.before }) (hstays (by simp) (by simp)) hother
    · simp
    · rw [hwork, arrivals, hm]
      exact Pool.route_handsOver t.accepts t.time n t.before hc
  | established id =>
    let w : Pool.Work := {
      pool := { t.before with
        connecting := t.before.connecting.filter (· != id)
        backoff := t.before.backoff.reset
        connections := t.before.connections.filter (fun c => c.id != id) ++ [{ id := id }]
        rotation := t.before.rotation ++ [id] }
      actions := [.count .connectionAdded] }
    have hflush : t.work = Pool.flush t.accepts w := by
      rw [hwork, Pool.onMessage, Pool.onEstablished]
      dsimp only
      rw [if_neg (by simp [hc])]
    apply lets_of_handsOver (w := w) (hstays (by simp) (by simp)) hother
    · simp [w, PoolAction.isInert, MetricEvent.isConnection]
    · rw [hnew rfl, List.append_nil, hflush]
      exact Pool.flush_handsOver t.accepts w
  | attemptFailed id cause => exact lets_attemptFailed hm hc
  | writabilityChanged id writable =>
    cases writable with
    | false =>
      apply lets_nobody (hstays (by simp) (by simp)) hother (hnew rfl)
      · rw [hwork]
        rfl
      · rw [departures, hwork]
        rfl
    | true =>
      let w : Pool.Work := { pool := t.before.setWritable id true }
      apply lets_of_handsOver (w := w) (hstays (by simp) (by simp)) hother (by simp [w])
      rw [hnew rfl, List.append_nil, hwork]
      exact Pool.flush_handsOver t.accepts w
  | draining id =>
    apply lets_nobody (hstays (by simp) (by simp)) hother (hnew rfl)
    · rw [hwork]
      exact Pool.scheduleReconnect_waiters _ _
    · rw [departures, hwork]
      rfl
  | closed id =>
    apply lets_nobody (hstays (by simp) (by simp)) hother (hnew rfl)
    · rw [hwork]
      exact Pool.scheduleReconnect_waiters _ _
    · rw [departures, hwork, Pool.onMessage, Pool.onClosed]
      dsimp only
      split
      all_goals rfl
  | shutdown caller =>
    have hdismissal : t.dismissal? = some .clientClosed := by simp [dismissal?, hc, hm]
    have hshutdown : t.work = t.before.onShutdown t.time caller := hwork
    unfold Pool.onShutdown at hshutdown
    rw [hc] at hshutdown
    dsimp only at hshutdown
    apply lets_all [] (t.before.connecting.map .abort ++
      [.announce (Moment.after t.time t.before.gracePeriod)]) hdismissal (hnew rfl)
    · rw [hshutdown]
    · rw [hshutdown, List.append_assoc]
      rfl
    · simp
    · intro a ha
      rcases List.mem_append.mp ha with ha | ha
      · obtain ⟨id, -, rfl⟩ := List.mem_map.mp ha
        rfl
      · obtain rfl := List.mem_singleton.mp ha
        rfl

theorem lets_timer {x : Pool.PoolTimer} (hx : t.input = .timer x)
    (hsorted : Pool.Sorted t.before.waiters) : ∃ gone, t.Lets gone := by
  have hwork := work_of_timer hx
  have hnew : t.arrivals = [] := arrivals_eq_nil (by rw [hx]; rfl)
  have hstays : t.dismissal? = none := dismissal?_eq_none (by simp [hx])
  cases x with
  | reconnect =>
    obtain ⟨k, hpool, hactions⟩ :=
      Pool.fill_spec { pool := { t.before with reconnectAt := none } }
    change t.work = Pool.fill _ at hwork
    apply lets_nobody hstays (by simp [hx]) hnew
    · rw [hwork, hpool]
    · rw [departures, hwork, hactions, List.nil_append, List.filter_eq_nil_iff]
      intro a ha
      obtain ⟨id, -, rfl⟩ := List.mem_map.mp ha
      simp [PoolAction.departs]
  | expire =>
    have hexpire : t.work = t.before.expire t.time := hwork
    rw [Pool.expire_of_sorted hsorted] at hexpire
    refine ⟨_, ?_, ?_, .expired hx⟩
    · rw [hnew, hexpire, List.append_nil, List.map_map, ← (hsorted.takeWhile_expired t.time).1,
        ← (hsorted.takeWhile_expired t.time).2]
      simp [Function.comp_def]
    · rw [departures, hexpire, Pool.departs_fail, Pool.fail_eq]
  | force =>
    change t.work = t.before.forceClose at hwork
    apply lets_nobody hstays (by simp [hx]) hnew
    · rw [hwork]
      rfl
    · rw [departures, hwork, Pool.departs_inert _ t.before.forceClose_inert]

/-- Every step lets waiters go from the front of the line, for one of the causes. -/
theorem exists_lets (t : PoolTurn) (hsorted : Pool.Sorted t.before.waiters)
    (hclears : t.before.Clears) : ∃ gone, t.Lets gone := by
  cases hi : t.input with
  | timer x => exact lets_timer hi hsorted
  | message m =>
    by_cases hc : t.before.closing = none
    · exact lets_message hi hc
    · exact lets_closing hi hc hclears

end PoolTurn

/-- What the line keeps between the steps. Whoever is in it has come in one of them. -/
structure InLine (config : ClientConfig) (ts : List PoolTurn) (p : Pool) : Prop where
  timeout : p.acquireTimeout = config.acquireTimeout
  sorted : Pool.Sorted p.waiters
  bounded : ∀ x ∈ p.waiters, ∃ t ∈ ts, x.deadline = Moment.after t.time config.acquireTimeout
  clears : p.Clears

variable {config : ClientConfig} {ts : List PoolTurn} {p : Pool} {t : PoolTurn}

theorem InLine.start (config : ClientConfig) : InLine config [] (Pool.start config).pool := by
  obtain ⟨htimeout, hnone⟩ := Pool.start_waiters config
  refine ⟨htimeout, ?_, ?_, fun _ => hnone⟩
  · rw [hnone]
    exact List.Pairwise.nil
  · simp [hnone]

theorem InLine.turn (h : InLine config ts t.before) (htime : ∀ u ∈ ts, u.time ≤ t.time) :
    InLine config (ts ++ [t]) t.work.pool := by
  have hqueues := t.work_queues
  have hnew : ∀ y ∈ t.arrivals, y.deadline = Moment.after t.time config.acquireTimeout := by
    intro y hy
    obtain ⟨n, -, rfl⟩ := List.mem_map.mp hy
    rw [← h.timeout]
  refine ⟨hqueues.timeout.trans h.timeout, ?_, ?_, ?_⟩
  · apply List.Pairwise.sublist hqueues.waiters
    refine List.pairwise_append.mpr ⟨h.sorted, ?_, ?_⟩
    · cases t.input.dispatch? with
      | none => exact List.Pairwise.nil
      | some n => exact List.pairwise_singleton _ _
    · intro x hx y hy
      obtain ⟨u, hu, he⟩ := h.bounded x hx
      rw [hnew y hy, he]
      exact Nat.add_le_add_right (htime u hu) _
  · intro x hx
    rcases List.mem_append.mp (hqueues.waiters.subset hx) with hx | hx
    · obtain ⟨u, hu, he⟩ := h.bounded x hx
      exact ⟨u, List.mem_append_left _ hu, he⟩
    · exact ⟨t, by simp, hnew x hx⟩
  · unfold PoolTurn.work
    split
    · exact Pool.onMessage_clears _ h.clears
    · exact Pool.onTimer_clears _ _ h.clears

theorem PoolRun.inLine (h : PoolRun config ts p) (ht : Chronological ts) : InLine config ts p := by
  induction h with
  | start => exact .start config
  | @turn ts p t _ hfollows ih =>
    obtain ⟨rfl, -⟩ := hfollows
    obtain ⟨hbefore, htime⟩ := chronological_snoc.mp ht
    exact (ih hbefore).turn htime

theorem PoolRun.exists_lets (h : PoolRun config ts p) (ht : Chronological ts) :
    ∃ gone : List (List (Waiter × Departure)), List.Forall₂ PoolTurn.Lets ts gone ∧
      ts.flatMap PoolTurn.departures = gone.flatten.map (fun x => x.2.action x.1.dispatch) ∧
      ts.flatMap PoolTurn.arrivals = gone.flatten.map Prod.fst ++ p.waiters := by
  induction h with
  | start => exact ⟨[], .nil, rfl, by simp [(Pool.start_waiters config).2]⟩
  | @turn ts p t hrun hfollows ih =>
    obtain ⟨rfl, -⟩ := hfollows
    obtain ⟨hbefore, htime⟩ := chronological_snoc.mp ht
    have hline := hrun.inLine hbefore
    obtain ⟨gone, hlets, hdepartures, harrivals⟩ := ih hbefore
    obtain ⟨last, hlast⟩ := t.exists_lets hline.sorted hline.clears
    refine ⟨gone ++ [last], ?_, ?_, ?_⟩
    · exact List.rel_append hlets (.cons hlast .nil)
    · simp [List.flatMap_append, hdepartures, hlast.departures]
    · rw [List.flatMap_append, harrivals, List.append_assoc, List.flatMap_singleton, hlast.line]
      simp

/-- Waiters leave in order and only for cause, whatever comes to the pool and whatever connections
refuse, as long as time does not go back. Those who leave in the steps of a run are, one after the
other, those who have come, and whoever is left stands in line in the order of the deadlines. A
timer fails exactly those whose deadline has come; all others go to a connection that takes them,
or with everybody when an attempt fails that was the last one or when the pool is closed. Deadlines
are moments of a clock without a last one. -/
theorem waiters_leave_in_order (config : ClientConfig) (ts : List PoolTurn) (p : Pool)
    (h : PoolRun config ts p) (ht : Chronological ts) :
    (∃ gone : List (List (Waiter × Departure)), List.Forall₂ PoolTurn.Lets ts gone ∧
      ts.flatMap PoolTurn.departures = gone.flatten.map (fun x => x.2.action x.1.dispatch) ∧
      ts.flatMap PoolTurn.arrivals = gone.flatten.map Prod.fst ++ p.waiters) ∧
    p.waiters.Pairwise (fun x y => x.deadline ≤ y.deadline) ∧
    ∀ now, p.expire now =
      { pool := { p with waiters := p.waiters.filter fun x => !Pool.isExpired now x }
        actions := Pool.fail .acquireTimeout
          ((p.waiters.filter (Pool.isExpired now)).map Waiter.dispatch) } := by
  have hsorted := (h.inLine ht).sorted
  exact ⟨h.exists_lets ht, hsorted, Pool.expire_of_sorted hsorted⟩

/-- Two notifications wait for the only connection, which takes one and refuses the other. -/
def pressed : Option (List PoolTurn × Pool) :=
  let waiter := fun n : Nat => Dispatch.mk n ⟨"00fc13ad", "com.example.app", "\x7b\x7d", none,
    .immediate, none, none, none⟩ false false false
  (Pool.start (.standard "gateway.example" .none)).pool.play (fun k _ => k == 0)
    [(0, .message (.established 1)), (0, .message (.writabilityChanged 1 false)),
      (0, .message (.submit (waiter 1))), (1000, .message (.submit (waiter 2))),
      (2000, .message (.writabilityChanged 1 true))]

theorem left_of_pressed : ∃ ts p gone, PoolRun (.standard "gateway.example" .none) ts p ∧
    Chronological ts ∧ List.Forall₂ PoolTurn.Lets ts gone ∧ gone.flatten.length = 1 ∧
    p.waiters.length = 1 ∧ (p.expire (Moment.after 1000 (.ofSeconds 10))).pool.waiters = [] := by
  have hd : pressed.any (fun x => decide (Chronological x.1) &&
      (x.1.flatMap PoolTurn.arrivals).length == 2 && x.2.waiters.length == 1 &&
      x.2.waiters.all (Pool.isExpired (Moment.after 1000 (.ofSeconds 10)))) = true := by
    decide +kernel
  obtain ⟨⟨ts, p⟩, hplay, hx⟩ := (Option.any_eq_true _ _).mp hd
  simp only [Bool.and_eq_true, decide_eq_true_eq, beq_iff_eq] at hx
  obtain ⟨⟨⟨htime, hcame⟩, hone⟩, hdue⟩ := hx
  have hrun : PoolRun (.standard "gateway.example" .none) ts p := PoolRun.start.of_play hplay
  obtain ⟨⟨gone, hlets, -, harrivals⟩, -, hexpire⟩ := waiters_leave_in_order _ ts p hrun htime
  refine ⟨ts, p, gone, hrun, htime, hlets, ?_, hone, ?_⟩
  · have hlength := congrArg List.length harrivals
    rw [hcame, List.length_append, List.length_map, hone] at hlength
    omega
  · rw [hexpire, List.filter_eq_nil_iff]
    simpa using List.all_eq_true.mp hdue

end PushDelivery
