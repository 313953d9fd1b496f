import PushDelivery.Proofs.Passage

namespace PushDelivery

/-- Whether an event is about connections and not about a notification. -/
def MetricEvent.isConnection : MetricEvent → Bool
  | connectionAdded | connectionRemoved | connectionCreationFailed => true
  | _ => false

namespace PoolAction

def report? : PoolAction → Option Report
  | report r => some r
  | _ => none

def handed? : PoolAction → Option Dispatch
  | handOff _ p => some p
  | _ => none

def attempted? : PoolAction → Option Nat
  | attempt id => some id
  | _ => none

/-- Whether an action is about no notification and starts nothing. -/
def isInert : PoolAction → Bool
  | count e => e.isConnection
  | abort _ | announce _ | answer _ => true
  | _ => false

theorem filterMap_inert {α : Type} {f : PoolAction → Option α} (as : List PoolAction)
    (ha : ∀ a ∈ as, a.isInert = true) (hf : ∀ a, a.isInert = true → f a = none) :
    as.filterMap f = [] :=
  List.filterMap_eq_nil_iff.mpr fun a hm => hf a (ha a hm)

theorem report_inert (a : PoolAction) (h : a.isInert = true) : a.report? = none := by
  cases a <;> first | rfl | cases h

theorem handed_inert (a : PoolAction) (h : a.isInert = true) : a.handed? = none := by
  cases a <;> first | rfl | cases h

theorem attempted_inert (a : PoolAction) (h : a.isInert = true) : a.attempted? = none := by
  cases a <;> first | rfl | cases h

end PoolAction

theorem find?_of_nodup {α : Type} {f : α → Nat} {as : List α} (h : (as.map f).Nodup) {a : α}
    (ha : a ∈ as) : as.find? (fun b => f b == f a) = some a := by
  obtain ⟨before, after, rfl⟩ := List.mem_iff_append.mp ha
  rw [List.map_append, List.map_cons, List.nodup_append] at h
  rw [List.find?_eq_some_iff_append]
  refine ⟨by simp, before, after, rfl, ?_⟩
  intro b hb
  have hne := h.2.2 (f b) (List.mem_map.mpr ⟨b, hb, rfl⟩) (f a) List.mem_cons_self
  simpa using hne

namespace Pool

variable {accepts : Acceptance} {time : Moment}

theorem scan_frame (places : Nat) (p : Pool) :
    ∃ cursor, (p.scan places).2 = { p with cursor := cursor } := by
  induction places generalizing p with
  | zero => exact ⟨p.cursor, rfl⟩
  | succ places ih =>
    unfold scan
    split
    · exact ⟨p.cursor, rfl⟩
    · dsimp only
      split
      · exact ⟨_, rfl⟩
      · obtain ⟨cursor, h⟩ := ih { p with cursor := (p.cursor + 1) % p.rotation.length }
        exact ⟨cursor, h⟩

/-- Numbers and phases of connections: all but which of them count as writable. -/
def outline (cs : List PooledConnection) : List (Nat × PooledPhase) :=
  cs.map fun c => (c.id, c.phase)

@[simp] theorem outline_setWritable (id : Nat) (writable : Bool) (p : Pool) :
    outline (p.setWritable id writable).connections = outline p.connections := by
  unfold outline setWritable update
  rw [List.map_map]
  apply List.map_congr_left
  intro c _
  by_cases hc : c.id = id
  · simp [hc]
  · simp [hc]

def connectionIds (p : Pool) : List Nat :=
  p.connections.map PooledConnection.id

theorem connectionIds_of_outline {p q : Pool}
    (h : outline q.connections = outline p.connections) : q.connectionIds = p.connectionIds := by
  simpa [outline, connectionIds, Function.comp_def] using congrArg (List.map Prod.fst) h

theorem connectionIds_update (id : Nat) {f : PooledConnection → PooledConnection}
    (hf : ∀ c, (f c).id = c.id) (p : Pool) : (p.update id f).connectionIds = p.connectionIds := by
  unfold connectionIds update
  rw [List.map_map]
  apply List.map_congr_left
  intro c _
  by_cases hc : c.id = id
  · simp [hc, hf]
  · simp [hc]

/-- An offer changes only which connections count as writable, and whose turn it is. -/
theorem offerWithin_spec (accepts : Acceptance) (n : Dispatch) (fuel : Nat) (w : Work) :
    ∃ connections cursor, outline connections = outline w.pool.connections ∧
      (offerWithin accepts n fuel w).2.pool =
        { w.pool with connections := connections, cursor := cursor } ∧
      (((offerWithin accepts n fuel w).1 = false ∧
          (offerWithin accepts n fuel w).2.actions = w.actions) ∨
        ((offerWithin accepts n fuel w).1 = true ∧ ∃ k id, accepts k id = true ∧
          (offerWithin accepts n fuel w).2.actions = w.actions ++ [.handOff id n])) := by
  induction fuel generalizing w with
  | zero => exact ⟨w.pool.connections, w.pool.cursor, rfl, rfl, .inl ⟨rfl, rfl⟩⟩
  | succ fuel ih =>
    obtain ⟨cursor, hq⟩ := scan_frame w.pool.rotation.length w.pool
    unfold offerWithin nextWritable
    split
    · rename_i q he
      rw [he] at hq
      exact ⟨w.pool.connections, cursor, rfl, hq, .inl ⟨rfl, rfl⟩⟩
    · rename_i id q he
      rw [he] at hq
      dsimp only at hq ⊢
      subst hq
      split
      · rename_i ha
        exact ⟨w.pool.connections, cursor, rfl, rfl, .inr ⟨rfl, w.tries, id, ha, rfl⟩⟩
      · obtain ⟨cs, cursor', hcs, hp, ho⟩ := ih (Work.setPool { w with tries := w.tries + 1 }
          ({ w.pool with cursor := cursor }.setWritable id false))
        exact ⟨cs, cursor', hcs.trans (outline_setWritable id false _), hp, ho⟩

/-- What comes of handing over waiters: some at the front are taken, the rest stays in order. -/
def HandsOver (accepts : Acceptance) (xs : List Waiter) (w v : Work) : Prop :=
  ∃ (hands : List (Nat × Dispatch)) (given rest : List Waiter)
    (connections : List PooledConnection) (cursor : Nat),
    xs = given ++ rest ∧ hands.map Prod.snd = given.map Waiter.dispatch ∧
    (∀ x ∈ hands, ∃ k, accepts k x.1 = true) ∧
    outline connections = outline w.pool.connections ∧
    v.pool = { w.pool with waiters := rest, connections := connections, cursor := cursor } ∧
    v.actions = w.actions ++ hands.map fun x => .handOff x.1 x.2

theorem flushWithin_handsOver (xs : List Waiter) (w : Work) :
    HandsOver accepts xs w (flushWithin accepts xs w) := by
  induction xs generalizing w with
  | nil =>
    exact ⟨[], [], [], w.pool.connections, w.pool.cursor, rfl, rfl, by simp, rfl, rfl, by
      simp [flushWithin, Work.setPool]⟩
  | cons x xs ih =>
    obtain ⟨cs, cursor, hcs, hp, ho⟩ :=
      offerWithin_spec accepts x.dispatch (w.pool.connections.length + 1) w
    unfold flushWithin offer
    rcases ho with ⟨hf, ha⟩ | ⟨ht, k, id, hk, ha⟩
    · -- The first that is not taken keeps its turn, and with it all behind it.
      split
      · rename_i he
        simp [he] at hf
      · rename_i v he
        rw [he] at hp ha
        dsimp only at hp ha
        exact ⟨[], [], x :: xs, cs, cursor, rfl, rfl, by simp, hcs, by
          simp [Work.setPool, hp], by simp [Work.setPool, ha]⟩
    · split
      · rename_i v he
        rw [he] at hp ha
        dsimp only at hp ha
        obtain ⟨hands, given, rest, cs', cursor', hx, hg, hacc, hcs', hv, hact⟩ := ih v
        refine ⟨(id, x.dispatch) :: hands, x :: given, rest, cs', cursor', ?_, ?_, ?_, ?_, ?_, ?_⟩
        · rw [hx, List.cons_append]
        · rw [List.map_cons, List.map_cons, hg]
        · intro y hy
          rcases List.mem_cons.mp hy with rfl | hy
          · exact ⟨k, hk⟩
          · exact hacc y hy
        · rw [hcs', hp, hcs]
        · rw [hv, hp]
        · rw [hact, ha, List.append_assoc]
          rfl
      · rename_i he
        simp [he] at ht

theorem flush_handsOver (accepts : Acceptance) (w : Work) :
    HandsOver accepts w.pool.waiters w (flush accepts w) :=
  flushWithin_handsOver w.pool.waiters w

theorem route_of_closing (accepts : Acceptance) (time : Moment) (n : Dispatch) {p : Pool}
    (hc : p.closing ≠ none) :
    route accepts time n p = { pool := p, actions := fail .clientClosed [n] } := by
  unfold route
  rw [if_pos (Option.isSome_iff_ne_none.mpr hc)]

theorem route_handsOver (accepts : Acceptance) (time : Moment) (n : Dispatch) (p : Pool)
    (hc : p.closing = none) :
    HandsOver accepts (p.waiters ++ [⟨n, Moment.after time p.acquireTimeout⟩]) { pool := p }
      (route accepts time n p) := by
  obtain ⟨cs, cursor, hcs, hp, ho⟩ := offerWithin_spec accepts n
    (p.connections.length + 1) { pool := p }
  unfold route
  rw [if_neg (by simp [hc])]
  dsimp only
  split
  · rename_i he
    have hw : p.waiters = [] := List.isEmpty_iff.mp he
    unfold offer
    rcases ho with ⟨hf, ha⟩ | ⟨ht, k, id, hk, ha⟩
    · split
      · rename_i he
        simp [he] at hf
      · rename_i v he
        rw [he] at hp ha
        dsimp only at hp ha
        obtain ⟨hands, given, rest, cs', cursor', hx, hg, hacc, hcs', hv, hact⟩ :=
          flush_handsOver accepts (v.setPool
            { v.pool with waiters := v.pool.waiters ++ [⟨n, Moment.after time p.acquireTimeout⟩] })
        refine ⟨hands, given, rest, cs', cursor', ?_, hg, hacc, ?_, ?_, ?_⟩
        · rw [← hx]
          simp [Work.setPool, hp]
        · rw [hcs']
          simp [Work.setPool, hp, hcs]
        · rw [hv]
          simp [Work.setPool, hp]
        · rw [hact]
          simp [Work.setPool, ha]
    · split
      · rename_i v he
        rw [he] at hp ha
        dsimp only at hp ha
        refine ⟨[(id, n)], [⟨n, Moment.after time p.acquireTimeout⟩], [], cs, cursor, ?_, rfl, ?_,
          hcs, ?_, ?_⟩
        · rw [hw, List.append_nil, List.nil_append]
        · intro x hx
          obtain rfl := List.mem_singleton.mp hx
          exact ⟨k, hk⟩
        · rw [hp, hw]
        · rw [ha]
          rfl
      · rename_i he
        simp [he] at ht
  · exact flush_handsOver accepts (Work.setPool { pool := p }
      { p with waiters := p.waiters ++ [⟨n, Moment.after time p.acquireTimeout⟩] })

def waiting (p : Pool) : List Dispatch :=
  p.waiters.map Waiter.dispatch

namespace Work

def handed (w : Work) : List Dispatch :=
  w.actions.filterMap PoolAction.handed?

/-- The work has dealt with these notifications: they wait, are handed over, or fail. -/
def Accounts (w : Work) (A : Multiset Holding) : Prop :=
  ∃ F : List (Dispatch × SendError), (∀ x ∈ F, x.2 ≠ .notProcessed) ∧
    w.actions.filterMap PoolAction.report? = F.map (fun x => x.1.fail x.2) ∧
    A = unwritten w.pool.waiting + unwritten w.handed + unwritten (F.map Prod.fst)

/-- What the rest of the client relies on in a step of the pool. -/
structure Sound (accepts : Acceptance) (p : Pool) (w : Work) : Prop where
  accepted : ∀ id n, .handOff id n ∈ w.actions → ∃ k, accepts k id = true
  /-- Nothing is stopped in a step that hands something over. -/
  apart : w.handed = [] ∨ ∀ id, .abort id ∉ w.actions
  attempts : ∃ k, w.actions.filterMap PoolAction.attempted? = List.range' p.ids.next k ∧
    w.pool.ids.next = p.ids.next + k
  counts : ∀ e, .count e ∈ w.actions → e.isConnection = true
  ended : w.pool.ended = p.ended

end Work

theorem handed_of_hands (hands : List (Nat × Dispatch)) :
    (hands.map fun x => PoolAction.handOff x.1 x.2).filterMap PoolAction.handed? =
      hands.map Prod.snd := by
  simp [PoolAction.handed?, List.filterMap_map, Function.comp_def]

theorem reports_of_hands (hands : List (Nat × Dispatch)) :
    (hands.map fun x => PoolAction.handOff x.1 x.2).filterMap PoolAction.report? = [] := by
  simp [PoolAction.report?, List.filterMap_map, Function.comp_def]

theorem attempted_of_hands (hands : List (Nat × Dispatch)) :
    (hands.map fun x => PoolAction.handOff x.1 x.2).filterMap PoolAction.attempted? = [] := by
  simp [PoolAction.attempted?, List.filterMap_map, Function.comp_def]

theorem HandsOver.accounts {xs : List Waiter} {w v : Work} (h : HandsOver accepts xs w v)
    (hw : w.handed = []) (hr : w.actions.filterMap PoolAction.report? = []) :
    v.Accounts (unwritten (xs.map Waiter.dispatch)) := by
  obtain ⟨hands, given, rest, cs, cursor, hx, hg, -, -, hp, ha⟩ := h
  refine ⟨[], by simp, ?_, ?_⟩
  · rw [ha, List.filterMap_append, hr, reports_of_hands]
    rfl
  · have hh : v.handed = given.map Waiter.dispatch := by
      rw [← hg, ← handed_of_hands, Work.handed, ha, List.filterMap_append]
      rw [Work.handed] at hw
      rw [hw, List.nil_append]
    rw [hx, hh, hp, List.map_append, unwritten_append]
    simp [waiting, add_comm]

theorem HandsOver.sound {xs : List Waiter} {p : Pool} {w v : Work} (h : HandsOver accepts xs w v)
    (hs : w.Sound accepts p) (ha : ∀ id, .abort id ∉ w.actions) : v.Sound accepts p := by
  obtain ⟨hands, given, rest, cs, cursor, -, -, hacc, -, hp, hv⟩ := h
  refine ⟨?_, .inr ?_, ?_, ?_, ?_⟩
  · intro id n hm
    rw [hv] at hm
    rcases List.mem_append.mp hm with hm | hm
    · exact hs.accepted id n hm
    · obtain ⟨x, hx, he⟩ := List.mem_map.mp hm
      obtain ⟨rfl, -⟩ : x.1 = id ∧ x.2 = n := by simpa using he
      exact hacc x hx
  · intro id hm
    rw [hv] at hm
    rcases List.mem_append.mp hm with hm | hm
    · exact ha id hm
    · obtain ⟨x, -, he⟩ := List.mem_map.mp hm
      cases he
  · obtain ⟨k, hk, hn⟩ := hs.attempts
    refine ⟨k, ?_, ?_⟩
    · rw [hv, List.filterMap_append, hk, attempted_of_hands, List.append_nil]
    · rw [hp, ← hn]
  · intro e hm
    rw [hv] at hm
    rcases List.mem_append.mp hm with hm | hm
    · exact hs.counts e hm
    · obtain ⟨x, -, he⟩ := List.mem_map.mp hm
      cases he
  · rw [hp]
    exact hs.ended

theorem report_fail (e : SendError) (ps : List Dispatch) :
    (fail e ps).filterMap PoolAction.report? =
      (ps.map fun p => (p, e)).map fun x => x.1.fail x.2 := by
  simp [fail, PoolAction.report?, List.filterMap_map, Function.comp_def]

theorem handed_fail (e : SendError) (ps : List Dispatch) :
    (fail e ps).filterMap PoolAction.handed? = [] := by
  simp [fail, PoolAction.handed?, List.filterMap_map, Function.comp_def]

theorem attempted_fail (e : SendError) (ps : List Dispatch) :
    (fail e ps).filterMap PoolAction.attempted? = [] := by
  simp [fail, PoolAction.attempted?, List.filterMap_map, Function.comp_def]

theorem work_of_inert {p : Pool} {w : Work} (ha : ∀ a ∈ w.actions, a.isInert = true)
    (hw : w.pool.waiting = p.waiting) (hi : w.pool.ids = p.ids)
    (hend : w.pool.ended = p.ended) :
    w.Accounts (unwritten p.waiting) ∧ w.Sound accepts p := by
  have hh : w.handed = [] := PoolAction.filterMap_inert _ ha PoolAction.handed_inert
  refine ⟨⟨[], by simp, ?_, ?_⟩, ?_, .inl hh, ⟨0, ?_, ?_⟩, fun x hm => ha _ hm, hend⟩
  · exact PoolAction.filterMap_inert _ ha PoolAction.report_inert
  · simp [hh, hw]
  · intro id n hm
    cases ha _ hm
  · exact PoolAction.filterMap_inert _ ha PoolAction.attempted_inert
  · rw [hi]
    rfl

theorem Work.then_fail {p q : Pool} {v w : Work} {A B : Multiset Holding} (post : List PoolAction)
    (e : SendError) (ps : List Dispatch) (he : e ≠ .notProcessed)
    (hw : w.Accounts A ∧ w.Sound accepts p) (ha : v.actions = w.actions ++ (fail e ps ++ post))
    (hpost : ∀ a ∈ post, a.isInert = true) (hstop : w.handed = [] ∨ ∀ id, .abort id ∉ post)
    (hA : unwritten ps + unwritten v.pool.waiting + A = B + unwritten w.pool.waiting)
    (hv : v.pool.ids = w.pool.ids) (hp : q.ids = p.ids) (hend : v.pool.ended = q.ended) :
    v.Accounts B ∧ v.Sound accepts q := by
  obtain ⟨⟨F, hF, hr, rfl⟩, hs⟩ := hw
  have hlate : ∀ a ∈ v.actions, a ∈ w.actions ∨ (∃ r, a = .report r) ∨ a ∈ post := by
    intro a hm
    rw [ha] at hm
    rcases List.mem_append.mp hm with hm | hm
    · exact .inl hm
    · rcases List.mem_append.mp hm with hm | hm
      · obtain ⟨p, -, rfl⟩ := List.mem_map.mp hm
        exact .inr (.inl ⟨_, rfl⟩)
      · exact .inr (.inr hm)
  have hh : v.handed = w.handed := by
    rw [Work.handed, ha, List.filterMap_append, List.filterMap_append, handed_fail,
      PoolAction.filterMap_inert post hpost PoolAction.handed_inert]
    exact List.append_nil _
  refine ⟨⟨F ++ ps.map fun p => (p, e), ?_, ?_, ?_⟩, ?_, ?_, ?_, ?_, hend⟩
  · intro x hx
    rcases List.mem_append.mp hx with hx | hx
    · exact hF x hx
    · obtain ⟨p, -, rfl⟩ := List.mem_map.mp hx
      exact he
  · rw [ha, List.filterMap_append, List.filterMap_append, hr, report_fail,
      PoolAction.filterMap_inert post hpost PoolAction.report_inert, List.append_nil]
    exact List.map_append.symm
  · -- What waited before stands on both sides: it waits still or is among those that fail.
    have hsum : B + unwritten w.pool.waiting = unwritten v.pool.waiting + unwritten w.handed +
        (unwritten (F.map Prod.fst) + unwritten ps) + unwritten w.pool.waiting := by
      rw [← hA]
      abel
    rw [hh, List.map_append, List.map_map, unwritten_append]
    simpa [Function.comp_def] using add_right_cancel hsum
  · intro id n hm
    rcases hlate _ hm with hm | ⟨r, hr⟩ | hm
    · exact hs.accepted id n hm
    · cases hr
    · cases hpost _ hm
  · rw [hh]
    rcases hs.apart with hno | hab
    · exact .inl hno
    · refine hstop.imp_right fun hstop id hm => ?_
      rcases hlate _ hm with hm | ⟨r, hr⟩ | hm
      · exact hab id hm
      · cases hr
      · exact hstop id hm
  · obtain ⟨k, hk, hn⟩ := hs.attempts
    refine ⟨k, ?_, by rw [hv, hp, hn]⟩
    rw [ha, List.filterMap_append, List.filterMap_append, hk, hp, attempted_fail,
      PoolAction.filterMap_inert post hpost PoolAction.attempted_inert]
    exact List.append_nil _
  · intro x hm
    rcases hlate _ hm with hm | ⟨r, hr⟩ | hm
    · exact hs.counts x hm
    · cases hr
    · exact hpost _ hm

theorem work_of_fail {p : Pool} {w : Work} {A : Multiset Holding} (pre post : List PoolAction)
    (e : SendError) (ps : List Dispatch) (he : e ≠ .notProcessed)
    (ha : w.actions = pre ++ (fail e ps ++ post))
    (hpre : ∀ a ∈ pre, a.isInert = true) (hpost : ∀ a ∈ post, a.isInert = true)
    (hA : unwritten ps + unwritten w.pool.waiting = A)
    (hi : w.pool.ids = p.ids) (hend : w.pool.ended = p.ended) :
    w.Accounts A ∧ w.Sound accepts p := by
  let b : Work := { w with actions := pre }
  let q : Pool := { p with waiters := w.pool.waiters }
  have hb : b.Accounts (unwritten q.waiting) ∧ b.Sound accepts q :=
    work_of_inert hpre rfl hi hend
  have hh : b.handed = [] := PoolAction.filterMap_inert pre hpre PoolAction.handed_inert
  exact Work.then_fail post e ps he hb ha hpost (.inl hh) (by rw [hA]; rfl) rfl rfl hend

theorem route_work (n : Dispatch) (p : Pool) :
    (route accepts time n p).Accounts (unwritten (n :: p.waiting)) ∧
      (route accepts time n p).Sound accepts p := by
  cases hc : p.closing with
  | some c =>
    rw [route_of_closing accepts time n (by simp [hc])]
    exact work_of_fail [] [] .clientClosed [n] (by simp) rfl (by simp) (by simp) (by
      simp [Multiset.singleton_add, unwritten]) rfl rfl
  | none =>
    have h := route_handsOver accepts time n p hc
    have hw : ({ pool := p } : Work).Accounts (unwritten p.waiting) ∧
        ({ pool := p } : Work).Sound accepts p := work_of_inert (by simp) rfl rfl rfl
    refine ⟨?_, h.sound hw.2 (by simp)⟩
    have ha := h.accounts rfl rfl
    rwa [List.map_append, unwritten_append, add_comm, ← unwritten_append] at ha

theorem onEstablished_work (id : Nat) (p : Pool) :
    (p.onEstablished accepts id).Accounts (unwritten p.waiting) ∧
      (p.onEstablished accepts id).Sound accepts p := by
  unfold onEstablished
  dsimp only
  split
  · exact work_of_inert (by simp) rfl rfl rfl
  · let w : Work := {
      pool := { p with
        connecting := p.connecting.filter (· != id)
        backoff := p.backoff.reset
        connections := p.connections.filter (fun c => c.id != id) ++ [{ id := id }]
        rotation := p.rotation ++ [id] }
      actions := [.count .connectionAdded] }
    have hw : w.Accounts (unwritten p.waiting) ∧ w.Sound accepts p :=
      work_of_inert (by simp [w, PoolAction.isInert, MetricEvent.isConnection]) rfl rfl rfl
    have h := flush_handsOver accepts w
    exact ⟨h.accounts rfl rfl, h.sound hw.2 (by simp [w])⟩

/-- Planning to connect changes nothing but the plan. -/
theorem scheduleReconnect_frame (time : Moment) (delay : Duration) (p : Pool) :
    ∃ planned, p.scheduleReconnect time delay = { p with reconnectAt := planned } := by
  unfold scheduleReconnect
  split
  · exact ⟨p.reconnectAt, rfl⟩
  · exact ⟨_, rfl⟩

@[simp] theorem scheduleReconnect_waiting (delay : Duration) (p : Pool) :
    (p.scheduleReconnect time delay).waiting = p.waiting := by
  obtain ⟨planned, h⟩ := scheduleReconnect_frame time delay p
  rw [h]
  rfl

@[simp] theorem scheduleReconnect_ids (delay : Duration) (p : Pool) :
    (p.scheduleReconnect time delay).ids = p.ids := by
  obtain ⟨planned, h⟩ := scheduleReconnect_frame time delay p
  rw [h]

@[simp] theorem scheduleReconnect_ended (delay : Duration) (p : Pool) :
    (p.scheduleReconnect time delay).ended = p.ended := by
  obtain ⟨planned, h⟩ := scheduleReconnect_frame time delay p
  rw [h]

theorem onAttemptFailed_work (id : Nat) (cause : String) (p : Pool) :
    (p.onAttemptFailed time id cause).Accounts (unwritten p.waiting) ∧
      (p.onAttemptFailed time id cause).Sound accepts p := by
  unfold onAttemptFailed
  dsimp only
  split
  · exact work_of_inert (by simp [PoolAction.isInert, MetricEvent.isConnection]) rfl rfl rfl
  · split
    · refine work_of_fail [.count .connectionCreationFailed] [] (.connectionFailed cause)
        p.waiting (by simp) ?_ (by simp [PoolAction.isInert, MetricEvent.isConnection]) (by simp)
        ?_ ?_ ?_
      · simp [Work.act, Work.setPool, waiting]
      · simp [Work.setPool]
        rfl
      all_goals simp [Work.setPool]
    · refine work_of_inert (by
        simp [Work.setPool, PoolAction.isInert, MetricEvent.isConnection]) ?_ ?_ ?_
      · simp [Work.setPool]
        rfl
      all_goals simp [Work.setPool]

theorem onDraining_work (id : Nat) (p : Pool) :
    ({ pool := p.onDraining time id } : Work).Accounts (unwritten p.waiting) ∧
      ({ pool := p.onDraining time id } : Work).Sound accepts p := by
  unfold onDraining
  refine work_of_inert (by simp) ?_ ?_ ?_
  · simp [update]
    rfl
  all_goals simp [update]

theorem onClosed_work (id : Nat) (p : Pool) :
    (p.onClosed time id).Accounts (unwritten p.waiting) ∧
      (p.onClosed time id).Sound accepts p := by
  unfold onClosed
  refine work_of_inert ?_ ?_ ?_ ?_
  · intro a ha
    dsimp only at ha
    split at ha
    · obtain rfl := List.mem_singleton.mp ha
      rfl
    · simp at ha
  · simp
    rfl
  all_goals simp

theorem onShutdown_work (caller : Option Nat) (p : Pool) :
    (p.onShutdown time caller).Accounts (unwritten p.waiting) ∧
      (p.onShutdown time caller).Sound accepts p := by
  unfold onShutdown
  split
  · exact work_of_inert (by simp) rfl rfl rfl
  · refine work_of_fail []
      (p.connecting.map .abort ++ [.announce (Moment.after time p.gracePeriod)])
      .clientClosed p.waiting (by simp) ?_ (by simp) ?_ (add_zero _) rfl rfl
    · simp [waiting]
    · intro a ha
      rcases List.mem_append.mp ha with ha | ha
      · obtain ⟨id, -, rfl⟩ := List.mem_map.mp ha
        rfl
      · obtain rfl := List.mem_singleton.mp ha
        rfl

/-- Every message is dealt with: what it carries and what waits is handed over, waits or fails. -/
theorem onMessage_work (p : Pool) (m : PoolMessage) :
    (p.onMessage accepts time m).Accounts (unwritten (m.dispatch?.toList ++ p.waiting)) ∧
      (p.onMessage accepts time m).Sound accepts p := by
  cases m with
  | submit n | resubmit n => exact route_work n p
  | established id => exact onEstablished_work id p
  | attemptFailed id cause => exact onAttemptFailed_work id cause p
  | draining id => exact onDraining_work id p
  | closed id => exact onClosed_work id p
  | shutdown caller => exact onShutdown_work caller p
  | writabilityChanged id writable =>
    let w : Work := { pool := p.setWritable id writable }
    have hw : w.Accounts (unwritten p.waiting) ∧ w.Sound accepts p :=
      work_of_inert (by simp [w]) rfl rfl rfl
    cases writable with
    | false => exact hw
    | true =>
      have h := flush_handsOver accepts w
      exact ⟨h.accounts rfl rfl, h.sound hw.2 (by simp [w])⟩

theorem fillWithin_spec (k : Nat) (w : Work) :
    (fillWithin k w).pool = { w.pool with
      ids := ⟨w.pool.ids.next + k⟩
      connecting := w.pool.connecting ++ List.range' w.pool.ids.next k
      tasks := w.pool.tasks ++ List.range' w.pool.ids.next k } ∧
    (fillWithin k w).actions = w.actions ++ (List.range' w.pool.ids.next k).map .attempt := by
  induction k generalizing w with
  | zero => simp [fillWithin]
  | succ k ih =>
    obtain ⟨hp, ha⟩ := ih (startAttempt w)
    constructor
    · unfold fillWithin
      rw [hp, List.range'_succ]
      simp only [startAttempt, IdSupply.take, Work.act, Work.setPool, Nat.add_assoc,
        Nat.add_comm 1 k, List.append_assoc, List.singleton_append]
    · unfold fillWithin
      rw [ha, List.range'_succ]
      simp only [startAttempt, IdSupply.take, Work.act, Work.setPool, List.append_assoc,
        List.map_cons, List.singleton_append]

theorem fill_spec (w : Work) : ∃ k,
    (fill w).pool = { w.pool with
      ids := ⟨w.pool.ids.next + k⟩
      connecting := w.pool.connecting ++ List.range' w.pool.ids.next k
      tasks := w.pool.tasks ++ List.range' w.pool.ids.next k } ∧
    (fill w).actions = w.actions ++ (List.range' w.pool.ids.next k).map .attempt := by
  unfold fill
  split
  · exact ⟨0, by simp⟩
  · exact ⟨_, fillWithin_spec _ w⟩

theorem fill_work (p : Pool) (w : Work) (ha : w.actions = []) (hw : w.pool.waiting = p.waiting)
    (hi : w.pool.ids = p.ids) (he : w.pool.ended = p.ended) :
    (fill w).Accounts (unwritten p.waiting) ∧ (fill w).Sound accepts p := by
  obtain ⟨k, hp, has⟩ := fill_spec w
  rw [ha, List.nil_append] at has
  have hh : (fill w).handed = [] := by
    simp [Work.handed, has, PoolAction.handed?, List.filterMap_map, Function.comp_def]
  refine ⟨⟨[], by simp, ?_, ?_⟩, ?_, .inl hh, ⟨k, ?_, ?_⟩, ?_, ?_⟩
  · simp [has, PoolAction.report?, List.filterMap_map, Function.comp_def]
  · rw [hh, hp, ← hw]
    simp [waiting]
  · intro id n hm
    rw [has] at hm
    obtain ⟨j, -, hj⟩ := List.mem_map.mp hm
    cases hj
  · rw [has, List.filterMap_map, ← hi]
    exact List.filterMap_some
  · rw [hp, hi]
  · intro e hm
    rw [has] at hm
    obtain ⟨j, -, hj⟩ := List.mem_map.mp hm
    cases hj
  · rw [hp, ← he]

theorem expire_work (p : Pool) :
    (p.expire time).Accounts (unwritten p.waiting) ∧ (p.expire time).Sound accepts p := by
  refine work_of_fail [] [] .acquireTimeout
    ((p.waiters.takeWhile (isExpired time)).map Waiter.dispatch) (by simp)
    (List.append_nil _).symm (by simp) (by simp) ?_ rfl rfl
  change _ + unwritten ((p.waiters.dropWhile (isExpired time)).map Waiter.dispatch) = _
  rw [← unwritten_append, ← List.map_append, List.takeWhile_append_dropWhile]
  rfl

theorem forceClose_inert (p : Pool) : ∀ a ∈ p.forceClose.actions, a.isInert = true := by
  intro a ha
  rcases List.mem_append.mp ha with ha | ha
  · obtain ⟨id, -, rfl⟩ := List.mem_map.mp ha
    rfl
  · obtain ⟨c, -, rfl⟩ := List.mem_map.mp ha
    rfl

theorem forceClose_work (p : Pool) :
    p.forceClose.Accounts (unwritten p.waiting) ∧ p.forceClose.Sound accepts p :=
  work_of_inert p.forceClose_inert rfl rfl rfl

theorem onTimer_work (p : Pool) (t : PoolTimer) :
    (p.onTimer time t).Accounts (unwritten p.waiting) ∧ (p.onTimer time t).Sound accepts p := by
  cases t with
  | reconnect => exact fill_work p _ rfl rfl rfl rfl
  | expire => exact expire_work p
  | force => exact forceClose_work p

theorem discard_eq (queued : List PoolMessage) :
    queued.flatMap discard = fail .clientClosed (queued.filterMap PoolMessage.dispatch?) := by
  induction queued with
  | nil => rfl
  | cons m queued ih =>
    rw [List.flatMap_cons, ih]
    cases m <;> rfl

/-- At the end whatever is queued or waits fails. -/
theorem finish_work {p : Pool} {w : Work} {A : Multiset Holding} (queued : List PoolMessage)
    (hw : w.Accounts A ∧ w.Sound accepts p) :
    (finish queued w).Accounts (unwritten (queued.filterMap PoolMessage.dispatch?) + A) ∧
      (finish queued w).Sound accepts { p with ended := true } := by
  let callers : List PoolAction :=
    ((w.pool.closing.map Closing.callers).getD []).map PoolAction.answer
  have hi : ∀ a ∈ callers, a.isInert = true := by
    intro a ha
    obtain ⟨c, -, rfl⟩ := List.mem_map.mp ha
    rfl
  have ha : (finish queued w).actions = w.actions ++ (fail .clientClosed
      (queued.filterMap PoolMessage.dispatch? ++ w.pool.waiting) ++ callers) := by
    simp [finish, Work.act, Work.setPool, discard_eq, callers, fail, waiting]
  have hstop : ∀ id, .abort id ∉ callers := by
    intro id hm
    obtain ⟨c, -, hc⟩ := List.mem_map.mp hm
    cases hc
  refine Work.then_fail callers .clientClosed _ (by simp) hw ha hi (.inr hstop) ?_ rfl rfl rfl
  have hnone : (finish queued w).pool.waiting = [] := rfl
  rw [hnone, unwritten_append, unwritten_nil]
  abel

end Pool

end PushDelivery
