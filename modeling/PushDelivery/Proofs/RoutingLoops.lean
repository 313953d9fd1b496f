import PushDelivery.Proofs.WorkConservation

namespace PushDelivery.Pool

variable {accepts : Acceptance} {time : Moment} {n : Dispatch} {p : Pool} {w : Work}
  {largest : Nat}

/-- What would stop a search halfway. -/
inductive ScanError where
  | divisionByZero
  | outOfRange
  | overflow
deriving DecidableEq, Repr

def checkedMod (a b : Nat) : Except ScanError Nat :=
  if b = 0 then .error .divisionByZero else .ok (a % b)

def checkedSucc (largest a : Nat) : Except ScanError Nat :=
  if a < largest then .ok (a + 1) else .error .overflow

def checkedGet (ids : List Nat) (i : Nat) : Except ScanError Nat :=
  (ids[i]?).elim (.error .outOfRange) .ok

/-- The search on a machine, which has a largest number and fails where an operation does. -/
def checkedScan (largest : Nat) : (places : Nat) → Pool → Except ScanError (Option Nat × Pool)
  | 0, p => .ok (none, p)
  | places + 1, p => do
    let i ← checkedMod p.cursor p.rotation.length
    let id ← checkedGet p.rotation i
    let next ← checkedSucc largest p.cursor
    let cursor ← checkedMod next p.rotation.length
    let q := { p with cursor := cursor }
    if p.takesWork id then return (some id, q) else checkedScan largest places q

def checkedNextWritable (largest : Nat) (p : Pool) : Except ScanError (Option Nat × Pool) :=
  checkedScan largest p.rotation.length p

structure InRange (largest : Nat) (p : Pool) : Prop where
  cursor : p.cursor < largest
  rotation : p.rotation.length ≤ largest

theorem InRange.advance (h : p.InRange largest) (hne : 0 < p.rotation.length) :
    { p with cursor := (p.cursor + 1) % p.rotation.length }.InRange largest :=
  ⟨Nat.lt_of_lt_of_le (Nat.mod_lt _ hne) h.rotation, h.rotation⟩

theorem checkedMod_of_pos {a b : Nat} (h : 0 < b) : checkedMod a b = .ok (a % b) :=
  if_neg (Nat.ne_of_gt h)

theorem exists_checkedGet {ids : List Nat} (h : 0 < ids.length) (cursor : Nat) :
    ∃ id, ids[cursor % ids.length]? = some id ∧
      checkedGet ids (cursor % ids.length) = .ok id := by
  have hplace := List.getElem?_eq_getElem (Nat.mod_lt cursor h)
  refine ⟨_, hplace, ?_⟩
  rw [checkedGet, hplace]
  rfl

/-- On a machine the search finds what it should, without any failure. -/
theorem InRange.checkedScan_eq {places : Nat} (h : p.InRange largest)
    (hplaces : places ≤ p.rotation.length) :
    checkedScan largest places p = .ok (p.scan places) := by
  induction places generalizing p with
  | zero => rfl
  | succ places ih =>
    have hne : 0 < p.rotation.length := Nat.zero_lt_of_lt hplaces
    have hsucc : checkedSucc largest p.cursor = .ok (p.cursor + 1) := if_pos h.cursor
    obtain ⟨id, hplace, hget⟩ := exists_checkedGet hne p.cursor
    have hrest := ih (h.advance hne) (Nat.le_of_succ_le hplaces)
    simp only [checkedScan, scan, checkedMod_of_pos hne, hsucc, hget, hplace, bind, Except.bind,
      pure, Except.pure, hrest]
    split
    · rfl
    · rfl

theorem InRange.checkedNextWritable_eq (h : p.InRange largest) :
    checkedNextWritable largest p = .ok p.nextWritable :=
  h.checkedScan_eq le_rfl

theorem checkedNextWritable_of_largest (h : 0 < p.rotation.length) :
    checkedNextWritable p.cursor p = .error .overflow := by
  have hsucc : checkedSucc p.cursor p.cursor = .error .overflow := if_neg (Nat.lt_irrefl _)
  obtain ⟨id, -, hget⟩ := exists_checkedGet h p.cursor
  obtain ⟨places, hplaces⟩ := Nat.exists_eq_add_one.mpr h
  rw [checkedNextWritable, hplaces]
  simp only [checkedScan, checkedMod_of_pos h, hget, hsucc, bind, Except.bind]

theorem InRange.scan {places : Nat} (h : p.InRange largest) :
    (p.scan places).2.InRange largest := by
  induction places generalizing p with
  | zero => exact h
  | succ places ih =>
    unfold Pool.scan
    split
    · exact h
    · rename_i id hid
      have hne : 0 < p.rotation.length :=
        Nat.zero_lt_of_lt (List.getElem?_eq_some_iff.mp hid).1
      dsimp only
      split
      · exact h.advance hne
      · exact ih (h.advance hne)

theorem nextWritable_eq_some {id : Nat} (h : p.nextWritable.1 = some id) :
    id ∈ p.rotation ∧ p.takesWork id = true :=
  scan_eq_some h

theorem isSome_nextWritable :
    p.nextWritable.1.isSome = true ↔ ∃ id ∈ p.rotation, p.takesWork id = true := by
  constructor
  · intro h
    obtain ⟨id, hid⟩ := Option.isSome_iff_exists.mp h
    exact ⟨id, nextWritable_eq_some hid⟩
  · rintro ⟨id, hid, htakes⟩
    by_contra hnone
    have hidle := nextWritable_eq_none (Option.not_isSome_iff_eq_none.mp hnone) id hid
    rw [hidle] at htakes
    cases htakes

structure Try where
  connection : Nat
  dispatch : Dispatch
  taken : Bool
deriving DecidableEq, Repr

inductive Asked where
  | nobody (w : Work)
  /-- The connection that was found does not exist. -/
  | unknown (w : Work)
  | taken (id : Nat) (w : Work)
  | refused (id : Nat) (w : Work)

/-- Looks for a connection and offers it a notification. -/
def ask (largest : Nat) (accepts : Acceptance) (n : Dispatch) (w : Work) :
    Except ScanError Asked := do
  match ← checkedNextWritable largest w.pool with
  | (none, q) => return .nobody (w.setPool q)
  | (some id, q) =>
    match q.find? id with
    | none => return .unknown (w.setPool q)
    | some _ =>
      let v := { w.setPool q with tries := w.tries + 1 }
      if accepts w.tries id then return .taken id (v.act [.handOff id n])
      else return .refused id (v.setPool (q.setWritable id false))

def Work.withWaiters (xs : List Waiter) (w : Work) : Work :=
  w.setPool { w.pool with waiters := xs }

def Work.await (time : Moment) (n : Dispatch) (w : Work) : Work :=
  w.withWaiters (w.pool.waiters ++ [⟨n, Moment.after time w.pool.acquireTimeout⟩])

/-- Where the routing stands. -/
inductive Routing where
  /-- In the loop that offers a notification, before which nobody waits. -/
  | offering (n : Dispatch) (w : Work)
  /-- In the loop that hands waiters over. -/
  | flushing (w : Work)
  | done (w : Work)

namespace Routing

def work : Routing → Work
  | offering _ w | flushing w | done w => w

def begin (time : Moment) (n : Dispatch) (p : Pool) : Routing :=
  if p.closing.isSome then .done { pool := p, actions := fail .clientClosed [n] }
  else if p.waiters.isEmpty then .offering n { pool := p }
  else .flushing (Work.await time n { pool := p })

def afterOffer (time : Moment) (n : Dispatch) : Asked → Option Try × Routing
  | .nobody v => (none, .flushing (v.await time n))
  | .unknown v => (none, .offering n v)
  | .taken id v => (some ⟨id, n, true⟩, .done v)
  | .refused id v => (some ⟨id, n, false⟩, .offering n v)

/-- How it goes on after an offer of the first waiter. One that is refused goes back to the front,
with the deadline that it had. -/
def afterFirst (x : Waiter) (rest : List Waiter) : Asked → Option Try × Routing
  | .nobody v | .unknown v => (none, .done v)
  | .taken id v => (some ⟨id, x.dispatch, true⟩, .flushing (v.withWaiters rest))
  | .refused id v => (some ⟨id, x.dispatch, false⟩, .flushing (v.withWaiters (x :: rest)))

/-- A round of the loop, and what was tried in it. What is done stays as it is. -/
def round (largest : Nat) (accepts : Acceptance) (time : Moment) :
    Routing → Except ScanError (Option Try × Routing)
  | offering n w => (ask largest accepts n w).map (afterOffer time n)
  | flushing w =>
    match w.pool.waiters with
    | [] => .ok (none, .done w)
    | x :: rest => (ask largest accepts x.dispatch w).map (afterFirst x rest)
  | done w => .ok (none, .done w)

/-- The routing is done after so many rounds, none of which failed. -/
inductive Rounds (largest : Nat) (accepts : Acceptance) (time : Moment) :
    Nat → Routing → List Try → Work → Prop
  | done (w : Work) : Rounds largest accepts time 0 (.done w) [] w
  | round {k : Nat} {s s' : Routing} {t : Option Try} {ts : List Try} {w : Work}
      (first : s.round largest accepts time = .ok (t, s'))
      (later : Rounds largest accepts time k s' ts w) :
      Rounds largest accepts time (k + 1) s (t.toList ++ ts) w

/-- More rounds than are needed: each rules out a connection, lets a waiter go or leaves a loop. -/
def bound : Routing → Nat
  | offering _ w => w.pool.idleCount + w.pool.waiters.length + 3
  | flushing w => w.pool.idleCount + w.pool.waiters.length + 1
  | done _ => 0

/-- The end to which the routing comes. -/
def result (accepts : Acceptance) (time : Moment) : Routing → Work
  | offering n w =>
    match offer accepts n w with
    | (true, v) => v
    | (false, v) => flush accepts (v.await time n)
  | flushing w => flush accepts w
  | done w => w

end Routing

theorem takesWork_setWritable (id i : Nat) (p : Pool) :
    (p.setWritable id false).takesWork i = (p.takesWork i && i != id) := by
  have hfind : (p.setWritable id false).find? i =
      (p.find? i).map fun c => if c.id == id then { c with writable := false } else c := by
    unfold setWritable update find?
    rw [List.find?_map]
    congr 2
    funext c
    by_cases hc : c.id = id
    · simp [hc]
    · simp [hc]
  rw [takesWork, hfind, takesWork]
  cases hc : p.find? i with
  | none => rfl
  | some c =>
    have hi : c.id = i := by simpa using List.find?_some hc
    by_cases hid : i = id
    · simp [hi, hid, PooledConnection.takesWork]
    · simp [hi, hid]

theorem idleCount_of_refused {id : Nat} {q : Pool} (h : p.nextWritable = (some id, q)) :
    (q.setWritable id false).idleCount < p.idleCount := by
  obtain ⟨cursor, hq⟩ := scan_frame p.rotation.length p
  have hidle : p.takesWork id = true := (nextWritable_eq_some (congrArg Prod.fst h)).2
  unfold nextWritable at h
  rw [h] at hq
  dsimp only at hq
  subst hq
  exact idleCount_setWritable (p := { p with cursor := cursor }) hidle

theorem offerWithin_of_lt {fuel fuel' : Nat} (w : Work) (h : w.pool.idleCount < fuel)
    (h' : w.pool.idleCount < fuel') :
    offerWithin accepts n fuel w = offerWithin accepts n fuel' w := by
  induction fuel generalizing fuel' w with
  | zero => omega
  | succ fuel ih =>
    obtain ⟨fuel', rfl⟩ := Nat.exists_eq_add_one.mpr (Nat.zero_lt_of_lt h')
    unfold offerWithin
    split
    · rfl
    · rename_i id q he
      have hless := idleCount_of_refused he
      dsimp only
      split
      · rfl
      · exact ih _ (Nat.lt_of_lt_of_le hless (by omega)) (Nat.lt_of_lt_of_le hless (by omega))

theorem offer_of_refused {id : Nat} {q : Pool} (h : w.pool.nextWritable = (some id, q))
    (ha : accepts w.tries id = false) : offer accepts n w =
      offer accepts n (Work.setPool { w with tries := w.tries + 1 } (q.setWritable id false)) := by
  have hless := idleCount_of_refused h
  have hle : w.pool.idleCount ≤ w.pool.connections.length := List.countP_le_length
  have hle' : (q.setWritable id false).idleCount ≤ (q.setWritable id false).connections.length :=
    List.countP_le_length
  rw [offer, offerWithin, h]
  dsimp only
  rw [if_neg (by simp [ha])]
  exact offerWithin_of_lt _ (Nat.lt_of_lt_of_le hless hle) (Nat.lt_succ_of_le hle')

theorem scan_withWaiters (xs : List Waiter) (places : Nat) (p : Pool) :
    { p with waiters := xs }.scan places =
      ((p.scan places).1, { (p.scan places).2 with waiters := xs }) := by
  induction places generalizing p with
  | zero => rfl
  | succ places ih =>
    cases hid : p.rotation[p.cursor % p.rotation.length]? with
    | none => simp [scan, hid]
    | some id =>
      have hrest := ih { p with cursor := (p.cursor + 1) % p.rotation.length }
      cases htakes : p.takesWork id with
      | true =>
        have htakes' : { p with waiters := xs }.takesWork id = true := htakes
        simp [scan, hid, htakes, htakes']
      | false =>
        have htakes' : { p with waiters := xs }.takesWork id = false := htakes
        simp [scan, hid, htakes, htakes', hrest]

theorem offerWithin_withWaiters (xs : List Waiter) (fuel : Nat) (w : Work) :
    offerWithin accepts n fuel (w.withWaiters xs) =
      ((offerWithin accepts n fuel w).1, (offerWithin accepts n fuel w).2.withWaiters xs) := by
  induction fuel generalizing w with
  | zero => rfl
  | succ fuel ih =>
    have hnext : (w.withWaiters xs).pool.nextWritable =
        (w.pool.nextWritable.1, { w.pool.nextWritable.2 with waiters := xs }) :=
      scan_withWaiters xs w.pool.rotation.length w.pool
    unfold offerWithin
    rw [hnext]
    obtain ⟨found, q⟩ := w.pool.nextWritable
    cases found with
    | none => rfl
    | some id =>
      dsimp only
      cases ha : accepts w.tries id with
      | true =>
        have ha' : accepts (w.withWaiters xs).tries id = true := ha
        rw [if_pos ha', if_pos rfl]
        rfl
      | false =>
        have ha' : accepts (w.withWaiters xs).tries id = false := ha
        rw [if_neg (by simp [ha']), if_neg (by simp)]
        exact ih (Work.setPool { w with tries := w.tries + 1 } (q.setWritable id false))

theorem flushWithin_withWaiters (xs ys : List Waiter) (w : Work) :
    flushWithin accepts xs (w.withWaiters ys) = flushWithin accepts xs w := by
  induction xs generalizing w with
  | nil => rfl
  | cons x xs ih =>
    have hoffer : offer accepts x.dispatch (w.withWaiters ys) =
        ((offer accepts x.dispatch w).1, (offer accepts x.dispatch w).2.withWaiters ys) :=
      offerWithin_withWaiters ys (w.pool.connections.length + 1) w
    unfold flushWithin
    rw [hoffer]
    obtain ⟨taken, v⟩ := offer accepts x.dispatch w
    cases taken with
    | false => rfl
    | true => exact ih v

/-- Work that goes on on the same machine, where no connection has come to take work since. -/
structure Work.Follows (largest : Nat) (w v : Work) : Prop where
  inRange : v.pool.InRange largest
  idle : ∀ id, v.pool.takesWork id = true → w.pool.takesWork id = true
  fewer : v.pool.idleCount ≤ w.pool.idleCount

theorem InRange.follows (h : w.pool.InRange largest) : w.Follows largest w :=
  ⟨h, fun _ hid => hid, Nat.le_refl _⟩

theorem Work.Follows.withWaiters {v : Work} (h : w.Follows largest v) (xs : List Waiter) :
    w.Follows largest (v.withWaiters xs) :=
  ⟨⟨h.inRange.cursor, h.inRange.rotation⟩, h.idle, h.fewer⟩

/-- All that can come of an offer, and what it has to do with asking until somebody takes the
notification. -/
inductive Asks (largest : Nat) (accepts : Acceptance) (n : Dispatch) (w : Work) : Asked → Prop
  | nobody {v : Work} (follows : w.Follows largest v) (waiters : v.pool.waiters = w.pool.waiters)
      (actions : v.actions = w.actions) (all : offer accepts n w = (false, v)) :
      Asks largest accepts n w (.nobody v)
  | taken {id : Nat} {v : Work} (follows : w.Follows largest v)
      (waiters : v.pool.waiters = w.pool.waiters) (idle : w.pool.takesWork id = true)
      (actions : v.actions = w.actions ++ [.handOff id n])
      (all : offer accepts n w = (true, v)) : Asks largest accepts n w (.taken id v)
  | refused {id : Nat} {v : Work} (follows : w.Follows largest v)
      (waiters : v.pool.waiters = w.pool.waiters) (idle : w.pool.takesWork id = true)
      (less : v.pool.idleCount < w.pool.idleCount) (ruledOut : v.pool.takesWork id = false)
      (actions : v.actions = w.actions) (all : offer accepts n w = offer accepts n v) :
      Asks largest accepts n w (.refused id v)

/-- On a machine an offer does not fail, and the connection that is found exists. -/
theorem InRange.ask_spec (h : w.pool.InRange largest) (accepts : Acceptance) (n : Dispatch) :
    ∃ a, ask largest accepts n w = .ok a ∧ Asks largest accepts n w a := by
  have hnext := h.checkedNextWritable_eq
  have hrange : w.pool.nextWritable.2.InRange largest := h.scan
  obtain ⟨cursor, hframe⟩ := scan_frame w.pool.rotation.length w.pool
  change w.pool.nextWritable.2 = _ at hframe
  rcases he : w.pool.nextWritable with ⟨found, q⟩
  rw [he] at hnext hrange hframe
  dsimp only at hrange hframe
  subst hframe
  cases found with
  | none =>
    refine ⟨.nobody (w.setPool { w.pool with cursor := cursor }), ?_,
      .nobody ⟨hrange, fun _ hid => hid, Nat.le_refl _⟩ rfl rfl ?_⟩
    · simp [ask, hnext, bind, Except.bind, pure, Except.pure]
    · rw [offer, offerWithin, he]
  | some id =>
    have hidle : w.pool.takesWork id = true := (nextWritable_eq_some (congrArg Prod.fst he)).2
    obtain ⟨c, hc, -⟩ := (Option.any_eq_true _ _).mp hidle
    have hknown : { w.pool with cursor := cursor }.find? id = some c := hc
    cases ha : accepts w.tries id with
    | true =>
      refine ⟨.taken id (Work.act { w.setPool { w.pool with cursor := cursor } with
        tries := w.tries + 1 } [.handOff id n]), ?_,
        .taken ⟨hrange, fun _ hid => hid, Nat.le_refl _⟩ rfl hidle rfl ?_⟩
      · simp [ask, hnext, hknown, ha, bind, Except.bind, pure, Except.pure]
      · rw [offer, offerWithin, he]
        exact if_pos ha
    | false =>
      let q : Pool := { w.pool with cursor := cursor }.setWritable id false
      have hq : q.InRange largest := ⟨hrange.cursor, hrange.rotation⟩
      have hless : q.idleCount < w.pool.idleCount := idleCount_of_refused he
      have hidleAfter (i : Nat) : q.takesWork i = (w.pool.takesWork i && i != id) :=
        takesWork_setWritable id i _
      refine ⟨.refused id (Work.setPool { w with tries := w.tries + 1 } q), ?_,
        .refused ⟨hq, ?_, hless.le⟩ rfl hidle hless ?_ rfl (offer_of_refused he ha)⟩
      · simp [q, ask, hnext, hknown, ha, bind, Except.bind, pure, Except.pure, Work.setPool]
      · intro i hi
        rw [Work.setPool, hidleAfter] at hi
        exact (Bool.and_eq_true_iff.mp hi).1
      · rw [Work.setPool, hidleAfter]
        simp

theorem flush_of_nil (h : w.pool.waiters = []) : flush accepts w = w := by
  rw [flush, h]
  change w.withWaiters [] = w
  rw [← h]
  rfl

theorem flush_of_left {x : Waiter} {rest : List Waiter} {v : Work} (h : v.pool.waiters = x :: rest)
    (hw : w.pool.waiters = x :: rest) (ho : offer accepts x.dispatch w = (false, v)) :
    flush accepts w = v := by
  rw [flush, hw, flushWithin, ho]
  change v.withWaiters (x :: rest) = v
  rw [← h]
  rfl

theorem flush_of_taken {x : Waiter} {rest : List Waiter} {v : Work}
    (hw : w.pool.waiters = x :: rest) (ho : offer accepts x.dispatch w = (true, v)) :
    flush accepts w = flush accepts (v.withWaiters rest) := by
  rw [flush, hw, flushWithin, ho]
  exact (flushWithin_withWaiters rest rest v).symm

theorem flush_of_refused {x : Waiter} {rest : List Waiter} {v : Work}
    (hw : w.pool.waiters = x :: rest)
    (ho : offer accepts x.dispatch w = offer accepts x.dispatch v) :
    flush accepts w = flush accepts (v.withWaiters (x :: rest)) := by
  have hv : flush accepts (v.withWaiters (x :: rest)) = flushWithin accepts (x :: rest) v :=
    flushWithin_withWaiters (x :: rest) (x :: rest) v
  rw [hv, flush, hw, flushWithin, flushWithin, ho]

namespace Routing

variable {s : Routing}

def handOffs (ts : List Try) : List PoolAction :=
  (ts.filter Try.taken).map fun t => .handOff t.connection t.dispatch

/-- All that a round does. -/
structure Advances (largest : Nat) (accepts : Acceptance) (time : Moment) (s : Routing)
    (t : Option Try) (s' : Routing) : Prop where
  follows : s.work.Follows largest s'.work
  shorter : s'.bound < s.bound
  result : s'.result accepts time = s.result accepts time
  actions : s'.work.actions = s.work.actions ++ handOffs t.toList
  tried : ∀ x ∈ t.toList, s.work.pool.takesWork x.connection = true
  /-- Whoever refuses does not take work any more. -/
  ruledOut : ∀ x ∈ t.toList, x.taken = false → s'.work.pool.takesWork x.connection = false

theorem exists_round_offering (n : Dispatch) (w : Work) (h : w.pool.InRange largest) :
    ∃ t s', (offering n w).round largest accepts time = .ok (t, s') ∧
      (offering n w).Advances largest accepts time t s' := by
  obtain ⟨a, hask, ha⟩ := h.ask_spec accepts n
  refine ⟨(afterOffer time n a).1, (afterOffer time n a).2, by rw [round, hask]; rfl, ?_⟩
  cases ha with
  | @nobody v follows waiters actions all =>
    refine ⟨follows.withWaiters _, ?_, ?_, actions.trans (List.append_nil _).symm, ?_, ?_⟩
    · have hfewer := follows.fewer
      change v.pool.idleCount + (v.pool.waiters ++ [_]).length + 1 <
        w.pool.idleCount + w.pool.waiters.length + 3
      rw [List.length_append, List.length_singleton, waiters]
      omega
    · simp [afterOffer, result, all]
    · simp [afterOffer]
    · simp [afterOffer]
  | @taken id v follows waiters idle actions all =>
    refine ⟨follows, Nat.succ_pos _, ?_, actions, ?_, ?_⟩
    · simp [afterOffer, result, all]
    · simpa [afterOffer, work] using idle
    · simp [afterOffer]
  | @refused id v follows waiters idle less ruledOut actions all =>
    refine ⟨follows, ?_, ?_, actions.trans (List.append_nil _).symm, ?_, ?_⟩
    · simp only [afterOffer, bound, waiters]
      omega
    · simp [afterOffer, result, all]
    · simpa [afterOffer, work] using idle
    · simpa [afterOffer, work] using ruledOut

theorem exists_round_flushing (w : Work) (h : w.pool.InRange largest) :
    ∃ t s', (flushing w).round largest accepts time = .ok (t, s') ∧
      (flushing w).Advances largest accepts time t s' := by
  cases hw : w.pool.waiters with
  | nil =>
    refine ⟨none, .done w, by rw [round, hw], ⟨h.follows, Nat.succ_pos _, ?_, ?_, ?_, ?_⟩⟩
    · exact (flush_of_nil hw).symm
    · exact (List.append_nil _).symm
    · simp
    · simp
  | cons x rest =>
    obtain ⟨a, hask, ha⟩ := h.ask_spec accepts x.dispatch
    refine ⟨(afterFirst x rest a).1, (afterFirst x rest a).2,
      by simp [round, hw, hask, Except.map], ?_⟩
    cases ha with
    | @nobody v follows waiters actions all =>
      refine ⟨follows, Nat.succ_pos _, ?_, actions.trans (List.append_nil _).symm, ?_, ?_⟩
      · exact (flush_of_left (waiters.trans hw) hw all).symm
      · simp [afterFirst]
      · simp [afterFirst]
    | @taken id v follows waiters idle actions all =>
      refine ⟨follows.withWaiters rest, ?_, (flush_of_taken hw all).symm, actions, ?_, ?_⟩
      · have hfewer := follows.fewer
        change v.pool.idleCount + rest.length + 1 < w.pool.idleCount + w.pool.waiters.length + 1
        rw [hw, List.length_cons]
        omega
      · simpa [afterFirst, work] using idle
      · simp [afterFirst]
    | @refused id v follows waiters idle less ruledOut actions all =>
      refine ⟨follows.withWaiters _, ?_, (flush_of_refused hw all).symm,
        actions.trans (List.append_nil _).symm, ?_, ?_⟩
      · change v.pool.idleCount + (x :: rest).length + 1 <
          w.pool.idleCount + w.pool.waiters.length + 1
        rw [hw]
        omega
      · simpa [afterFirst, work] using idle
      · intro y hy _
        obtain rfl : y = ⟨id, x.dispatch, false⟩ := by simpa [afterFirst] using hy
        exact ruledOut

theorem exists_round (accepts : Acceptance) (time : Moment) (s : Routing)
    (h : s.work.pool.InRange largest) (hs : ∀ w, s ≠ .done w) :
    ∃ t s', s.round largest accepts time = .ok (t, s') ∧
      s.Advances largest accepts time t s' := by
  cases s with
  | offering n w => exact exists_round_offering n w h
  | flushing w => exact exists_round_flushing w h
  | done w => exact absurd rfl (hs w)

/-- Whoever has refused is not tried again. -/
def RefusedOnce (ts : List Try) : Prop :=
  ts.Pairwise fun t u => t.taken = false → u.connection ≠ t.connection

theorem handOffs_append (ts us : List Try) : handOffs (ts ++ us) = handOffs ts ++ handOffs us := by
  simp [handOffs]

theorem exists_rounds (accepts : Acceptance) (time : Moment) (s : Routing)
    (h : s.work.pool.InRange largest) :
    ∃ k ts, k ≤ s.bound ∧ Rounds largest accepts time k s ts (s.result accepts time) ∧
      RefusedOnce ts ∧ (∀ t ∈ ts, s.work.pool.takesWork t.connection = true) ∧
      (s.result accepts time).actions = s.work.actions ++ handOffs ts := by
  induction hb : s.bound using Nat.strong_induction_on generalizing s with
  | _ b ih =>
    -- Each round lowers the bound and leaves the result as it is.
    by_cases hs : ∃ w, s = .done w
    · obtain ⟨w, rfl⟩ := hs
      exact ⟨0, [], Nat.zero_le _, .done w, .nil, by simp, (List.append_nil _).symm⟩
    · obtain ⟨t, s', hround, hadv⟩ := exists_round accepts time s h fun w hw => hs ⟨w, hw⟩
      obtain ⟨k, ts, hk, hrounds, honce, htried, hactions⟩ :=
        ih s'.bound (hb ▸ hadv.shorter) s' hadv.follows.inRange rfl
      have hshorter := hadv.shorter
      rw [hadv.result] at hrounds hactions
      -- No connection comes to take work, so what is ruled out in this round stays so.
      refine ⟨k + 1, t.toList ++ ts, by omega, .round hround hrounds, ?_, ?_, ?_⟩
      · refine List.pairwise_append.mpr ⟨?_, honce, ?_⟩
        · cases t with
          | none => exact .nil
          | some x => exact List.pairwise_singleton _ _
        · intro x hx y hy hrefused heq
          have hidle := htried y hy
          rw [heq, hadv.ruledOut x hx hrefused] at hidle
          cases hidle
      · intro x hx
        rcases List.mem_append.mp hx with hx | hx
        · exact hadv.tried x hx
        · exact hadv.follows.idle _ (htried x hx)
      · rw [hactions, hadv.actions, handOffs_append, List.append_assoc]

theorem result_begin (accepts : Acceptance) (time : Moment) (n : Dispatch) (p : Pool) :
    (begin time n p).result accepts time = p.route accepts time n := by
  obtain ⟨cs, cursor, -, hpool, -⟩ := offerWithin_spec accepts n (p.connections.length + 1)
    { pool := p }
  have htimeout : (offer accepts n { pool := p }).2.pool.acquireTimeout = p.acquireTimeout := by
    rw [offer, hpool]
  unfold begin route
  split
  · rfl
  · split
    · rw [result]
      generalize offer accepts n { pool := p } = o at htimeout ⊢
      obtain ⟨taken, v⟩ := o
      cases taken with
      | true => rfl
      | false =>
        change flush accepts (v.await time n) = _
        rw [Work.await, htimeout]
        rfl
    · rfl

/-- The routing ends with this work after a number of rounds. Only connections that take work are
tried, and none again that has refused; of the line of waiters those at the front are handed over,
in order, and nothing happens to the rest. -/
def Ends (largest : Nat) (accepts : Acceptance) (time : Moment) (s : Routing) (line : List Waiter)
    (w : Work) : Prop :=
  ∃ k ts given, k ≤ s.bound ∧ Rounds largest accepts time k s ts w ∧ RefusedOnce ts ∧
    (∀ t ∈ ts, s.work.pool.takesWork t.connection = true) ∧
    w.actions = s.work.actions ++ handOffs ts ∧ line = given ++ w.pool.waiters ∧
    given.map Waiter.dispatch = (ts.filter Try.taken).map Try.dispatch

theorem ends_of_handsOver {line : List Waiter} {v : Work} (h : s.work.pool.InRange largest)
    (hands : HandsOver accepts line v (s.result accepts time))
    (hv : v.actions = s.work.actions) :
    s.Ends largest accepts time line (s.result accepts time) := by
  obtain ⟨k, ts, hk, hrounds, honce, htried, hactions⟩ := exists_rounds accepts time s h
  obtain ⟨hs, given, rest, cs, cursor, hline, hgiven, -, -, hpool, hhands⟩ := hands
  rw [hv, hactions] at hhands
  have hsame := congrArg (List.filterMap PoolAction.handed?) (List.append_cancel_left hhands)
  rw [handed_of_hands, hgiven] at hsame
  refine ⟨k, ts, given, hk, hrounds, honce, htried, hactions, ?_, ?_⟩
  · rw [hline, hpool]
  · rw [← hsame]
    simp [handOffs, PoolAction.handed?, List.filterMap_map, Function.comp_def]

theorem ends_begin (accepts : Acceptance) (time : Moment) (n : Dispatch)
    (h : p.InRange largest) :
    (begin time n p).Ends largest accepts time
      (if p.closing.isSome then p.waiters
        else p.waiters ++ [⟨n, Moment.after time p.acquireTimeout⟩])
      (p.route accepts time n) := by
  by_cases hc : p.closing = none
  · have hands := route_handsOver accepts time n p hc
    rw [← result_begin] at hands ⊢
    have hstart : (begin time n p).work.pool.InRange largest ∧
        (begin time n p).work.actions = [] := by
      unfold begin
      rw [if_neg (by simp [hc])]
      split
      · exact ⟨h, rfl⟩
      · exact ⟨⟨h.cursor, h.rotation⟩, rfl⟩
    rw [if_neg (by simp [hc])]
    exact ends_of_handsOver hstart.1 hands hstart.2.symm
  · have hclosing : p.closing.isSome = true := Option.isSome_iff_ne_none.mpr hc
    rw [route_of_closing accepts time n hc, if_pos hclosing, begin, if_pos hclosing]
    exact ⟨0, [], [], Nat.zero_le _, .done _, .nil, by simp, (List.append_nil _).symm, rfl, rfl⟩

end Routing

/-- The loops come to an end from any state, whichever connections the rotation names, wherever
the cursor stands below the largest number, whoever waits and whoever refuses. A search fails in no
way, and finds a connection that takes work if there is one in the rotation. -/
theorem routing_ends (largest : Nat) (accepts : Acceptance) (time : Moment) (n : Dispatch)
    (w : Work) (hcursor : w.pool.cursor < largest) (hrotation : w.pool.rotation.length ≤ largest) :
    let p := w.pool
    (checkedNextWritable largest p = .ok p.nextWritable ∧
      (∀ id, p.nextWritable.1 = some id → id ∈ p.rotation ∧ p.takesWork id = true) ∧
      (p.nextWritable.1.isSome = true ↔ ∃ id ∈ p.rotation, p.takesWork id = true)) ∧
    (Routing.begin time n p).Ends largest accepts time
      (if p.closing.isSome then p.waiters
        else p.waiters ++ [⟨n, Moment.after time p.acquireTimeout⟩])
      (p.route accepts time n) ∧
    (Routing.flushing w).Ends largest accepts time p.waiters (flush accepts w) := by
  intro p
  have hrange : p.InRange largest := ⟨hcursor, hrotation⟩
  refine ⟨⟨hrange.checkedNextWritable_eq, fun _ hid => nextWritable_eq_some hid,
    isSome_nextWritable⟩, Routing.ends_begin accepts time n hrange, ?_⟩
  exact Routing.ends_of_handsOver (s := .flushing w) hrange (flush_handsOver accepts w) rfl

/-- The first in the rotation does not exist any more, and the cursor has been left behind the end.
Two notifications wait. -/
def stale : Pool :=
  let waiter := fun n : Nat => Waiter.mk (Dispatch.mk n ⟨"00fc13ad", "com.example.app",
    "\x7b\x7d", none, .immediate, none, none, none⟩ false false false) 1000
  { ofConfig (.standard "gateway.example" .none) with
    connections := [{ id := 1 }, { id := 2 }], rotation := [9, 1, 2], cursor := 7,
    waiters := [waiter 1, waiter 2] }

/-- One connection refuses the first of them, and the other takes both. -/
theorem ends_of_stale : stale.find? 9 = none ∧ stale.rotation.length ≤ stale.cursor ∧
    checkedNextWritable 18446744073709551615 stale = .ok stale.nextWritable ∧
    stale.nextWritable.1 = some 1 ∧
    ∃ k ts w, k ≤ 5 ∧ Routing.Rounds 18446744073709551615 (fun _ id => id == 2) 0 k
      (.flushing { pool := stale }) ts w ∧ Routing.RefusedOnce ts ∧ w.pool.waiters = [] ∧
      (ts.filter Try.taken).map Try.dispatch = stale.waiters.map Waiter.dispatch := by
  obtain ⟨⟨hsearch, -, -⟩, -, k, ts, given, hk, hrounds, honce, -, -, hline, hgiven⟩ :=
    routing_ends 18446744073709551615 (fun _ id => id == 2) 0 (Dispatch.mk 3 ⟨"00fc13ad",
      "com.example.app", "\x7b\x7d", none, .immediate, none, none, none⟩ false false false)
      { pool := stale } (by decide) (by decide)
  have hnobody : (flush (fun _ id => id == 2) { pool := stale }).pool.waiters = [] := by
    decide +kernel
  rw [hnobody, List.append_nil] at hline
  refine ⟨rfl, by decide, hsearch, by decide, k, ts, _, hk, hrounds, honce, hnobody, ?_⟩
  rw [← hgiven, ← hline]

end PushDelivery.Pool
