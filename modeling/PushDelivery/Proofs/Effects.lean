import PushDelivery.Proofs.ConnectionLife
import PushDelivery.Proofs.PoolWork

namespace PushDelivery

namespace Happening

def report? : Happening → Option Report
  | report r => some r
  | _ => none

def submitted? : Happening → Option Dispatch
  | submitted p => some p
  | _ => none

end Happening

namespace World

def reported (hs : List Happening) : List Report :=
  hs.filterMap Happening.report?

def submitted (hs : List Happening) : List Dispatch :=
  hs.filterMap Happening.submitted?

@[simp] theorem reported_append (hs gs : List Happening) :
    reported (hs ++ gs) = reported hs ++ reported gs :=
  List.filterMap_append

@[simp] theorem submitted_append (hs gs : List Happening) :
    submitted (hs ++ gs) = submitted hs ++ submitted gs :=
  List.filterMap_append

theorem reported_map (rs : List Report) : reported (rs.map .report) = rs := by
  induction rs with
  | nil => rfl
  | cons r rs ih => exact congrArg (r :: ·) ih

/-- Happenings in which nothing comes in, and which count nothing but connections. -/
structure Plain (hs : List Happening) : Prop where
  submitted : submitted hs = []
  counts : ∀ x, .count x ∈ hs → x.isConnection = true

theorem Plain.append {hs gs : List Happening} (h : Plain hs) (g : Plain gs) :
    Plain (hs ++ gs) where
  submitted := by rw [submitted_append, h.submitted, g.submitted, List.append_nil]
  counts := fun x hx => (List.mem_append.mp hx).elim (h.counts x) (g.counts x)

theorem Plain.reports (rs : List Report) : Plain (rs.map .report) := by
  induction rs with
  | nil => exact ⟨rfl, by simp⟩
  | cons r rs ih =>
    have h : Plain [.report r] := ⟨rfl, by simp⟩
    exact h.append ih

theorem each_from {α : Type} (f : World → α → Effect) (as : List α) (w : World)
    (hs : List Happening) :
    as.foldl (fun e a => andThen e fun w => f w a) (w, hs) =
      ((each f w as).1, hs ++ (each f w as).2) := by
  induction as generalizing w hs with
  | nil => simp [each]
  | cons a as ih =>
    unfold each
    rw [List.foldl_cons, List.foldl_cons]
    change as.foldl _ ((f w a).1, hs ++ (f w a).2) = (((as.foldl _ ((f w a).1, [] ++ (f w a).2))).1,
      hs ++ (as.foldl _ ((f w a).1, [] ++ (f w a).2)).2)
    rw [ih, ih, List.nil_append, List.append_assoc]

@[simp] theorem each_nil {α : Type} (f : World → α → Effect) (w : World) :
    each f w [] = (w, []) := rfl

theorem each_cons {α : Type} (f : World → α → Effect) (w : World) (a : α) (as : List α) :
    each f w (a :: as) =
      ((each f (f w a).1 as).1, (f w a).2 ++ (each f (f w a).1 as).2) := by
  have h := each_from f as (f w a).1 ([] ++ (f w a).2)
  rw [List.nil_append] at h
  exact h

variable {s : ConnectionSettings} {m : Move} {w : World}

/-- What the connections hold together. -/
def carried (w : World) : Multiset Holding :=
  (w.connections.map Connection.holdings).sum

/-- What the pool and its channel hold. -/
def queued (w : World) : Multiset Holding :=
  unwritten (w.channel.filterMap PoolMessage.dispatch?) + unwritten w.pool.waiting

theorem holdings_eq (w : World) : w.holdings = w.queued + w.carried := rfl

theorem act_spec (id : Nat) (w : World) (a : ConnectionAction) (ha : ∀ p, a ≠ .tell (.submit p)) :
    ∃ channel, (w.act id a).1 = { w with channel := channel } ∧
      Plain (w.act id a).2 ∧
      ((w.pool.ended = true ∧ channel = w.channel ∧
          reported (w.act id a).2 = Connection.reported [a] ++
            (Connection.returned [a]).map Dispatch.drop) ∨
        (w.pool.ended = false ∧ reported (w.act id a).2 = Connection.reported [a] ∧
          unwritten (channel.filterMap PoolMessage.dispatch?) =
            unwritten (w.channel.filterMap PoolMessage.dispatch?) +
              unwritten (Connection.returned [a]))) := by
  cases a with
  | report r | opened stream p r =>
    refine ⟨w.channel, rfl, ⟨rfl, by simp [act]⟩, ?_⟩
    cases he : w.pool.ended with
    | true => exact .inl ⟨rfl, rfl, rfl⟩
    | false => exact .inr ⟨rfl, rfl, (add_zero _).symm⟩
  | tell m =>
    cases he : w.pool.ended with
    | true =>
      refine ⟨w.channel, ?_, ?_, .inl ⟨rfl, rfl, ?_⟩⟩
      all_goals simp only [act, tell, he, if_true]
      · cases m <;> rfl
      · cases m with
        | resubmit p => exact .reports [p.drop]
        | _ => exact .reports []
      · cases m <;> rfl
    | false =>
      refine ⟨w.channel ++ [m], ?_, ?_, .inr ⟨rfl, ?_, ?_⟩⟩
      · simp [act, tell, he]
      · simp only [act, tell, he]
        exact ⟨rfl, by simp⟩
      · simp only [act, tell, he]
        rfl
      · rw [List.filterMap_append, unwritten_append]
        cases m with
        | submit p => exact absurd rfl (ha p)
        | _ => rfl

theorem acts_spec (id : Nat) (as : List ConnectionAction) (w : World)
    (ha : ∀ p, .tell (.submit p) ∉ as) :
    ∃ channel, (each (act id) w as).1 = { w with channel := channel } ∧
      Plain (each (act id) w as).2 ∧
      ((w.pool.ended = true ∧ channel = w.channel ∧
          (↑(reported (each (act id) w as).2) : Multiset Report) = ↑(Connection.reported as) +
            ↑((Connection.returned as).map Dispatch.drop)) ∨
        (w.pool.ended = false ∧ reported (each (act id) w as).2 = Connection.reported as ∧
          unwritten (channel.filterMap PoolMessage.dispatch?) =
            unwritten (w.channel.filterMap PoolMessage.dispatch?) +
              unwritten (Connection.returned as))) := by
  induction as generalizing w with
  | nil =>
    refine ⟨w.channel, rfl, .reports [], ?_⟩
    cases he : w.pool.ended with
    | true => exact .inl ⟨rfl, rfl, rfl⟩
    | false => exact .inr ⟨rfl, rfl, (add_zero _).symm⟩
  | cons a as ih =>
    obtain ⟨mid, hw, hs, hc⟩ := act_spec id w a fun p he => ha p (he ▸ List.mem_cons_self)
    obtain ⟨channel, hv, ht, hd⟩ := ih (w.act id a).1 fun p hm => ha p (List.mem_cons_of_mem a hm)
    have hr : Connection.reported (a :: as) = Connection.reported [a] ++ Connection.reported as :=
      Connection.reported_append [a] as
    have hb : Connection.returned (a :: as) = Connection.returned [a] ++ Connection.returned as :=
      Connection.returned_append [a] as
    rw [each_cons]
    rw [hw] at hd hv ht ⊢
    refine ⟨channel, hv, hs.append ht, ?_⟩
    rcases hc with ⟨he, rfl, hc⟩ | ⟨he, hc, hq⟩
    · obtain ⟨-, rfl, hd⟩ | ⟨hf, -⟩ := hd
      · refine .inl ⟨he, rfl, ?_⟩
        rw [reported_append, ← Multiset.coe_add, hd, hc, hr, hb]
        simp only [List.map_append, ← Multiset.coe_add]
        abel
      · simp [he] at hf
    · obtain ⟨hf, -⟩ | ⟨-, hd, hr'⟩ := hd
      · simp [he] at hf
      · refine .inr ⟨he, ?_, ?_⟩
        · rw [reported_append, hc, hd, hr]
        · rw [hr', hq, hb, unwritten_append, add_assoc]

theorem opened_mem_acts {id c n : Nat} {p : Dispatch} {r : Request} (as : List ConnectionAction)
    (w : World) :
    .opened c n p r ∈ (each (act id) w as).2 ↔ c = id ∧ .opened n p r ∈ as := by
  induction as generalizing w with
  | nil => simp
  | cons a as ih =>
    have ha : .opened c n p r ∈ (w.act id a).2 ↔ c = id ∧ .opened n p r = a := by
      cases a with
      | tell msg =>
        simp only [act, tell]
        split
        · cases msg <;> simp
        · simp
      | report x => simp [act]
      | opened stream q x => simp [act]
    rw [each_cons, List.mem_append, ha, ih, List.mem_cons, and_or_left]

/-- Whatever a connection has dealt with, the client has dealt with when the actions are done. -/
theorem acts_passage {A : Multiset Holding} (id : Nat) (as : List ConnectionAction) (w : World)
    (ha : ∀ p, .tell (.submit p) ∉ as)
    (h : Passage s m A ↑(Connection.reported as)
      (w.holdings + unwritten (Connection.returned as))) :
    ∃ channel, (each (act id) w as).1 = { w with channel := channel } ∧
      Plain (each (act id) w as).2 ∧ (w.pool.ended = true → channel = w.channel) ∧
      Passage s m A ↑(reported (each (act id) w as).2) (each (act id) w as).1.holdings := by
  obtain ⟨channel, hv, hs, hc⟩ := acts_spec id as w ha
  refine ⟨channel, hv, hs, ?_, ?_⟩
  · intro he
    rcases hc with ⟨-, hc, -⟩ | ⟨hf, -⟩
    · exact hc
    · simp [he] at hf
  · rw [hv]
    rcases hc with ⟨-, rfl, hr⟩ | ⟨-, hr, hq⟩
    · rw [hr]
      exact h.then_drop rfl
    · rw [hr]
      convert h using 1
      simp only [holdings, hq]
      abel

theorem split_of_find? {id : Nat} {c : Connection} (hw : (w.connections.map Connection.id).Nodup)
    (hc : w.find? id = some c) :
    c.id = id ∧ ∃ before after, w.connections = before ++ c :: after ∧
      (∀ d, d.id = id → (w.set d).connections = before ++ d :: after) ∧
      (w.remove id).connections = before ++ after := by
  have hi : c.id = id := by simpa using List.find?_some hc
  obtain ⟨before, after, he⟩ := List.mem_iff_append.mp (List.mem_of_find?_eq_some hc)
  rw [he, List.map_append, List.map_cons, List.nodup_append, List.nodup_cons] at hw
  obtain ⟨-, ⟨hafter, -⟩, hbefore⟩ := hw
  have hb : ∀ d ∈ before, d.id ≠ id := by
    intro d hd hn
    exact hbefore d.id (List.mem_map.mpr ⟨d, hd, rfl⟩) c.id List.mem_cons_self (hn.trans hi.symm)
  have ha : ∀ d ∈ after, d.id ≠ id := by
    intro d hd hn
    exact hafter (List.mem_map.mpr ⟨d, hd, hn.trans hi.symm⟩)
  refine ⟨hi, before, after, he, ?_, ?_⟩
  · intro d hd
    have hkeep (es : List Connection) (hes : ∀ e ∈ es, e.id ≠ id) :
        es.map (fun e => if e.id == d.id then d else e) = es := by
      rw [List.map_congr_left (g := fun e => e), List.map_id']
      intro e hm
      rw [if_neg]
      simpa [hd] using hes e hm
    simp only [set, he, List.map_append, List.map_cons, hkeep before hb, hkeep after ha]
    rw [if_pos (by simp [hi, hd])]
  · have hkeep (es : List Connection) (hes : ∀ e ∈ es, e.id ≠ id) :
        es.filter (fun e => e.id != id) = es := by
      apply List.filter_eq_self.mpr
      intro e hm
      simpa using hes e hm
    simp only [remove, he, List.filter_append, hkeep before hb]
    rw [List.filter_cons_of_neg (by simp [hi]), hkeep after ha]

theorem carried_split {id : Nat} {c : Connection} (hw : (w.connections.map Connection.id).Nodup)
    (hc : w.find? id = some c) :
    ∃ rest, w.carried = c.holdings + rest ∧
      (∀ d, d.id = id → (w.set d).carried = d.holdings + rest) ∧ (w.remove id).carried = rest := by
  obtain ⟨-, before, after, he, hset, hremove⟩ := split_of_find? hw hc
  have hsum (d : Connection) : ((before ++ d :: after).map Connection.holdings).sum =
      d.holdings + ((before ++ after).map Connection.holdings).sum := by
    simp only [List.map_append, List.map_cons, List.sum_append, List.sum_cons]
    abel
  refine ⟨((before ++ after).map Connection.holdings).sum, ?_, ?_, ?_⟩
  · rw [carried, he, hsum]
  · intro d hd
    rw [carried, hset d hd, hsum]
  · rw [carried, hremove]

/-- A step of a connection as a step of the client. -/
theorem settle_passage {id : Nat} {c : Connection} {o : Connection.Effect}
    (hw : (w.connections.map Connection.id).Nodup) (hc : w.find? id = some c)
    (ho : Connection.Passes s m id c.holdings o) (hend : o.1.phase = .closed → o.1.holdings = 0) :
    ∃ channel, (w.settle o).1 =
        { (if o.1.phase = .closed then w.remove id else w.set o.1) with channel := channel } ∧
      Plain (w.settle o).2 ∧ (w.pool.ended = true → channel = w.channel) ∧
      Passage s m w.holdings ↑(reported (w.settle o).2) (w.settle o).1.holdings := by
  obtain ⟨rest, hcarried, hset, hremove⟩ := carried_split hw hc
  have hp := ho.passage.add (Passage.stay (w.queued + rest))
  have hbefore : c.holdings + (w.queued + rest) = w.holdings := by
    rw [holdings_eq, hcarried]
    abel
  rw [hbefore, add_zero] at hp
  unfold settle
  dsimp only
  rw [ho.same]
  split
  · rename_i hclosed
    have hafter : o.1.holdings + unwritten (Connection.returned o.2) + (w.queued + rest) =
        (w.remove id).holdings + unwritten (Connection.returned o.2) := by
      rw [holdings_eq, hremove, hend hclosed]
      change _ = w.queued + rest + _
      abel
    rw [hafter] at hp
    obtain ⟨channel, hv, hs, he, hpass⟩ := acts_passage id o.2 (w.remove id) ho.returns hp
    refine ⟨channel, hv, ?_, he, ?_⟩
    · exact hs.append ⟨rfl, by simp⟩
    · simp only [andThen, reported_append]
      rw [show reported [.ended id] = [] from rfl, List.append_nil]
      exact hpass
  · have hafter : o.1.holdings + unwritten (Connection.returned o.2) + (w.queued + rest) =
        (w.set o.1).holdings + unwritten (Connection.returned o.2) := by
      rw [holdings_eq, hset o.1 ho.same]
      change _ = w.queued + _ + _
      abel
    rw [hafter] at hp
    exact acts_passage id o.2 (w.set o.1) ho.returns hp

/-- The numbers in use, of attempts and connections. -/
def numbers (w : World) : Multiset Nat :=
  ↑w.attempts + ↑(w.connections.map Connection.id)

theorem find?_isSome {id : Nat} :
    (w.find? id).isSome = true ↔ id ∈ w.connections.map Connection.id := by
  simp [find?, List.find?_isSome]

/-- What actions of the pool come to: hand-offs put notifications into connections, and what a
stopped connection held is let go. -/
structure Performed (w : World) (as : List PoolAction) (e : Effect) : Prop where
  frame : e.1 = { w with
    attempts := e.1.attempts, connections := e.1.connections, announced := e.1.announced }
  numbers : e.1.numbers ≤ w.numbers + ↑(as.filterMap PoolAction.attempted?)
  attempts : ∀ id ∈ e.1.attempts, id ∈ w.attempts ∨ id ∈ as.filterMap PoolAction.attempted?
  plain : Plain e.2
  unopened : ∀ c n p r, .opened c n p r ∉ e.2
  carried : ∃ D : Multiset Holding,
    e.1.carried + D = w.carried + unwritten (as.filterMap PoolAction.handed?) ∧
    (↑(reported e.2) : Multiset Report) =
      ↑(as.filterMap PoolAction.report?) + D.map fun h => h.dispatch.drop
  same : ∀ d ∈ e.1.connections, ∃ c ∈ w.connections, ∃ more,
    d = { c with commands := c.commands ++ more } ∧ (more ≠ [] → ∃ p, .handOff c.id p ∈ as)
  fewer : (e.1.connections.map Connection.id).Sublist (w.connections.map Connection.id)
  kept : (∀ id, .abort id ∉ as) →
    e.1.connections.map Connection.id = w.connections.map Connection.id

theorem Performed.of_idle {v : World} {a : PoolAction} {hs : List Happening}
    (hv : v = { w with attempts := v.attempts, announced := v.announced })
    (hn : v.attempts = w.attempts ++ [a].filterMap PoolAction.attempted?) (hp : Plain hs)
    (ho : ∀ c n p r, .opened c n p r ∉ hs) (hh : a.handed? = none)
    (hr : reported hs = [a].filterMap PoolAction.report?) : w.Performed [a] (v, hs) where
  frame := by
    rw [hv]
  numbers := by
    have hc : v.connections = w.connections := by rw [hv]
    simp only [World.numbers, hn, hc, ← Multiset.coe_add]
    rw [add_right_comm]
  attempts := fun id hm => List.mem_append.mp (hn ▸ hm)
  plain := hp
  unopened := ho
  carried := by
    refine ⟨0, ?_, ?_⟩
    · have hc : v.carried = w.carried := by
        rw [hv]
        rfl
      rw [List.filterMap_cons_none hh, hc]
      rfl
    · rw [hr]
      simp
  same := by
    intro d hd
    rw [hv] at hd
    exact ⟨d, hd, [], by rw [List.append_nil], fun h => absurd rfl h⟩
  fewer := by
    rw [hv]
  kept := by
    intro _
    rw [hv]

theorem holdings_takeCommand (p : Dispatch) (c : Connection) :
    (c.takeCommand p).holdings = c.holdings + unwritten [p] := by
  change unwritten (c.commands ++ [p]) + unwritten c.retries + c.streams.holdings c.id = _
  rw [unwritten_append, Connection.holdings]
  abel

theorem performed_handOff {id : Nat} (p : Dispatch)
    (hw : (w.connections.map Connection.id).Nodup) (hc : (w.find? id).isSome = true) :
    w.Performed [.handOff id p] (w.perform (.handOff id p)) := by
  obtain ⟨c, hc⟩ := Option.isSome_iff_exists.mp hc
  obtain ⟨hi, before, after, he, hset, -⟩ := split_of_find? hw hc
  obtain ⟨rest, hcarried, hset', -⟩ := carried_split hw hc
  have hset := hset (c.takeCommand p) hi
  have hset' := hset' (c.takeCommand p) hi
  have hv : w.perform (.handOff id p) = (w.set (c.takeCommand p), [.handedOff id p]) := by
    simp [perform, hc]
  have hids : (w.set (c.takeCommand p)).connections.map Connection.id =
      w.connections.map Connection.id := by
    rw [hset, he]
    simp [Connection.takeCommand]
  rw [hv]
  refine ⟨rfl, ?_, fun _ => .inl, ⟨rfl, by simp⟩, by simp, ⟨0, ?_, rfl⟩, ?_, by rw [hids],
    fun _ => hids⟩
  · simp only [World.numbers, hids]
    exact le_of_eq (add_zero _).symm
  · rw [add_zero, hset', hcarried, holdings_takeCommand]
    change _ = _ + unwritten [p]
    abel
  · intro d hd
    change d ∈ (w.set (c.takeCommand p)).connections at hd
    rw [hset] at hd
    rcases List.mem_append.mp hd with hd | hd
    · exact ⟨d, by rw [he]; exact List.mem_append_left _ hd, [], by rw [List.append_nil],
        fun h => absurd rfl h⟩
    · rcases List.mem_cons.mp hd with rfl | hd
      · exact ⟨c, List.mem_of_find?_eq_some hc, [p], rfl, fun _ => ⟨p, by simp [hi]⟩⟩
      · exact ⟨d, by rw [he]; exact List.mem_append_right _ (List.mem_cons_of_mem _ hd), [], by
          rw [List.append_nil], fun h => absurd rfl h⟩

theorem coe_abort (c : Connection) :
    (↑c.abort : Multiset Report) = c.holdings.map fun h => h.dispatch.drop := by
  simp only [Connection.abort, Connection.held, Connection.holdings, OpenStreams.holdings,
    unwritten, Multiset.coe_add, Multiset.map_coe, List.map_append, List.map_map]
  rfl

theorem performed_abort (id : Nat) (hw : (w.connections.map Connection.id).Nodup) :
    w.Performed [.abort id] (w.perform (.abort id)) := by
  have hs : (w.remove id).connections.Sublist w.connections := List.filter_sublist
  refine ⟨rfl, ?_, fun id hm => .inl (List.mem_of_mem_filter hm), ?_, ?_, ?_, ?_, hs.map _, ?_⟩
  · refine le_trans ?_ (le_of_eq (add_zero _).symm)
    exact add_le_add (Multiset.coe_le.mpr List.filter_sublist.subperm)
      (Multiset.coe_le.mpr (hs.map _).subperm)
  · have h : Plain [.aborted id] := ⟨rfl, by simp⟩
    exact h.append (.reports _)
  · simp [perform, abort]
  · have hr : reported (w.perform (.abort id)).2 =
        ((w.find? id).map Connection.abort).getD [] := reported_map _
    cases hc : w.find? id with
    | none =>
      have hn : (w.remove id).connections = w.connections := by
        apply List.filter_eq_self.mpr
        intro c hm
        have hne := List.find?_eq_none.mp hc c hm
        simpa using hne
      refine ⟨0, ?_, ?_⟩
      · change ((w.remove id).connections.map Connection.holdings).sum + 0 = w.carried + 0
        rw [hn]
        rfl
      · rw [hr, hc]
        rfl
    | some c =>
      obtain ⟨rest, hcarried, -, hremove⟩ := carried_split hw hc
      refine ⟨c.holdings, ?_, ?_⟩
      · change (w.remove id).carried + c.holdings = w.carried + 0
        rw [hremove, hcarried, add_comm, add_zero]
      · rw [hr, hc]
        exact (coe_abort c).trans (zero_add _).symm
  · intro d hd
    exact ⟨d, hs.subset hd, [], by rw [List.append_nil], fun h => absurd rfl h⟩
  · intro h
    exact absurd List.mem_cons_self (h id)

theorem perform_performed (a : PoolAction) (w : World)
    (hw : (w.connections.map Connection.id).Nodup)
    (ha : ∀ id n, a = .handOff id n → (w.find? id).isSome = true)
    (hc : ∀ x, a = .count x → x.isConnection = true) : w.Performed [a] (w.perform a) := by
  cases a with
  | handOff id p => exact performed_handOff p hw (ha id p rfl)
  | abort id => exact performed_abort id hw
  | attempt id => exact .of_idle rfl rfl ⟨rfl, by simp⟩ (by simp) rfl rfl
  | count x =>
    refine .of_idle rfl (List.append_nil _).symm ⟨rfl, fun y hy => ?_⟩ (by simp) rfl rfl
    obtain rfl : y = x := by simpa using hy
    exact hc y rfl
  | report r | announce deadline | answer caller =>
    exact .of_idle rfl (List.append_nil _).symm ⟨rfl, by simp⟩ (by simp) rfl rfl

theorem Performed.cons {a : PoolAction} {as : List PoolAction} {e f : Effect}
    (he : w.Performed [a] e) (hf : e.1.Performed as f) :
    w.Performed (a :: as) (f.1, e.2 ++ f.2) := by
  obtain ⟨D, hD, hrD⟩ := he.carried
  obtain ⟨E, hE, hrE⟩ := hf.carried
  have happ {α : Type} (g : PoolAction → Option α) :
      (a :: as).filterMap g = [a].filterMap g ++ as.filterMap g :=
    List.filterMap_append (l := [a])
  refine ⟨?_, ?_, ?_, ?_, ?_, ⟨D + E, ?_, ?_⟩, ?_, hf.fewer.trans he.fewer, ?_⟩
  · rw [hf.frame, he.frame]
  · have h := le_trans hf.numbers (add_le_add_left he.numbers _)
    rw [happ, ← Multiset.coe_add, ← add_assoc]
    exact h
  · intro id hm
    rw [happ, List.mem_append]
    rcases hf.attempts id hm with hm | hm
    · exact (he.attempts id hm).imp (fun h => h) .inl
    · exact .inr (.inr hm)
  · exact he.plain.append hf.plain
  · intro c n p r hm
    exact (List.mem_append.mp hm).elim (he.unopened c n p r) (hf.unopened c n p r)
  · calc f.1.carried + (D + E) = f.1.carried + E + D := by abel
      _ = e.1.carried + D + unwritten (as.filterMap PoolAction.handed?) := by
        rw [hE]
        abel
      _ = w.carried + unwritten ((a :: as).filterMap PoolAction.handed?) := by
        rw [hD, happ, unwritten_append, add_assoc]
  · rw [reported_append, ← Multiset.coe_add, hrD, hrE, happ, ← Multiset.coe_add, Multiset.map_add]
    abel
  · intro d hd
    obtain ⟨c, hc, more, rfl, hmore⟩ := hf.same d hd
    obtain ⟨b, hb, less, rfl, hless⟩ := he.same c hc
    refine ⟨b, hb, less ++ more, by rw [List.append_assoc], fun hne => ?_⟩
    by_cases hl : less = []
    · obtain ⟨p, hp⟩ := hmore fun hm => hne (by rw [hl, hm]; rfl)
      exact ⟨p, List.mem_cons_of_mem a hp⟩
    · obtain ⟨p, hp⟩ := hless hl
      exact ⟨p, List.mem_cons.mpr (.inl (List.mem_singleton.mp hp))⟩
  · intro h
    rw [hf.kept fun id hm => h id (List.mem_cons_of_mem a hm),
      he.kept fun id hm => h id (List.mem_cons.mpr (.inl (List.mem_singleton.mp hm)))]

theorem each_performed (as : List PoolAction) (w : World)
    (hw : (w.connections.map Connection.id).Nodup)
    (hh : ∀ id n, .handOff id n ∈ as → (w.find? id).isSome = true)
    (hc : ∀ x, .count x ∈ as → x.isConnection = true)
    (ha : as.filterMap PoolAction.handed? = [] ∨ ∀ id, .abort id ∉ as) :
    w.Performed as (each perform w as) := by
  induction as generalizing w with
  | nil =>
    refine ⟨rfl, le_of_eq (add_zero _).symm, fun _ => .inl, .reports [], by simp, ⟨0, rfl, rfl⟩, ?_,
      .refl _, fun _ => rfl⟩
    exact fun d hd => ⟨d, hd, [], by rw [List.append_nil], fun h => absurd rfl h⟩
  | cons a as ih =>
    have he := perform_performed a w hw (fun id n hn => hh id n (hn ▸ List.mem_cons_self))
      fun x hx => hc x (hx ▸ List.mem_cons_self)
    have hc' := fun x hx => hc x (List.mem_cons_of_mem a hx)
    rw [each_cons]
    have hrest : as.filterMap PoolAction.handed? = [] ∨ ∀ id, .abort id ∉ as := by
      refine ha.imp (fun h => ?_) fun h id hm => h id (List.mem_cons_of_mem a hm)
      exact List.filterMap_eq_nil_iff.mpr fun b hb =>
        List.filterMap_eq_nil_iff.mp h b (List.mem_cons_of_mem a hb)
    refine he.cons (ih (w.perform a).1 (hw.sublist he.fewer) ?_ hc' hrest)
    intro id n hm
    rcases ha with ha | ha
    · have hn := List.filterMap_eq_nil_iff.mp ha _ (List.mem_cons_of_mem a hm)
      cases hn
    · have hk := he.kept fun id hn =>
        ha id (List.mem_cons.mpr (.inl (List.mem_singleton.mp hn)))
      rw [find?_isSome, hk, ← find?_isSome]
      exact hh id n (List.mem_cons_of_mem a hm)

end World

end PushDelivery
