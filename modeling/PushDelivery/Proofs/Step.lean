import Mathlib.Data.Multiset.UnionInter
import PushDelivery.Proofs.Effects
import PushDelivery.Proofs.Moves

namespace PushDelivery

namespace World

structure Tidy (w : World) : Prop where
  distinct : w.numbers.Nodup
  known : ∀ id ∈ w.numbers, id < w.pool.ids.next
  orderly : ∀ c ∈ w.connections, c.Orderly
  running : ∀ c ∈ w.connections, c.phase ≠ .closed
  settled : w.pool.ended = true → w.channel = [] ∧ w.pool.waiters = []

/-- A part of a move that accounts for what it starts with. -/
structure Deals (s : ConnectionSettings) (m : Move) (A : Multiset Holding) (w : World)
    (e : Effect) : Prop where
  tidy : e.1.Tidy
  passage : Passage s m A ↑(reported e.2) e.1.holdings
  plain : Plain e.2
  settings : e.1.settings = w.settings
  ids : e.1.ids = w.ids

variable {s : ConnectionSettings} {m : Move} {w : World}

theorem Tidy.connections (hw : w.Tidy) : (w.connections.map Connection.id).Nodup :=
  Multiset.coe_nodup.mp (Multiset.nodup_of_le (Multiset.le_add_left _ _) hw.distinct)

theorem find?_of_handOff {work : Pool.Work} {p : Pool} (h : work.Sound w.accepts p) {id : Nat}
    {n : Dispatch} (hm : .handOff id n ∈ work.actions) : (w.find? id).isSome = true := by
  obtain ⟨k, hk⟩ := h.accepted id n hm
  cases hc : w.find? id with
  | none => simp [World.accepts, hc] at hk
  | some c => rfl

section Performing

variable {p : Pool} {work : Pool.Work} {queue : List PoolMessage} {e : Effect}
  (hv : { w with pool := work.pool, channel := queue }.Performed work.actions e)

include hv

theorem performed_tidy (hw : w.Tidy) (hp : p.ids = w.pool.ids) (hs : work.Sound w.accepts p)
    (hend : work.pool.ended = true → queue = [] ∧ work.pool.waiters = []) : e.1.Tidy := by
  obtain ⟨k, hk, hn⟩ := hs.attempts
  have hnumbers : e.1.numbers ≤ w.numbers + ↑(List.range' p.ids.next k) := hk ▸ hv.numbers
  have hpool : e.1.pool = work.pool := by rw [hv.frame]
  have hqueue : e.1.channel = queue := by rw [hv.frame]
  have hnew : ∀ id ∈ List.range' p.ids.next k, id ∉ w.numbers := by
    intro id hm hn
    have hlt := hw.known id hn
    rw [← hp] at hlt
    have hge := (List.mem_range'_1.mp hm).1
    omega
  refine ⟨?_, ?_, ?_, ?_, ?_⟩
  · refine Multiset.nodup_of_le hnumbers (Multiset.nodup_add.mpr ⟨hw.distinct, ?_, ?_⟩)
    · exact Multiset.coe_nodup.mpr List.nodup_range'
    · exact Multiset.disjoint_left.mpr fun hm hr => hnew _ hr hm
  · intro id hm
    rw [hpool, hn]
    rcases Multiset.mem_add.mp (Multiset.mem_of_le hnumbers hm) with hm | hm
    · have hlt := hw.known id hm
      rw [← hp] at hlt
      omega
    · have hlt := (List.mem_range'_1.mp hm).2
      omega
  · intro d hd
    obtain ⟨c, hc, more, rfl, -⟩ := hv.same d hd
    exact ⟨(hw.orderly c hc).flight, (hw.orderly c hc).streams⟩
  · intro d hd
    obtain ⟨c, hc, more, rfl, -⟩ := hv.same d hd
    exact hw.running c hc
  · rw [hpool, hqueue]
    exact hend

theorem performed_passage {A : Multiset Holding} (h : work.Accounts A) :
    Passage s m (A + unwritten (queue.filterMap PoolMessage.dispatch?) + w.carried)
      ↑(reported e.2) e.1.holdings := by
  obtain ⟨F, hF, hr, rfl⟩ := h
  obtain ⟨D, hD, hrD⟩ := hv.carried
  have hpass := (Passage.stay (s := s) (m := m) e.1.holdings).add
    ((Passage.drop D).add (Passage.fails F hF))
  have hq : e.1.queued = unwritten (queue.filterMap PoolMessage.dispatch?) +
      unwritten work.pool.waiting := by
    rw [queued, hv.frame]
  have hcarried : w.carried + unwritten work.handed = e.1.carried + D := hD.symm
  convert hpass using 1
  · rw [holdings_eq, hq]
    calc _ = unwritten (queue.filterMap PoolMessage.dispatch?) + unwritten work.pool.waiting +
          (w.carried + unwritten work.handed) + unwritten (F.map Prod.fst) := by abel
      _ = _ := by
        rw [hcarried]
        abel
  · rw [hrD, hr]
    abel
  · rw [add_zero, add_zero]

end Performing

theorem performed_deals {p : Pool} {work : Pool.Work} {A : Multiset Holding} (hw : w.Tidy)
    (hp : p.ids = w.pool.ids) (h : work.Accounts A) (hs : work.Sound w.accepts p)
    (queue : List PoolMessage)
    (hend : work.pool.ended = true → queue = [] ∧ work.pool.waiters = []) :
    Deals s m (A + unwritten (queue.filterMap PoolMessage.dispatch?) + w.carried) w
      (each perform { w with pool := work.pool, channel := queue } work.actions) := by
  let v : World := { w with pool := work.pool, channel := queue }
  have hv : v.Performed work.actions (each perform v work.actions) :=
    each_performed work.actions v hw.connections
      (fun id n hm => find?_of_handOff (w := w) hs hm) hs.counts hs.apart
  exact ⟨performed_tidy hv hw hp hs hend, performed_passage hv h, hv.plain, by rw [hv.frame],
    by rw [hv.frame]⟩

theorem carryOut_deals {work : Pool.Work} {extra : List Dispatch} (hw : w.Tidy)
    (hne : w.pool.ended = false)
    (h : work.Accounts (unwritten (extra ++ w.pool.waiting)) ∧ work.Sound w.accepts w.pool)
    (ends : Bool) : Deals s m (unwritten extra + w.holdings) w (w.carryOut work ends) := by
  have hA (q : List PoolMessage) : unwritten (extra ++ w.pool.waiting) +
      unwritten (q.filterMap PoolMessage.dispatch?) + w.carried =
        unwritten extra + (unwritten (q.filterMap PoolMessage.dispatch?) +
          unwritten w.pool.waiting + w.carried) := by
    rw [unwritten_append]
    abel
  unfold carryOut
  split
  · obtain ⟨hacc, hs⟩ := Pool.finish_work w.channel h
    have hd := performed_deals (s := s) (m := m) (p := { w.pool with ended := true }) hw rfl
      hacc hs [] fun _ => ⟨rfl, rfl⟩
    convert hd using 1
    rw [holdings_eq, queued, ← hA w.channel]
    simp only [List.filterMap_nil, unwritten_nil, add_zero]
    rw [add_comm (unwritten (extra ++ _))]
  · have hd := performed_deals (s := s) (m := m) hw rfl h.1 h.2 w.channel fun he => by
      rw [h.2.ended, hne] at he
      cases he
    convert hd using 1
    rw [holdings_eq, queued, hA]

theorem Deals.of_stay {v : World} (hs : List Happening) (hv : v.Tidy)
    (hh : v.holdings = w.holdings) (hset : v.settings = w.settings) (hi : v.ids = w.ids)
    (hr : reported hs = []) (hp : Plain hs) : Deals s m w.holdings w (v, hs) where
  tidy := hv
  passage := by
    rw [hr, ← hh]
    exact Passage.stay v.holdings
  plain := hp
  settings := hset
  ids := hi

theorem Deals.after {v : World} {A : Multiset Holding} {e : Effect} (h : Deals s m A v e)
    (hs : List Happening) (hset : v.settings = w.settings) (hi : v.ids = w.ids)
    (hr : reported hs = []) (hp : Plain hs) :
    Deals s m A w (e.1, hs ++ e.2) where
  tidy := h.tidy
  passage := by
    rw [reported_append, hr, List.nil_append]
    exact h.passage
  plain := hp.append h.plain
  settings := h.settings.trans hset
  ids := h.ids.trans hi

theorem Tidy.tell (hw : w.Tidy) (msg : PoolMessage) : (w.tell msg).1.Tidy := by
  unfold World.tell
  split
  · cases msg <;> exact hw
  · rename_i he
    exact ⟨hw.distinct, hw.known, hw.orderly, hw.running, fun h => absurd h he⟩

theorem tell_deals (hw : w.Tidy) (msg : PoolMessage)
    (hm : w.pool.ended = true → ∀ p, msg ≠ .submit p) :
    Deals s m (unwritten msg.dispatch?.toList + w.holdings) w (w.tell msg) := by
  have htidy := hw.tell msg
  unfold World.tell at htidy ⊢
  split at htidy
  · rename_i he
    rw [if_pos he]
    cases msg with
    | submit p => exact absurd rfl (hm he p)
    | resubmit p =>
      refine ⟨htidy, ?_, .reports [p.drop], rfl, rfl⟩
      have hp := (Passage.one (.fail p .streamClosed (by simp))).add
        (Passage.stay (s := s) (m := m) w.holdings)
      change Passage s m _ _ (0 + w.holdings) at hp
      rw [add_zero, zero_add] at hp
      exact hp
    | _ =>
      have hp : Deals s m w.holdings w (w, []) := .of_stay [] hw rfl rfl rfl rfl (.reports [])
      simpa [PoolMessage.dispatch?] using hp
  · rename_i he
    rw [if_neg he]
    have hh : { w with channel := w.channel ++ [msg] }.holdings =
        unwritten msg.dispatch?.toList + w.holdings := by
      simp only [holdings, List.filterMap_append, unwritten_append]
      rw [show [msg].filterMap PoolMessage.dispatch? = msg.dispatch?.toList by
        cases msg <;> rfl]
      abel
    refine ⟨htidy, ?_, ⟨rfl, by simp⟩, rfl, rfl⟩
    rw [← hh]
    exact Passage.stay _

theorem notify_deals {v : World} (hv : v.Tidy) (msg : PoolMessage) (hm : msg.dispatch? = none)
    (hh : v.holdings = w.holdings) (hset : v.settings = w.settings) (hi : v.ids = w.ids) :
    Deals s m w.holdings w (v.tell msg) := by
  have ht := tell_deals (s := s) (m := m) hv msg fun _ p hp => by
    rw [hp] at hm
    cases hm
  rw [hm, hh] at ht
  change Deals s m (0 + w.holdings) v _ at ht
  rw [zero_add] at ht
  exact ht.after [] hset hi rfl (.reports [])

theorem Tidy.settle {id : Nat} {c : Connection} {d : Connection} (hw : w.Tidy)
    (hc : w.find? id = some c) (hd : d.id = id) (ho : d.Orderly) (channel : List PoolMessage)
    (he : w.pool.ended = true → channel = w.channel) :
    { (if d.phase = ConnectionPhase.closed then w.remove id else w.set d) with
      channel := channel }.Tidy := by
  obtain ⟨hi, before, after, hbefore, hset, hremove⟩ := split_of_find? hw.connections hc
  have hset := hset d hd
  split
  · have hs : (w.remove id).connections.Sublist w.connections := List.filter_sublist
    have hn : (w.remove id).numbers ≤ w.numbers :=
      add_le_add (le_refl _) (Multiset.coe_le.mpr (hs.map _).subperm)
    refine ⟨Multiset.nodup_of_le hn hw.distinct, ?_, ?_, ?_, ?_⟩
    · exact fun n hm => hw.known n (Multiset.mem_of_le hn hm)
    · exact fun e hm => hw.orderly e (hs.subset hm)
    · exact fun e hm => hw.running e (hs.subset hm)
    · intro h
      rw [he h]
      exact hw.settled h
  · rename_i hphase
    have hn : (w.set d).numbers = w.numbers := by
      simp only [numbers, hset, hbefore, List.map_append, List.map_cons, hd, hi]
      rfl
    have hmem : ∀ e ∈ (w.set d).connections, e = d ∨ e ∈ w.connections := by
      intro e hm
      rw [hset] at hm
      rw [hbefore]
      rcases List.mem_append.mp hm with hm | hm
      · exact .inr (List.mem_append_left _ hm)
      · exact (List.mem_cons.mp hm).imp (fun h => h) fun hm =>
          List.mem_append_right _ (List.mem_cons_of_mem c hm)
    refine ⟨?_, ?_, ?_, ?_, ?_⟩
    · change (w.set d).numbers.Nodup
      rw [hn]
      exact hw.distinct
    · intro n hm
      change n ∈ (w.set d).numbers at hm
      rw [hn] at hm
      exact hw.known n hm
    · intro e hm
      rcases hmem e hm with rfl | hm
      · exact ho
      · exact hw.orderly e hm
    · intro e hm
      rcases hmem e hm with rfl | hm
      · exact hphase
      · exact hw.running e hm
    · intro h
      rw [he h]
      exact hw.settled h

theorem settle_deals {id : Nat} {c : Connection} {o : Connection.Effect} (hw : w.Tidy)
    (hc : w.find? id = some c) (ho : Connection.Passes s m id c.holdings o)
    (hend : o.1.phase = .closed → o.1.holdings = 0) : Deals s m w.holdings w (w.settle o) := by
  obtain ⟨channel, hv, hs, he, hp⟩ := settle_passage hw.connections hc ho hend
  refine ⟨?_, hp, hs, ?_, ?_⟩
  · rw [hv]
    exact hw.settle hc ho.same ho.orderly channel he
  · rw [hv]
    split <;> rfl
  · rw [hv]
    split <;> rfl

/-- The notification that a move brings in. -/
def entering (w : World) : Move → List Dispatch
  | .send n => if w.isOpen then [w.incoming n] else []
  | .submit n => [w.incoming n]
  | _ => []

/-- What every move keeps and does. -/
structure Accounts (w : World) (m : Move) (e : Effect) : Prop where
  tidy : e.1.Tidy
  passage : Passage w.settings m (unwritten (w.entering m) + w.holdings) ↑(reported e.2)
    e.1.holdings
  submitted : submitted e.2 = w.entering m
  counts : ∀ x, .count x ∈ e.2 → x.isConnection = true
  settings : e.1.settings = w.settings
  ids : e.1.ids.next = w.ids.next + (w.entering m).length

theorem Deals.accounts {e : Effect} (h : Deals w.settings m w.holdings w e)
    (hm : w.entering m = []) : w.Accounts m e where
  tidy := h.tidy
  passage := by
    rw [hm, unwritten_nil, zero_add]
    exact h.passage
  submitted := by rw [hm, h.plain.submitted]
  counts := h.plain.counts
  settings := h.settings
  ids := by rw [hm, h.ids]; rfl

theorem Tidy.withConnection {id : Nat} (hw : w.Tidy) (hm : id ∈ w.attempts)
    (hend : w.pool.ended = false) :
    (w.withConnection id).Tidy ∧
      (w.withConnection id).find? id = some (Connection.start w.settings id w.time) := by
  have hnew : id ∉ w.connections.map Connection.id := by
    intro hn
    exact Multiset.disjoint_left.mp (Multiset.nodup_add.mp hw.distinct).2.2 hm hn
  have hnumbers : (w.withConnection id).numbers ≤ w.numbers := by
    have hle : {id} + (↑(w.attempts.filter (· != id)) : Multiset Nat) ≤ ↑w.attempts := by
      have hperm := (List.perm_cons_erase hm).symm.subperm
      have hsub : (w.attempts.filter (· != id)).Sublist (w.attempts.erase id) := by
        rw [(Multiset.coe_nodup.mp (Multiset.nodup_add.mp hw.distinct).1).erase_eq_filter]
      exact Multiset.coe_le.mpr ((hsub.cons_cons id).subperm.trans hperm)
    calc (w.withConnection id).numbers = {id} + ↑(w.attempts.filter (· != id)) +
          ↑(w.connections.map Connection.id) := by
          simp only [numbers, World.withConnection, List.map_append, ← Multiset.coe_add,
            List.map_cons]
          change _ + (_ + ({id} : Multiset Nat)) = _
          abel
      _ ≤ w.numbers := add_le_add hle (le_refl _)
  refine ⟨⟨Multiset.nodup_of_le hnumbers hw.distinct, ?_, ?_, ?_, ?_⟩, ?_⟩
  · exact fun n hn => hw.known n (Multiset.mem_of_le hnumbers hn)
  · intro d hd
    rcases List.mem_append.mp hd with hd | hd
    · exact hw.orderly d hd
    · obtain rfl := List.mem_singleton.mp hd
      exact Connection.start_orderly _ _ _
  · intro d hd
    rcases List.mem_append.mp hd with hd | hd
    · exact hw.running d hd
    · obtain rfl := List.mem_singleton.mp hd
      simp [Connection.start]
  · intro hended
    exact Bool.noConfusion (hend.symm.trans hended)
  · change (w.connections ++ [Connection.start w.settings id w.time]).find?
      (fun d => d.id == id) = _
    rw [List.find?_append, List.find?_eq_none.mpr]
    · simp [Connection.start]
    · intro d hd hn
      exact hnew (List.mem_map.mpr ⟨d, hd, by simpa using hn⟩)

theorem drainUntil_open {c : Connection} (hc : c.phase = .connected) (deadline : Moment) :
    (c.drainUntil deadline).1.phase ≠ .closed := by
  rcases Connection.drainUntil_fades (p := .connected) (.inl hc) deadline with hf | ⟨t, hf⟩
  · simp [hf]
  · simp [hf]

theorem bringUp_deals {id : Nat} (hw : w.Tidy) (hm : id ∈ w.attempts)
    (hend : w.pool.ended = false) : Deals s m w.holdings w (w.bringUp id) := by
  obtain ⟨hv, hfind⟩ := hw.withConnection hm hend
  have hstay : (w.withConnection id).holdings = w.holdings := by
    have hn : unwritten ([PoolMessage.established id].filterMap PoolMessage.dispatch?) = 0 := rfl
    have hc : (Connection.start w.settings id w.time).holdings = 0 := rfl
    simp only [holdings, World.withConnection, List.filterMap_append, unwritten_append, hn,
      List.map_append, List.sum_append, List.map_cons, hc]
    simp
  unfold bringUp andThen
  dsimp only
  split
  · exact .of_stay _ hv hstay rfl rfl rfl ⟨rfl, by simp⟩
  · rename_i deadline ha
    rw [← hstay]
    have hp := Connection.drainUntil_passes (s := s) (m := m)
      (Connection.start_orderly w.settings id w.time) deadline
    exact (settle_deals hv hfind hp fun hclosed =>
      absurd hclosed (drainUntil_open rfl deadline)).after _ rfl rfl rfl ⟨rfl, by simp⟩

theorem submit_accounts {n : Notification} {v : World} (hm : w.entering m = [w.incoming n])
    (hv : v.Tidy) (hh : v.holdings = w.holdings) (hs : v.settings = w.settings)
    (hids : v.ids = ⟨w.ids.next + 1⟩) (he : v.pool.ended = false) :
    w.Accounts m (andThen (v, [.submitted (w.incoming n)])
      fun v => v.tell (.submit (w.incoming n))) := by
  have ht := tell_deals (s := w.settings) (m := m) hv (.submit (w.incoming n))
    fun h => absurd (he.symm.trans h) (by simp)
  refine ⟨ht.tidy, ?_, ?_, ?_, ht.settings.trans hs, ?_⟩
  · rw [hm, ← hh]
    exact ht.passage
  · have hplain := ht.plain.submitted
    unfold andThen
    dsimp only
    rw [submitted_append, hplain, hm]
    rfl
  · exact fun x hx => ht.plain.counts x ((List.mem_cons.mp hx).resolve_left (by simp))
  · rw [hm]
    exact congrArg IdSupply.next (ht.ids.trans hids)

theorem submitLate_accounts {n : Notification} {v : World} (hm : w.entering m = [w.incoming n])
    (hv : v.Tidy) (hh : v.holdings = w.holdings) (hs : v.settings = w.settings)
    (hids : v.ids = ⟨w.ids.next + 1⟩) :
    w.Accounts m (v, [.submitted (w.incoming n),
      .report ((w.incoming n).fail .clientClosed)]) := by
  refine ⟨hv, ?_, hm.symm, by simp, hs, ?_⟩
  · rw [hm, hh]
    have hpass := (Passage.one (.fail (w.incoming n) .clientClosed (by simp))).add
      (Passage.stay (s := w.settings) (m := m) w.holdings)
    change Passage w.settings _ _ _ (0 + w.holdings) at hpass
    rw [add_zero, zero_add] at hpass
    exact hpass
  · rw [hm]
    exact congrArg IdSupply.next hids

theorem pool_accounts {msg : PoolMessage} {rest : List PoolMessage} (hw : w.Tidy)
    (hc : w.channel = msg :: rest) (hne : w.pool.ended = false) :
    w.Accounts .pool
      ({ w with channel := rest }.carryOut (w.pool.onMessage w.accepts w.time msg) false) := by
  have hv : { w with channel := rest }.Tidy :=
    ⟨hw.distinct, hw.known, hw.orderly, hw.running, fun h => absurd (hne.symm.trans h) (by simp)⟩
  have hd : Deals w.settings .pool _ _
      ({ w with channel := rest }.carryOut (w.pool.onMessage w.accepts w.time msg) false) :=
    carryOut_deals hv hne (Pool.onMessage_work w.pool msg) false
  refine Deals.accounts ⟨hd.tidy, ?_, hd.plain, hd.settings, hd.ids⟩ rfl
  have hq : (msg :: rest).filterMap PoolMessage.dispatch? =
      msg.dispatch?.toList ++ rest.filterMap PoolMessage.dispatch? := by
    cases msg <;> rfl
  convert hd.passage using 1
  simp only [holdings, hc, hq, unwritten_append]
  abel

theorem Tidy.without_attempt (hw : w.Tidy) (id : Nat) :
    { w with attempts := w.attempts.filter (· != id) }.Tidy := by
  have hn : { w with attempts := w.attempts.filter (· != id) }.numbers ≤ w.numbers :=
    add_le_add (Multiset.coe_le.mpr List.filter_sublist.subperm) (le_refl _)
  exact ⟨Multiset.nodup_of_le hn hw.distinct, fun n hm => hw.known n (Multiset.mem_of_le hn hm),
    hw.orderly, hw.running, hw.settled⟩

theorem Tidy.entered (hw : w.Tidy) {ids : IdSupply} {passing : Nat} :
    { w with ids := ids, passing := passing }.Tidy :=
  ⟨hw.distinct, hw.known, hw.orderly, hw.running, hw.settled⟩

theorem Tidy.closed (hw : w.Tidy) : { w with isOpen := false }.Tidy :=
  ⟨hw.distinct, hw.known, hw.orderly, hw.running, hw.settled⟩

theorem connection_accounts {c : Connection} {now : Present} {i : ConnectionInput} (hw : w.Tidy)
    (hc : w.find? c.id = some c) :
    w.Accounts (.connection c.id i) (w.settle (c.step w.settings now i)) := by
  have hm := List.mem_of_find?_eq_some hc
  have hp := Connection.step_passes (s := w.settings) (hw.orderly c hm) now i
  refine Deals.accounts (settle_deals hw hc hp fun hclosed => ?_) rfl
  rcases Connection.step_fades (s := w.settings) now c i with (hf | ⟨t, hf⟩) | ⟨-, hz⟩
  · exact absurd (hf.symm.trans hclosed) (hw.running c hm)
  · simp [hf] at hclosed
  · exact hz

/-- Every move accounts for every notification, and keeps the client tidy. -/
theorem step?_accounts {date : Instant} {secret : P256.Scalar} {e : Effect} (hw : w.Tidy)
    (h : w.step? date secret m = some e) : w.Accounts m e := by
  cases makes_of_step? h with
  | wait d =>
    have hv : { w with time := Moment.after w.time d }.Tidy :=
      ⟨hw.distinct, hw.known, hw.orderly, hw.running, hw.settled⟩
    exact Deals.accounts (.of_stay [] hv rfl rfl rfl rfl (.reports [])) rfl
  | send n ho he => exact submit_accounts (if_pos ho) hw.entered rfl rfl rfl he
  | sendLate n ho he => exact submitLate_accounts (if_pos ho) hw.entered rfl rfl rfl
  | submit n hp he => exact submit_accounts rfl hw.entered rfl rfl rfl he
  | submitLate n hp he => exact submitLate_accounts rfl hw.entered rfl rfl rfl
  | refuse n ho =>
    have hn : w.entering (.send n) = [] := if_neg (by simp [ho])
    exact Deals.accounts (.of_stay [.refused] hw rfl rfl rfl rfl ⟨rfl, by simp⟩) hn
  | pass ho =>
    have hv : { w with passing := w.passing + 1 }.Tidy :=
      ⟨hw.distinct, hw.known, hw.orderly, hw.running, hw.settled⟩
    exact Deals.accounts (.of_stay [] hv rfl rfl rfl rfl (.reports [])) rfl
  | close caller he =>
    exact Deals.accounts (notify_deals hw.closed (.shutdown (some caller)) rfl rfl rfl rfl) rfl
  | closeLate caller he =>
    exact Deals.accounts
      (.of_stay [.answered caller] hw.closed rfl rfl rfl rfl ⟨rfl, by simp⟩) rfl
  | leave ho => exact Deals.accounts (notify_deals hw.closed (.shutdown none) rfl rfl rfl rfl) rfl
  | leaveLate ho => exact Deals.accounts (.of_stay [] hw rfl rfl rfl rfl (.reports [])) rfl
  | pool hc he => exact pool_accounts hw hc he
  | @timer t he hd =>
    have hd : Deals w.settings (.timer t) (unwritten [] + w.holdings) w
        (w.carryOut (w.pool.onTimer w.time t) (t == .force)) :=
      carryOut_deals hw he (Pool.onTimer_work w.pool t) _
    rw [unwritten_nil, zero_add] at hd
    exact hd.accounts rfl
  | @connected id hm he =>
    exact Deals.accounts (bringUp_deals hw hm he) rfl
  | @connectedLate id hm he =>
    exact Deals.accounts (.of_stay [] (hw.without_attempt id) rfl rfl rfl rfl (.reports [])) rfl
  | @attemptFailed id cause hm =>
    exact Deals.accounts (notify_deals (hw.without_attempt id) (.attemptFailed id cause) rfl rfl
      rfl rfl) rfl
  | connection hc ha hallows => exact connection_accounts hw hc

/-- A client before its pool has done anything. -/
def blank (config : ClientConfig) : World where
  settings := .ofConfig config
  pool := .ofConfig config

theorem blank_tidy (config : ClientConfig) : (blank config).Tidy where
  distinct := by simp [blank, numbers]
  known := by simp [blank, numbers]
  orderly := by simp [blank]
  running := by simp [blank]
  settled := by simp [blank, Pool.ofConfig]

theorem start_tidy (config : ClientConfig) :
    (start config).1.Tidy ∧ (start config).1.holdings = 0 ∧
      (start config).1.settings = .ofConfig config := by
  have hd : Deals (.ofConfig config) .pool (unwritten [] + (blank config).holdings) (blank config)
      (start config) :=
    carryOut_deals (blank_tidy config) rfl
      (Pool.fill_work (blank config).pool { pool := (blank config).pool } rfl rfl rfl rfl) false
  refine ⟨hd.tidy, ?_, hd.settings⟩
  have hp := hd.passage
  rw [show unwritten [] + (blank config).holdings = 0 from rfl] at hp
  exact hp.of_nothing.2

end World

end PushDelivery
