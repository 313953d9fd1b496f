import PushDelivery.Proofs.Components
import PushDelivery.Proofs.PoolStrength
import PushDelivery.Proofs.WorkConservation

namespace PushDelivery

namespace PoolMessage

/-- Whether a message tells of the course of a connection. -/
def tellsOf (id : Nat) (m : PoolMessage) : Bool :=
  m.about? == some id

def isNews (m : PoolMessage) : Bool :=
  m.about?.isSome

theorem filter_news (id : Nat) (l : List PoolMessage) :
    (l.filter isNews).filter (tellsOf id) = l.filter (tellsOf id) := by
  rw [List.filter_filter]
  apply List.filter_congr
  intro m _
  cases ha : m.about? with
  | none => simp [isNews, tellsOf, ha]
  | some i => simp [isNews, ha]

theorem filter_of_about {id : Nat} {m : PoolMessage} (h : m.about? = some id) (n : Nat) :
    [m].filter (tellsOf n) = if n = id then [m] else [] := by
  by_cases hn : n = id
  · simp [tellsOf, h, hn]
  · simp [tellsOf, h, hn, Ne.symm hn]

end PoolMessage

open PoolMessage

/-- All that can be said of the course of a connection. -/
def IsCourse (id : Nat) (l : List PoolMessage) : Prop :=
  l <+: [.established id, .draining id, .closed id] ∨ ∃ cause, l = [.attemptFailed id cause]

theorem IsCourse.of_ends {id : Nat} {m : PoolMessage} (h : m.ends? = some id) :
    IsCourse id [m] := by
  cases m with
  | established i =>
    obtain rfl := Option.some.inj h
    exact .inl (List.prefix_append [_] _)
  | attemptFailed i cause =>
    obtain rfl := Option.some.inj h
    exact .inr ⟨cause, rfl⟩
  | _ => cases h

theorem IsCourse.before {id : Nat} {l rest : List PoolMessage} {m : PoolMessage}
    (h : IsCourse id (l ++ m :: rest)) :
    (m.ends? = some id ∧ l = []) ∨ (m = .draining id ∧ l = [.established id]) ∨
      (m = .closed id ∧ l = [.established id, .draining id]) := by
  rcases h with ⟨post, h⟩ | ⟨cause, h⟩
  · rcases l with _ | ⟨x, _ | ⟨y, _ | ⟨z, l⟩⟩⟩
    · obtain ⟨rfl, -⟩ := List.cons.inj h
      exact .inl ⟨rfl, rfl⟩
    · obtain ⟨rfl, hlater⟩ := List.cons.inj h
      obtain ⟨rfl, -⟩ := List.cons.inj hlater
      exact .inr (.inl ⟨rfl, rfl⟩)
    · obtain ⟨rfl, hlater⟩ := List.cons.inj h
      obtain ⟨rfl, hlast⟩ := List.cons.inj hlater
      obtain ⟨rfl, -⟩ := List.cons.inj hlast
      exact .inr (.inr ⟨rfl, rfl⟩)
    · simp at h
  · cases l with
    | nil =>
      obtain ⟨rfl, -⟩ := List.cons.inj h
      exact .inl ⟨rfl, rfl⟩
    | cons x l => simp at h

namespace Connection

variable {c : Connection} {o : Effect}

/-- What a step of a connection says of its course. -/
inductive News (c : Connection) : Connection → List PoolMessage → Prop
  | nothing {d : Connection} (phase : d.phase = .connected ↔ c.phase = .connected) : News c d []
  | drains {d : Connection} (connected : c.phase = .connected) (drained : d.phase ≠ .connected) :
      News c d [.draining c.id]
  | ends {d : Connection} (drained : c.phase ≠ .connected) (closed : d.phase = .closed) :
      News c d [.closed c.id]

theorem News.filter_other {d : Connection} {news : List PoolMessage} (h : News c d news) {n : Nat}
    (hn : n ≠ c.id) : news.filter (tellsOf n) = [] := by
  cases h with
  | nothing => rfl
  | drains => rw [filter_of_about rfl, if_neg hn]
  | ends => rw [filter_of_about rfl, if_neg hn]

theorem Goes.id_eq (h : Goes c o) : o.1.id = c.id := by
  cases h <;> assumption

theorem news_of_silent {as : List ConnectionAction} (h : ∀ a ∈ as, a.isSilent = true) :
    (told as).filter isNews = [] := by
  rw [told_of_silent h]
  rfl

theorem news_of_late {as : List ConnectionAction} (h : ∀ a ∈ as, a.isLate = true) :
    (told as).filter isNews = [] := by
  rw [told_of_late h, List.filter_eq_nil_iff]
  intro m hm
  obtain ⟨p, -, rfl⟩ := List.mem_map.mp hm
  simp [isNews, about?]

theorem Goes.news (h : Goes c o) : News c o.1 ((told o.2).filter isNews) := by
  cases h with
  | @on d as same phase blocked reports =>
    have hnone := news_of_silent fun a ha => ConnectionAction.isSilent_of_report (reports a ha)
    rw [hnone]
    exact .nothing (by rw [phase])
  | @writes d as same connected phase blocked silent =>
    rw [news_of_silent silent]
    exact .nothing (by rw [phase, connected])
  | @flips d same connected phase blocked =>
    exact .nothing (by rw [phase, connected])
  | @drains d t as bs same connected phase silent late =>
    have hone : (told (as ++ .tell (.draining c.id) :: bs)).filter isNews = [.draining c.id] := by
      rw [told_append, List.filter_append, news_of_silent silent, told_tell, List.filter_cons,
        news_of_late late]
      rfl
    rw [hone]
    exact .drains connected (by simp [phase])
  | @lingers d t u as same draining phase late =>
    rw [news_of_late late]
    exact .nothing (by simp [phase, draining])
  | @ends d t as same draining phase late =>
    have hone : (told (as ++ [.tell (.closed c.id)])).filter isNews = [.closed c.id] := by
      rw [told_append, List.filter_append, news_of_late late]
      rfl
    rw [hone]
    exact .ends (by simp [draining]) phase

end Connection

namespace World

/-- What has been said of the course of a connection, whether the pool has heard it or not. -/
def said (id : Nat) (ts : List PoolTurn) (w : World) : List PoolMessage :=
  milestones id ts ++ w.channel.filter (tellsOf id)

/-- What has been said of a connection fits with where it is. -/
structure Fits (w : World) (id : Nat) (l : List PoolMessage) : Prop where
  course : IsCourse id l
  attempt : id ∈ w.attempts → l = []
  serves : ∀ c ∈ w.connections, c.id = id → c.phase = .connected → l = [.established id]
  drains : ∀ c ∈ w.connections, c.id = id → c.phase ≠ .connected →
    l = [.established id, .draining id]

variable {config : ClientConfig} {ts : List PoolTurn} {w v : World} {id : Nat}
  {l new : List PoolMessage}

theorem Fits.of_fewer (h : w.Fits id l) (ha : id ∈ v.attempts → l = [])
    (hc : ∀ d ∈ v.connections, d.id = id → ∃ c ∈ w.connections, c.id = id ∧ c.phase = d.phase) :
    v.Fits id l where
  course := h.course
  attempt := ha
  serves := by
    intro d hd hid hp
    obtain ⟨c, hc, hcid, hphase⟩ := hc d hd hid
    exact h.serves c hc hcid (hphase.trans hp)
  drains := by
    intro d hd hid hp
    obtain ⟨c, hc, hcid, hphase⟩ := hc d hd hid
    exact h.drains c hc hcid (hphase ▸ hp)

/-- The pool has run, and heard of every connection in order. -/
structure Ordered (config : ClientConfig) (ts : List PoolTurn) (w : World) : Prop where
  run : PoolRun config ts w.pool
  order : InOrder config ts
  fits : ∀ id, w.Fits id (w.said id ts)
  begun : ∀ id, w.said id ts ≠ [] ∨ id ∈ w.attempts → id ∈ started config ts

theorem said_append (hv : v.channel = w.channel ++ new) (id : Nat) :
    v.said id ts = w.said id ts ++ new.filter (tellsOf id) := by
  rw [said, said, hv, List.filter_append, List.append_assoc]

theorem filter_of_quiet (h : ∀ m ∈ new, m.about? = none) (id : Nat) :
    new.filter (tellsOf id) = [] := by
  apply List.filter_eq_nil_iff.mpr
  intro m hm
  simp [tellsOf, h m hm]

theorem Ordered.quiet (h : Ordered config ts w) (new : List PoolMessage)
    (hnew : ∀ m ∈ new, m.about? = none) (hp : v.pool = w.pool) (ha : v.attempts = w.attempts)
    (hc : v.connections = w.connections) (hv : v.channel = w.channel ++ new) :
    Ordered config ts v := by
  have hsaid (id : Nat) : v.said id ts = w.said id ts := by
    rw [said_append hv, filter_of_quiet hnew, List.append_nil]
  refine ⟨hp ▸ h.run, h.order, fun id => ?_, fun id hid => ?_⟩
  · rw [hsaid]
    refine (h.fits id).of_fewer (fun hid => (h.fits id).attempt (ha ▸ hid)) fun d hd hid => ?_
    exact ⟨d, hc ▸ hd, hid, rfl⟩
  · rw [hsaid, ha] at hid
    exact h.begun id hid

theorem Ordered.ends {m : PoolMessage} (cs : List Connection) (h : Ordered config ts w)
    (hw : w.Tidy) (hid : id ∈ w.attempts) (hm : m.ends? = some id)
    (hcs : ∀ c ∈ cs, c.id = id ∧ c.phase = .connected ∧ m = .established id) :
    Ordered config ts { w with
      attempts := w.attempts.filter (· != id)
      connections := w.connections ++ cs
      channel := w.channel ++ [m] } := by
  have habout : m.about? = some id := about_of_ends hm
  have hnone : w.said id ts = [] := (h.fits id).attempt hid
  have hnot : ∀ c ∈ w.connections, c.id ≠ id := fun c hc he => (hw.made hc).given (he ▸ hid)
  refine ⟨h.run, h.order, fun n => ?_, fun n hn => ?_⟩
  · rw [said_append rfl, filter_of_about habout]
    by_cases hn : n = id
    · subst hn
      rw [hnone, if_pos rfl, List.nil_append]
      refine ⟨IsCourse.of_ends hm, fun hattempt => ?_, fun c hc hcid hp => ?_,
        fun c hc hcid hp => ?_⟩
      · simp at hattempt
      · rcases List.mem_append.mp hc with hc | hc
        · exact absurd hcid (hnot c hc)
        · rw [(hcs c hc).2.2]
      · rcases List.mem_append.mp hc with hc | hc
        · exact absurd hcid (hnot c hc)
        · exact absurd (hcs c hc).2.1 hp
    · rw [if_neg hn, List.append_nil]
      refine (h.fits n).of_fewer (fun hattempt => ?_) fun d hd hdid => ?_
      · exact (h.fits n).attempt (List.mem_of_mem_filter hattempt)
      · rcases List.mem_append.mp hd with hd | hd
        · exact ⟨d, hd, hdid, rfl⟩
        · exact absurd (hdid.symm.trans (hcs d hd).1) hn
  · by_cases he : n = id
    · exact h.begun n (.inr (he ▸ hid))
    · rw [said_append rfl, filter_of_about habout, if_neg he, List.append_nil] at hn
      exact h.begun n (hn.imp_right List.mem_of_mem_filter)

theorem each_act_channel (id : Nat) (as : List ConnectionAction) (w : World)
    (hr : w.pool.ended = false) :
    (each (act id) w as).1 = { w with channel := w.channel ++ Connection.told as } := by
  induction as generalizing w with
  | nil => simp [Connection.told]
  | cons a as ih =>
    rw [each_cons]
    dsimp only
    cases a with
    | tell m =>
      have ha : (w.act id (.tell m)).1 = { w with channel := w.channel ++ [m] } := by
        simp [act, tell, hr]
      rw [ha, ih { w with channel := w.channel ++ [m] } hr, Connection.told_tell,
        List.append_assoc]
      rfl
    | report r | opened n p r => exact ih w hr

theorem settle_eq (o : Connection.Effect) (hr : w.pool.ended = false) :
    (w.settle o).1 = { (if o.1.phase = .closed then w.remove o.1.id else w.set o.1) with
      channel := w.channel ++ Connection.told o.2 } := by
  unfold settle
  dsimp only
  split
  · exact each_act_channel o.1.id o.2 (w.remove o.1.id) hr
  · exact each_act_channel o.1.id o.2 (w.set o.1) hr

theorem Fits.news {c d : Connection} {news : List PoolMessage} (h : w.Fits c.id l)
    (hc : c ∈ w.connections) (hs : Connection.News c d news) (ha : c.id ∉ v.attempts)
    (hd : ∀ e ∈ v.connections, e.id = c.id → e = d ∧ d.phase ≠ .closed) :
    v.Fits c.id (l ++ news.filter (tellsOf c.id)) := by
  cases hs with
  | nothing phase =>
    rw [List.filter_nil, List.append_nil]
    refine ⟨h.course, fun hm => absurd hm ha, fun e he hid hp => ?_, fun e he hid hp => ?_⟩
    · obtain ⟨rfl, -⟩ := hd e he hid
      exact h.serves c hc rfl (phase.mp hp)
    · obtain ⟨rfl, -⟩ := hd e he hid
      exact h.drains c hc rfl fun hcp => hp (phase.mpr hcp)
  | drains connected drained =>
    rw [h.serves c hc rfl connected, filter_of_about rfl, if_pos rfl]
    refine ⟨.inl (List.prefix_append [_, _] _), fun hm => absurd hm ha, fun e he hid hp => ?_,
      fun e he hid hp => rfl⟩
    obtain ⟨rfl, -⟩ := hd e he hid
    exact absurd hp drained
  | ends drained closed =>
    rw [h.drains c hc rfl drained, filter_of_about rfl, if_pos rfl]
    have hgone : ∀ e ∈ v.connections, e.id ≠ c.id := fun e he hid => (hd e he hid).2 closed
    exact ⟨.inl List.prefix_rfl, fun hm => absurd hm ha,
      fun e he hid => absurd hid (hgone e he), fun e he hid => absurd hid (hgone e he)⟩

theorem Fits.ne_nil {c : Connection} (h : w.Fits c.id l) (hc : c ∈ w.connections) : l ≠ [] := by
  intro hnone
  by_cases hp : c.phase = .connected
  · simp [h.serves c hc rfl hp] at hnone
  · simp [h.drains c hc rfl hp] at hnone

theorem mem_settle {o : Connection.Effect} (hr : w.pool.ended = false) {d : Connection}
    (hd : d ∈ (w.settle o).1.connections) :
    d ∈ w.connections ∧ d.id ≠ o.1.id ∨ d = o.1 ∧ o.1.phase ≠ .closed := by
  rw [settle_eq o hr] at hd
  by_cases hp : o.1.phase = .closed
  · simp only [if_pos hp] at hd
    obtain ⟨hd, hne⟩ := List.mem_filter.mp hd
    exact .inl ⟨hd, by simpa using hne⟩
  · simp only [if_neg hp] at hd
    exact (mem_set rfl hd).imp_right fun he => ⟨he, hp⟩

theorem Ordered.settle {c : Connection} {o : Connection.Effect} (h : Ordered config ts w)
    (hc : c ∈ w.connections) (ho : Connection.Goes c o) (hr : w.pool.ended = false) :
    Ordered config ts (w.settle o).1 := by
  have hid := ho.id_eq
  obtain ⟨hpool, hattempts⟩ : (w.settle o).1.pool = w.pool ∧
      (w.settle o).1.attempts = w.attempts := by
    rw [settle_eq o hr]
    split
    · exact ⟨rfl, rfl⟩
    · exact ⟨rfl, rfl⟩
  have hsaid (n : Nat) : (w.settle o).1.said n ts =
      w.said n ts ++ ((Connection.told o.2).filter isNews).filter (tellsOf n) := by
    rw [filter_news]
    apply said_append
    rw [settle_eq o hr]
  have hother {n : Nat} (hn : n ≠ c.id) : (w.settle o).1.said n ts = w.said n ts := by
    rw [hsaid, ho.news.filter_other hn, List.append_nil]
  have hown : w.said c.id ts ≠ [] := (h.fits c.id).ne_nil hc
  refine ⟨hpool ▸ h.run, h.order, fun n => ?_, fun n hn => ?_⟩
  · by_cases hn : n = c.id
    · subst hn
      rw [hsaid]
      refine (h.fits c.id).news hc ho.news ?_ ?_
      · rw [hattempts]
        exact fun hm => hown ((h.fits c.id).attempt hm)
      · exact fun e he hei => (mem_settle hr he).resolve_left fun hm => hm.2 (hei.trans hid.symm)
    · rw [hother hn]
      refine (h.fits n).of_fewer (fun hm => (h.fits n).attempt (hattempts ▸ hm)) fun e he hei => ?_
      rcases mem_settle hr he with ⟨hm, -⟩ | ⟨rfl, -⟩
      · exact ⟨e, hm, hei, rfl⟩
      · exact absurd (hei.symm.trans hid) hn
  · by_cases he : n = c.id
    · exact h.begun n (.inl (he ▸ hown))
    · rw [hother he, hattempts] at hn
      exact h.begun n hn

theorem Ordered.mayCome {m : PoolMessage} {rest : List PoolMessage} (h : Ordered config ts w)
    (hc : w.channel = m :: rest) : mayCome config ts m = true := by
  have hsaid {id : Nat} (ha : m.about? = some id) :
      w.said id ts = milestones id ts ++ m :: rest.filter (tellsOf id) := by
    rw [said, hc, List.filter_cons_of_pos (by simp [tellsOf, ha])]
  have hbefore {id : Nat} (ha : m.about? = some id) :=
    IsCourse.before (hsaid ha ▸ (h.fits id).course)
  have hbegun {id : Nat} (ha : m.about? = some id) : id ∈ started config ts :=
    h.begun id (.inl (by simp [hsaid ha]))
  cases m with
  | established id | attemptFailed id cause =>
    rcases hbefore rfl with ⟨-, hnone⟩ | ⟨he, -⟩ | ⟨he, -⟩
    · simpa [PushDelivery.mayCome, hnone] using hbegun rfl
    · cases he
    · cases he
  | draining id =>
    rcases hbefore rfl with ⟨he, -⟩ | ⟨-, hone⟩ | ⟨he, -⟩
    · cases he
    · simp [PushDelivery.mayCome, hone]
    · cases he
  | closed id =>
    rcases hbefore rfl with ⟨he, -⟩ | ⟨he, -⟩ | ⟨-, htwo⟩
    · cases he
    · cases he
    · simp [PushDelivery.mayCome, htwo]
  | _ => rfl

theorem attempted_fresh (t : PoolTurn) :
    ∀ id ∈ t.work.actions.filterMap PoolAction.attempted?, t.before.ids.next ≤ id := by
  intro id hid
  unfold PoolTurn.work at hid
  split at hid
  · rw [Pool.onMessage_attempts] at hid
    cases hid
  · rename_i x _
    obtain ⟨k, hattempts, -⟩ := Pool.onTimer_advances t.time t.before x
    rw [hattempts] at hid
    exact (List.mem_range'_1.mp hid).1

theorem Ordered.turn {t : PoolTurn} (h : Ordered config ts w) (ht : t.Follows w.pool)
    (hcome : ∀ m, t.input = .message m → PushDelivery.mayCome config ts m = true)
    (hp : v.pool = t.work.pool) (hsaid : ∀ id, v.said id (ts ++ [t]) = w.said id ts)
    (ha : ∀ id ∈ v.attempts,
      id ∈ w.attempts ∨ id ∈ t.work.actions.filterMap PoolAction.attempted?)
    (hc : ∀ d ∈ v.connections, ∃ c ∈ w.connections, c.id = d.id ∧ c.phase = d.phase) :
    Ordered config (ts ++ [t]) v := by
  have habreast := (h.run.strong h.order).2
  refine ⟨hp ▸ h.run.turn ht, h.order.snoc hcome, fun id => ?_, fun id hid => ?_⟩
  · rw [hsaid]
    refine (h.fits id).of_fewer (fun hid => ?_) fun d hd hdid => ?_
    · rcases ha id hid with hid | hid
      · exact (h.fits id).attempt hid
      · by_contra hne
        have hlt := habreast.known id (h.begun id (.inl hne))
        have hle := attempted_fresh t id hid
        rw [ht.1] at hle
        omega
    · obtain ⟨c, hm, hcid, hphase⟩ := hc d hd
      exact ⟨c, hm, hcid.trans hdid, hphase⟩
  · rw [started_snoc, List.mem_append]
    rw [hsaid] at hid
    rcases hid with hid | hid
    · exact .inl (h.begun id (.inl hid))
    · exact (ha id hid).imp_left fun hm => h.begun id (.inr hm)

theorem each_perform_attempts (as : List PoolAction) (w : World) :
    ∀ id ∈ (each perform w as).1.attempts,
      id ∈ w.attempts ∨ id ∈ as.filterMap PoolAction.attempted? := by
  induction as generalizing w with
  | nil => exact fun id hid => .inl hid
  | cons a as ih =>
    intro id hid
    rw [each_cons] at hid
    have hone : ∀ id ∈ (w.perform a).1.attempts,
        id ∈ w.attempts ∨ id ∈ [a].filterMap PoolAction.attempted? := by
      intro id hid
      cases a with
      | attempt n => exact List.mem_append.mp hid
      | abort n => exact .inl (List.mem_of_mem_filter hid)
      | handOff n p =>
        left
        unfold perform at hid
        dsimp only at hid
        cases hf : w.find? n with
        | none => simpa [hf] using hid
        | some c => simpa [hf, set] using hid
      | _ => exact .inl hid
    change _ ∨ id ∈ ([a] ++ as).filterMap PoolAction.attempted?
    rw [List.filterMap_append, List.mem_append]
    rcases ih _ id hid with hid | hid
    · exact (hone id hid).imp_right .inl
    · exact .inr (.inr hid)

/-- A pool that goes on after a step has only done what the step says. -/
theorem carryOut_runs {work : Pool.Work} {ends : Bool}
    (hr : (w.carryOut work ends).1.pool.ended = false) :
    w.carryOut work ends = each perform { w with pool := work.pool } work.actions := by
  unfold carryOut at hr ⊢
  split at hr
  · rw [(each_perform_keeps _ _).1] at hr
    cases hr
  · rename_i hno
    rw [if_neg hno]

theorem Ordered.carryOut {t : PoolTurn} {ends : Bool} {m : Move} {now : Present}
    (h : Ordered config ts w) (ht : t.Follows w.pool)
    (hcome : ∀ m, t.input = .message m → PushDelivery.mayCome config ts m = true)
    {rest : List PoolMessage}
    (hsaid : ∀ id, milestones id [t] ++ rest.filter (tellsOf id) = w.channel.filter (tellsOf id))
    (hev : w.Evolves now m ({ w with channel := rest }.carryOut t.work ends))
    (hm : ∀ id, m ≠ .connected id ∧ ∀ i, m ≠ .connection id i)
    (hr : ({ w with channel := rest }.carryOut t.work ends).1.pool.ended = false) :
    Ordered config (ts ++ [t]) ({ w with channel := rest }.carryOut t.work ends).1 := by
  have hcs := hev.connections
  rw [carryOut_runs hr] at hcs ⊢
  obtain ⟨hpool, -, hchannel⟩ :=
    each_perform_keeps t.work.actions { w with channel := rest, pool := t.work.pool }
  refine h.turn ht hcome hpool (fun id => ?_) (each_perform_attempts _ _) fun d hd => ?_
  · rw [said, said, hchannel, milestones_snoc, List.append_assoc]
    exact congrArg _ (hsaid id)
  · cases hcs d hd with
    | @same c more there => exact ⟨c, there, rfl, rfl⟩
    | @step c i moves there awaits => exact absurd moves ((hm c.id).2 i)
    | start moves attempted => exact absurd moves (hm _).1
    | drained t moves attempted => exact absurd moves (hm _).1

/-- The pool is told something that is not about the course of a connection. -/
theorem Ordered.tell (h : Ordered config ts w) {msg : PoolMessage} (hm : msg.about? = none)
    (hr : w.pool.ended = false) (hp : v.pool = w.pool) (ha : v.attempts = w.attempts)
    (hc : v.connections = w.connections) (hv : v.channel = w.channel) :
    Ordered config ts (v.tell msg).1 := by
  rw [tell_runs (w := v) (hp ▸ hr)]
  exact h.quiet [msg] (by simpa using hm) hp ha hc (congrArg (· ++ [msg]) hv)

theorem start_ordered (config : ClientConfig) : Ordered config [] (start config).1 := by
  have hconns := start_connections config
  have hattempts : ∀ id ∈ (start config).1.attempts, id ∈ started config [] := by
    intro id hid
    rw [start_eq] at hid
    rcases each_perform_attempts _ _ id hid with hid | hid
    · cases hid
    · simpa [started] using hid
  have hsaid (id : Nat) : (start config).1.said id [] = [] := by
    rw [start_eq, said, (each_perform_keeps _ _).2.2]
    rfl
  refine ⟨?_, ?_, fun id => ?_, fun id hid => ?_⟩
  · rw [start_eq, (each_perform_keeps _ _).1]
    exact .start
  · intro past t hp
    simp at hp
  · rw [hsaid]
    refine ⟨.inl List.nil_prefix, fun _ => rfl, fun c hc => ?_, fun c hc => ?_⟩
    all_goals
      rw [hconns] at hc
      cases hc
  · rw [hsaid] at hid
    exact hattempts id (hid.resolve_left (absurd rfl))

theorem Ordered.bringUp (h : Ordered config ts w) (hw : w.Tidy) (hm : id ∈ w.attempts)
    (hr : w.pool.ended = false) : Ordered config ts (w.bringUp id).1 := by
  have hv : Ordered config ts (w.withConnection id) :=
    h.ends (m := .established id) [Connection.start w.settings id w.time] hw hm rfl
      (by simp [Connection.start])
  unfold World.bringUp andThen
  dsimp only
  split
  · exact hv
  · refine hv.settle (List.mem_append_right _ (List.mem_singleton_self _)) ?_ hr
    exact Connection.drainUntil_goes _ (by simp [Connection.start]) rfl rfl

/-- Every move keeps the order, as long as the pool goes on. Only the pool's own moves are turns. -/
theorem Ordered.step {m : Move} {date : Instant} {secret : P256.Scalar} {e : Effect}
    (h : Ordered config ts w) (hw : w.Tidy) (hstep : w.step? date secret m = some e)
    (hr : e.1.pool.ended = false) : Ordered config (ts ++ (w.turn? m).toList) e.1 := by
  have hbefore : w.pool.ended = false := (step?_passes hstep).runs hr
  have hev := step?_evolves hw hstep
  have hstill {v : World} (hv : Ordered config ts v) (hm : w.turn? m = none) :
      Ordered config (ts ++ (w.turn? m).toList) v := by
    simpa [hm] using hv
  cases makes_of_step? hstep with
  | wait d | pass ho | refuse n ho | leaveLate ho =>
    exact hstill (h.quiet [] (by simp) rfl rfl rfl (List.append_nil _).symm) rfl
  | sendLate n ho he | submitLate n hp he | closeLate caller he | connectedLate hm he =>
    simp [hbefore] at he
  | send n ho he | submit n hp he | close caller he | leave ho =>
    exact hstill (h.tell rfl hbefore rfl rfl rfl rfl) rfl
  | @attemptFailed id cause hm =>
    rw [tell_runs (w := { w with attempts := w.attempts.filter (· != id) }) hbefore]
    have hends := h.ends (m := .attemptFailed id cause) [] hw hm rfl (by simp)
    rw [List.append_nil] at hends
    exact hstill hends rfl
  | @pool msg rest hc he =>
    let t : PoolTurn := ⟨w.pool, .message msg, w.time, w.accepts⟩
    have hsaid (id : Nat) : milestones id [t] ++ rest.filter (tellsOf id) =
        w.channel.filter (tellsOf id) := by
      have ht : t.input = .message msg := rfl
      rw [milestones_of_message ht, hc]
      by_cases ha : msg.about? = some id
      · simp [tellsOf, ha]
      · simp [tellsOf, ha]
    have hturn : w.turn? .pool = some t := by simp [turn?, poolInput?, hc, t]
    rw [hturn]
    refine h.carryOut (t := t) ⟨rfl, rfl⟩ ?_ hsaid hev (by simp) hr
    rintro _ ⟨⟩
    exact h.mayCome hc
  | @timer x he hd =>
    let t : PoolTurn := ⟨w.pool, .timer x, w.time, w.accepts⟩
    refine h.carryOut (t := t) ⟨rfl, hd⟩ ?_ (fun id => rfl) hev (by simp) hr
    rintro _ ⟨⟩
  | connected hm he => exact hstill (h.bringUp hw hm hbefore) rfl
  | @connection c i hc ha hallows =>
    have hm := List.mem_of_find?_eq_some hc
    exact hstill (h.settle hm (Connection.step_goes _ (hw.running c hm) ha) hbefore) rfl

end World

variable {config : ClientConfig} {es : List Episode} {w : World}

/-- The turns that the pool takes in a run of a client. -/
def turns (es : List Episode) : List PoolTurn :=
  es.filterMap fun e => e.before.turn? e.move

theorem turns_snoc (es : List Episode) (e : Episode) :
    turns (es ++ [e]) = turns es ++ (e.before.turn? e.move).toList := by
  cases h : e.before.turn? e.move with
  | none => simp [turns, h]
  | some t => simp [turns, h]

theorem time_of_turn? {m : Move} {t : PoolTurn} (h : w.turn? m = some t) : t.time = w.time := by
  obtain ⟨i, -, rfl⟩ := Option.map_eq_some_iff.mp h
  rfl

/-- In every run of a client its pool goes through a run of its own, and hears of every connection
in order. -/
theorem History.turns_ordered (h : History config es w) (hr : w.pool.ended = false) :
    World.Ordered config (turns es) w := by
  unfold History at h
  induction h with
  | nil => exact World.start_ordered config
  | @snoc es v e hrun he ih =>
    obtain ⟨rfl, hstep⟩ := he
    have hbefore := ih ((World.step?_passes hstep).runs hr)
    rw [turns_snoc]
    exact hbefore.step (History.sound hrun).tidy hstep hr

theorem History.ordered (h : History config es w) (hr : w.pool.ended = false) :
    ∃ ts, World.Ordered config ts w :=
  ⟨turns es, h.turns_ordered hr⟩

theorem History.turns_chronological (h : History config es w) : Chronological (turns es) := by
  unfold History at h
  induction h with
  | nil => exact List.Pairwise.nil
  | @snoc es v e hrun he ih =>
    obtain ⟨rfl, -⟩ := he
    rw [turns_snoc]
    cases ht : e.before.turn? e.move with
    | none => simpa using ih
    | some t =>
      refine chronological_snoc.mpr ⟨ih, fun u hu => ?_⟩
      obtain ⟨d, hd, hu⟩ := List.mem_filterMap.mp hu
      rw [time_of_turn? ht, time_of_turn? hu]
      exact History.before_le hrun d hd

theorem History.strong_and_serves (h : History config es w) (hr : w.pool.ended = false) :
    w.pool.Strong ∧ w.pool.Serves := by
  obtain ⟨ts, hts⟩ := h.ordered hr
  exact ⟨(hts.run.strong hts.order).1, Pool.serves_of_run hts.run⟩

end PushDelivery
