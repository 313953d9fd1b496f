import PushDelivery.Proofs.AcquireTimeout
import PushDelivery.Proofs.Balance

namespace PushDelivery

def ConnectionInput.readiness? : ConnectionInput → Option Readiness
  | readiness r => some r
  | _ => none

namespace Connection

variable {s : ConnectionSettings} {now : Present} {c : Connection}

theorem drainUntil_blocked (t : Moment) (c : Connection) :
    (c.drainUntil t).1.blocked = c.blocked := by
  unfold drainUntil
  split
  · rfl
  · split
    · rfl
    · rfl
  · rfl

theorem drain_blocked (time : Moment) (c : Connection) :
    (c.drain s time).1.blocked = c.blocked :=
  drainUntil_blocked _ c

theorem register_blocked (stream : Nat) (p : Dispatch) (r : Request) (time : Moment)
    (c : Connection) : (c.register stream p r time).1.blocked = c.blocked := by
  unfold register
  dsimp only
  split
  · rfl
  · rfl

theorem write_blocked (a : WriteAnswer) (p : Dispatch) (c : Connection) :
    (c.write s now a p).1.blocked = c.blocked := by
  have hwrite := write_cases (s := s) now a p c
  generalize c.write s now a p = o at hwrite ⊢
  cases hwrite with
  | unmade token cause | unsent token gone => rfl
  | opened token stream r => exact register_blocked stream p r now.time _
  | refused token cause => exact drain_blocked now.time _
  | payloadLost token stream cause r => rfl

theorem onExpiredToken_blocked (time : Moment) (stream status : Nat) (apnsId : Option Uuid)
    (timestamp : Option Instant) (c : Connection) :
    (c.onExpiredToken s time stream status apnsId timestamp).1.blocked = c.blocked := by
  let v : Connection := { c with token := c.token.map TokenKeeper.invalidate }
  have hdrains : (v.drain s time).1.blocked = c.blocked := drain_blocked time v
  unfold onExpiredToken andThen takeDispatch
  dsimp only
  split
  · rename_i he
    obtain ⟨-, rfl⟩ := Prod.mk.inj he
    exact hdrains
  · rename_i p d he
    obtain ⟨-, rfl⟩ := Prod.mk.inj he
    split
    · exact hdrains
    · exact hdrains

theorem onRefused_blocked (stream : Nat) (c : Connection) :
    (c.onRefused stream).1.blocked = c.blocked := by
  unfold onRefused takeDispatch
  dsimp only
  split
  · rename_i he
    obtain ⟨-, rfl⟩ := Prod.mk.inj he
    rfl
  · rename_i p d he
    obtain ⟨-, rfl⟩ := Prod.mk.inj he
    split
    · rfl
    · rfl

theorem onResult_blocked (time : Moment) (stream : Nat) (r : StreamResult) (c : Connection) :
    (c.onResult s time stream r).1.blocked = c.blocked := by
  have hresult := result_cases (s := s) time stream r c
  generalize c.onResult s time stream r = o at hresult ⊢
  cases hresult with
  | resolves how => rfl
  | drains how => exact drain_blocked time _
  | expires status apnsId timestamp => exact onExpiredToken_blocked ..
  | refuses => exact onRefused_blocked stream _

/-- Only the transport's answers change what a connection knows of the room it has. -/
theorem step_blocked {i : ConnectionInput} (hi : i.readiness? = none) (c : Connection) :
    (c.step s now i).1.blocked = c.blocked := by
  cases i with
  | readiness r => cases hi
  | retry a =>
    unfold step
    dsimp only
    split
    · rfl
    · exact write_blocked a _ _
  | command a =>
    unfold step
    dsimp only
    split
    · rfl
    · exact write_blocked a _ _
  | result stream r => exact onResult_blocked now.time stream r c
  | tokenExpired | drainDeadline | finish => rfl
  | abandoned | shutdown _ => exact drainUntil_blocked _ c
  | transportEnded | pingFailed => exact drain_blocked now.time _

theorem Goes.connected {o : Effect} (h : Goes c o) (ho : o.1.phase = .connected) :
    c.phase = .connected := by
  cases h with
  | on same phase => exact phase ▸ ho
  | writes _ connected | flips _ connected | drains _ connected => exact connected
  | lingers _ _ phase | ends _ _ phase =>
    rw [phase] at ho
    cases ho

theorem step_readiness_blocked {r : Readiness}
    (h : (c.step s now (.readiness r)).1.phase = .connected) :
    (c.step s now (.readiness r)).1.blocked = true ↔ r = .pending := by
  cases r with
  | ready => simp [step, onReadiness]
  | pending => simp [step, onReadiness]
  | failed =>
    change (c.drainUntil _).1.phase = .connected at h
    unfold drainUntil at h
    split at h
    · cases h
    · rename_i current hp
      split at h
      · cases h
      · rw [hp] at h
        cases h
    · rename_i hp
      rw [hp] at h
      cases h

end Connection

namespace PoolMessage

/-- What becomes of the copy of a connection's flag when a message comes. -/
def setsFlag (id : Nat) (b : Bool) : PoolMessage → Bool
  | writabilityChanged i x => if i = id then x else b
  | _ => b

/-- What becomes of it when some messages come, one after the other. -/
def setFlag (id : Nat) (b : Bool) (ms : List PoolMessage) : Bool :=
  ms.foldl (setsFlag id) b

theorem setFlag_append (id : Nat) (b : Bool) (ms ns : List PoolMessage) :
    setFlag id b (ms ++ ns) = setFlag id (setFlag id b ms) ns :=
  List.foldl_append

def leavesFlag (id : Nat) : PoolMessage → Bool
  | writabilityChanged i _ => i != id
  | _ => true

theorem setFlag_eq_self {id : Nat} {ms : List PoolMessage} (h : ∀ m ∈ ms, m.leavesFlag id = true)
    (b : Bool) : setFlag id b ms = b := by
  induction ms with
  | nil => rfl
  | cons m ms ih =>
    have hm : setsFlag id b m = b := by
      have hleaves := h m List.mem_cons_self
      cases m with
      | writabilityChanged i x => exact if_neg (by simpa [leavesFlag] using hleaves)
      | _ => rfl
    change setFlag id (setsFlag id b m) ms = b
    rw [hm]
    exact ih fun n hn => h n (List.mem_cons_of_mem m hn)

end PoolMessage

namespace Pool

open PoolMessage

variable {accepts : Acceptance} {time : Moment} {id : Nat} {p : Pool}

def flags (id : Nat) (p : Pool) : List Bool :=
  (p.connections.filter fun c => c.id == id).map PooledConnection.writable

theorem update_flags (n : Nat) (f : PooledConnection → PooledConnection)
    (hf : ∀ c, (f c).id = c.id) (p : Pool) : ∀ b ∈ (p.update n f).flags id,
      ∃ c ∈ p.connections, c.id = id ∧ b = (if n = id then f c else c).writable := by
  intro b hb
  obtain ⟨c, hc, rfl⟩ := List.mem_map.mp hb
  obtain ⟨hc, hid⟩ := List.mem_filter.mp hc
  obtain ⟨d, hd, rfl⟩ := List.mem_map.mp hc
  have hdid : d.id = id := by
    by_cases hn : d.id = n
    · simpa [hn, hf] using hid
    · simpa [hn] using hid
  refine ⟨d, hd, hdid, ?_⟩
  by_cases hn : n = id
  · simp [hn, hdid]
  · simp [hn, hdid, Ne.symm hn]

theorem update_flags_subset {n : Nat} (hn : n ≠ id) (f : PooledConnection → PooledConnection)
    (hf : ∀ c, (f c).id = c.id) (p : Pool) : (p.update n f).flags id ⊆ p.flags id := by
  intro b hb
  obtain ⟨c, hc, hid, rfl⟩ := update_flags n f hf p b hb
  rw [if_neg hn]
  exact List.mem_map.mpr ⟨c, List.mem_filter.mpr ⟨hc, by simp [hid]⟩, rfl⟩

/-- An offer marks as full only connections that refuse it. -/
theorem offerWithin_flags (ha : ∀ k, accepts k id = true) (n : Dispatch) (fuel : Nat) (w : Work) :
    (offerWithin accepts n fuel w).2.pool.flags id ⊆ w.pool.flags id := by
  induction fuel generalizing w with
  | zero => exact List.Subset.refl _
  | succ fuel ih =>
    obtain ⟨cursor, hq⟩ := scan_frame w.pool.rotation.length w.pool
    unfold offerWithin nextWritable
    split
    · rename_i q he
      rw [he] at hq
      dsimp only at hq
      subst hq
      exact List.Subset.refl _
    · rename_i i q he
      rw [he] at hq
      dsimp only at hq ⊢
      subst hq
      split
      · exact List.Subset.refl _
      · rename_i hrefuses
        have hi : i ≠ id := by
          rintro rfl
          exact hrefuses (ha _)
        refine List.Subset.trans (ih _) ?_
        exact update_flags_subset hi (fun c => { c with writable := false }) (fun _ => rfl) _

theorem flushWithin_flags (ha : ∀ k, accepts k id = true) (xs : List Waiter) (w : Work) :
    (flushWithin accepts xs w).pool.flags id ⊆ w.pool.flags id := by
  induction xs generalizing w with
  | nil => exact List.Subset.refl _
  | cons x xs ih =>
    have hoffer := offerWithin_flags ha x.dispatch (w.pool.connections.length + 1) w
    unfold flushWithin offer
    split
    · rename_i v he
      rw [he] at hoffer
      exact List.Subset.trans (ih v) hoffer
    · rename_i v he
      rw [he] at hoffer
      exact hoffer

theorem route_flags (ha : ∀ k, accepts k id = true) (n : Dispatch) (p : Pool) :
    (p.route accepts time n).pool.flags id ⊆ p.flags id := by
  have hoffer := offerWithin_flags ha n (p.connections.length + 1) { pool := p }
  unfold route
  split
  · exact List.Subset.refl _
  · dsimp only
    split
    · unfold offer
      split
      · rename_i w he
        rw [he] at hoffer
        exact hoffer
      · rename_i w he
        rw [he] at hoffer
        exact List.Subset.trans (flushWithin_flags ha _ _) hoffer
    · exact flushWithin_flags ha _ _

theorem flags_mono {q : Pool} (h : ∀ c ∈ q.connections, c ∈ p.connections) :
    q.flags id ⊆ p.flags id :=
  List.map_subset _ (List.filter_subset _ h)

theorem onEstablished_flags (ha : ∀ k, accepts k id = true) (n : Nat) (p : Pool) :
    ∀ b ∈ (p.onEstablished accepts n).pool.flags id, b ∈ p.flags id ∨ n = id ∧ b = true := by
  intro b hb
  unfold onEstablished at hb
  dsimp only at hb
  split at hb
  · exact .inl hb
  · obtain ⟨c, hc, rfl⟩ := List.mem_map.mp (flushWithin_flags ha _ _ hb)
    obtain ⟨hc, hid⟩ := List.mem_filter.mp hc
    rcases List.mem_append.mp hc with hc | hc
    · exact .inl (List.mem_map.mpr ⟨c, List.mem_filter.mpr ⟨List.mem_of_mem_filter hc, hid⟩, rfl⟩)
    · obtain rfl := List.mem_singleton.mp hc
      exact .inr ⟨by simpa using hid, rfl⟩

theorem onShutdown_connections (caller : Option Nat) (p : Pool) :
    (p.onShutdown time caller).pool.connections = p.connections := by
  unfold onShutdown
  split
  · rfl
  · rfl

/-- Only its own messages change the flag of a connection that takes what it is handed. -/
theorem onMessage_flags {m : PoolMessage} (ha : ∀ k, accepts k id = true) (hm : m ≠ .draining id) :
    ∀ b ∈ (p.onMessage accepts time m).pool.flags id,
      (∃ a ∈ p.flags id, b = setsFlag id a m) ∨ m = .established id ∧ b = true := by
  intro b hb
  have hsame (h : b ∈ p.flags id) (hs : setsFlag id b m = b) :
      ∃ a ∈ p.flags id, b = setsFlag id a m := ⟨b, h, hs.symm⟩
  cases m with
  | submit n | resubmit n => exact .inl (hsame (route_flags ha n p hb) rfl)
  | established n =>
    rcases onEstablished_flags ha n p b hb with hb | ⟨rfl, rfl⟩
    · exact .inl (hsame hb rfl)
    · exact .inr ⟨rfl, rfl⟩
  | attemptFailed n cause =>
    exact .inl (hsame (flags_mono (fun _ hc => onAttemptFailed_connections n cause p ▸ hc) hb) rfl)
  | writabilityChanged n x =>
    left
    have hflags : b ∈ (p.setWritable n x).flags id := by
      unfold onMessage at hb
      dsimp only at hb
      split at hb
      · exact flushWithin_flags ha _ _ hb
      · exact hb
    obtain ⟨c, hc, hid, rfl⟩ :=
      update_flags n (fun c => { c with writable := x }) (fun _ => rfl) p b hflags
    refine ⟨c.writable, List.mem_map.mpr ⟨c, List.mem_filter.mpr ⟨hc, by simp [hid]⟩, rfl⟩, ?_⟩
    by_cases hn : n = id
    · simp [setsFlag, hn]
    · simp [setsFlag, hn]
  | draining n =>
    have hn : n ≠ id := fun he => hm (he ▸ rfl)
    refine .inl (hsame ?_ rfl)
    unfold onMessage onDraining flags at hb
    rw [scheduleReconnect_connections] at hb
    exact update_flags_subset hn (fun c => { c with phase := .draining, writable := false })
      (fun _ => rfl) p hb
  | closed n =>
    refine .inl (hsame ?_ rfl)
    unfold onMessage onClosed flags at hb
    rw [scheduleReconnect_connections] at hb
    exact flags_mono (fun _ hc => List.mem_of_mem_filter hc) hb
  | shutdown caller =>
    exact .inl (hsame (flags_mono (fun _ hc => onShutdown_connections caller p ▸ hc) hb) rfl)

theorem onTimer_flags (time : Moment) (p : Pool) (x : PoolTimer) :
    (p.onTimer time x).pool.flags id ⊆ p.flags id := by
  cases x with
  | reconnect =>
    obtain ⟨k, hq, -⟩ := fill_spec { pool := { p with reconnectAt := none } }
    unfold onTimer
    rw [hq]
    exact List.Subset.refl _
  | expire => exact List.Subset.refl _
  | force => exact List.nil_subset _

end Pool

open PoolMessage

theorem suffix_of_append {α : Type} {a : α} {l new later : List α} (h : a :: later <:+ l ++ new)
    (ha : a ∉ new) : ∃ earlier, later = earlier ++ new ∧ a :: earlier <:+ l := by
  obtain ⟨pre, h⟩ := h
  rcases List.append_eq_append_iff.mp h with ⟨mid, rfl, hnew⟩ | ⟨mid, rfl, hlater⟩
  · cases mid with
    | nil =>
      have hnew : a :: later = new := hnew
      exact absurd (hnew ▸ List.mem_cons_self) ha
    | cons x mid =>
      obtain ⟨rfl, rfl⟩ := List.cons.inj hnew
      exact ⟨mid, rfl, pre, rfl⟩
  · exact absurd (hlater ▸ List.mem_append_right mid List.mem_cons_self) ha

theorem suffix_of_last {α : Type} {a : α} {l later : List α} (h : a :: later <:+ l ++ [a])
    (ha : a ∉ l) : later = [] := by
  obtain ⟨pre, h⟩ := h
  rcases List.append_eq_append_iff.mp h with ⟨mid, rfl, hlast⟩ | ⟨mid, -, hlast⟩
  · cases mid with
    | nil => exact (List.cons.inj hlast).2
    | cons x mid =>
      obtain ⟨rfl, -⟩ := List.cons.inj hlast
      exact absurd (List.mem_append_right pre List.mem_cons_self) ha
  · have hlength := congrArg List.length hlast
    simp only [List.length_append, List.length_cons, List.length_nil] at hlength
    exact List.length_eq_zero_iff.mp (by omega)

namespace World

variable {w v : World} {c d : Connection} {new : List PoolMessage}

/-- The copy of a connection's flag that the pool has, or will have when the connection comes up,
is what the connection knows, once the pool has dealt with all that is queued. -/
structure Agrees (w : World) (c : Connection) : Prop where
  known : ∀ b ∈ w.pool.flags c.id, setFlag c.id b w.channel = !c.blocked
  coming : ∀ later, .established c.id :: later <:+ w.channel → setFlag c.id true later = !c.blocked

theorem Agrees.tells (h : w.Agrees c) (hp : v.pool = w.pool) (hv : v.channel = w.channel ++ new)
    (hid : d.id = c.id) (hnew : .established c.id ∉ new)
    (hd : setFlag c.id (!c.blocked) new = !d.blocked) : v.Agrees d := by
  refine ⟨fun b hb => ?_, fun later hlater => ?_⟩
  · rw [hid] at hb ⊢
    rw [hv, setFlag_append, h.known b (hp ▸ hb)]
    exact hd
  · rw [hid] at hlater ⊢
    rw [hv] at hlater
    obtain ⟨earlier, rfl, hearlier⟩ := suffix_of_append hlater hnew
    rw [setFlag_append, h.coming earlier hearlier]
    exact hd

theorem Agrees.quiet (h : w.Agrees c) (hp : v.pool = w.pool) (hv : v.channel = w.channel ++ new)
    (hid : d.id = c.id) (hb : d.blocked = c.blocked)
    (hnew : ∀ m ∈ new, m ≠ .established c.id ∧ m.leavesFlag c.id = true) : v.Agrees d := by
  refine h.tells hp hv hid (fun hm => (hnew _ hm).1 rfl) ?_
  rw [setFlag_eq_self fun m hm => (hnew m hm).2, hb]

theorem Agrees.of_fewer (h : w.Agrees c) (hp : v.pool.flags c.id ⊆ w.pool.flags c.id)
    (hv : v.channel = w.channel) {more : List Dispatch} :
    v.Agrees { c with commands := c.commands ++ more } := by
  refine ⟨fun b hb => ?_, fun later hlater => ?_⟩
  · rw [hv]
    exact h.known b (hp hb)
  · rw [hv] at hlater
    exact h.coming later hlater

theorem Agrees.hears {m : PoolMessage} {rest : List PoolMessage} (h : w.Agrees c)
    (hc : w.channel = m :: rest) (hv : v.channel = rest) (hid : d.id = c.id)
    (hb : d.blocked = c.blocked) (hp : ∀ b ∈ v.pool.flags c.id,
      (∃ a ∈ w.pool.flags c.id, b = setsFlag c.id a m) ∨ m = .established c.id ∧ b = true) :
    v.Agrees d := by
  refine ⟨fun b hflag => ?_, fun later hlater => ?_⟩
  · rw [hid] at hflag ⊢
    rw [hv, hb]
    rcases hp b hflag with ⟨a, ha, rfl⟩ | ⟨rfl, rfl⟩
    · rw [← h.known a ha, hc]
      rfl
    · exact h.coming rest (hc ▸ List.suffix_rfl)
  · rw [hid, hv] at hlater
    rw [hid, hb]
    exact h.coming later (hc ▸ hlater.trans (List.suffix_cons m rest))

/-- A message about the course of a connection that serves can only be that it has come up. -/
theorem Ordered.not_draining {config : ClientConfig} {ts : List PoolTurn}
    (h : Ordered config ts w) (hc : c ∈ w.connections) (hp : c.phase = .connected) :
    .draining c.id ∉ w.channel := by
  intro hm
  have hsaid : PoolMessage.draining c.id ∈ w.said c.id ts :=
    List.mem_append_right _ (List.mem_filter.mpr ⟨hm, by simp [tellsOf, about?]⟩)
  rw [(h.fits c.id).serves c hc rfl hp] at hsaid
  simp at hsaid

theorem Ordered.no_news {config : ClientConfig} {ts : List PoolTurn} {id : Nat}
    (h : Ordered config ts w) (hid : id ∈ w.attempts) :
    w.pool.flags id = [] ∧ .established id ∉ w.channel := by
  have hnone : w.said id ts = [] := (h.fits id).attempt hid
  obtain ⟨hheard, hqueued⟩ := List.append_eq_nil_iff.mp hnone
  refine ⟨List.eq_nil_iff_forall_not_mem.mpr fun b hb => ?_, fun hm => ?_⟩
  · obtain ⟨p, hp, -⟩ := List.mem_map.mp hb
    obtain ⟨hp, hpid⟩ := List.mem_filter.mp hp
    have hids : id ∈ w.pool.connectionIds := List.mem_map.mpr ⟨p, hp, by simpa using hpid⟩
    exact (h.run.strong h.order).2.settled id hids hheard
  · exact List.filter_eq_nil_iff.mp hqueued _ hm (by simp [tellsOf, about?])

def Agree (w : World) : Prop :=
  ∀ c ∈ w.connections, c.phase = .connected → w.Agrees c

theorem Agree.tell {v : World} (h : w.Agree) {msg : PoolMessage}
    (hquiet : ∀ id, msg ≠ .established id ∧ msg.leavesFlag id = true)
    (hr : w.pool.ended = false) (hp : v.pool = w.pool) (hc : v.connections = w.connections)
    (hv : v.channel = w.channel) : (v.tell msg).1.Agree := by
  rw [tell_runs (w := v) (hp ▸ hr)]
  intro c hmem hphase
  refine (h c (hc ▸ hmem) hphase).quiet hp (congrArg (· ++ [msg]) hv) rfl rfl fun m hm => ?_
  obtain rfl := List.mem_singleton.mp hm
  exact hquiet c.id

/-- The pool takes a turn, and goes on. -/
theorem Agree.turn {config : ClientConfig} {ts : List PoolTurn} {t : PoolTurn} {m : Move}
    {e : Effect} {now : Present} (h : w.Agree) (hw : w.Tidy) (ho : Ordered config ts w)
    (hco : ∀ c ∈ w.connections, c.Coherent) (turns : w.Turns m t) (ha : t.accepts = w.accepts)
    (hpool : e.1.pool = t.work.pool) (hchannel : e.1.channel = w.behind m)
    (hev : w.Evolves now m e) : e.1.Agree := by
  intro d hd hphase
  cases hev.connections d hd with
  | step moves | start moves | drained _ moves =>
    have hinput := turns.input
    rw [moves] at hinput
    cases hinput
  | @same c more there =>
    have hc := h c there hphase
    have haccepts (k : Nat) : t.accepts k c.id = true := by
      rw [ha, accepts, find?, find?_of_nodup hw.connections there]
      exact ((hco c there).serves hphase).2
    obtain ⟨hsplit, -⟩ := turns.channel_eq
    have hbefore := turns.follows.1
    unfold PoolTurn.work at hpool
    unfold PoolTurn.message? at hsplit
    cases hi : t.input with
    | message msg =>
      rw [hi] at hpool hsplit
      dsimp only at hpool hsplit
      have hmsg : msg ≠ .draining c.id := by
        rintro rfl
        exact ho.not_draining there hphase (hsplit ▸ List.mem_cons_self)
      refine hc.hears hsplit hchannel rfl rfl ?_
      rw [hpool, hbefore]
      exact Pool.onMessage_flags haccepts hmsg
    | timer x =>
      rw [hi] at hpool hsplit
      refine hc.of_fewer ?_ (hchannel.trans hsplit.symm)
      rw [hpool, hbefore]
      exact Pool.onTimer_flags t.time w.pool x

theorem Agree.settle {o : Connection.Effect} (h : w.Agree) (hc : c ∈ w.connections)
    (ho : Connection.Goes c o) (hr : w.pool.ended = false) : (w.settle o).1.Agree := by
  have hpool : (w.settle o).1.pool = w.pool := by
    rw [settle_eq o hr]
    split
    · rfl
    · rfl
  have hchannel : (w.settle o).1.channel = w.channel ++ Connection.told o.2 := by
    rw [settle_eq o hr]
  intro d hd hphase
  rcases mem_settle hr hd with ⟨hd, hne⟩ | ⟨rfl, -⟩
  · have hother : c.id ≠ d.id := fun he => hne (he.symm.trans ho.id_eq.symm)
    refine (h d hd hphase).quiet hpool hchannel rfl rfl fun m hm => ?_
    rcases ho.told_cases m hm with ⟨p, rfl⟩ | rfl | rfl | rfl
    · simp [leavesFlag]
    · simpa [leavesFlag] using hother
    · simp [leavesFlag]
    · simp [leavesFlag]
  · cases ho with
    | on same phase blocked reports =>
      have hsilent := Connection.told_of_silent fun a ha =>
        ConnectionAction.isSilent_of_report (reports a ha)
      exact (h c hc (phase ▸ hphase)).quiet hpool hchannel same blocked (by simp [hsilent])
    | writes same connected phase blocked silent =>
      have hsilent := Connection.told_of_silent silent
      exact (h c hc connected).quiet hpool hchannel same blocked (by simp [hsilent])
    | flips same connected phase blocked =>
      have htold : Connection.told [.tell (.writabilityChanged c.id c.blocked)] =
          [.writabilityChanged c.id c.blocked] := rfl
      dsimp only at hchannel
      rw [htold] at hchannel
      refine (h c hc connected).tells hpool hchannel same (by simp) ?_
      simp [setFlag, setsFlag, blocked]
    | drains _ _ phase | lingers _ _ phase | ends _ _ phase =>
      rw [phase] at hphase
      cases hphase

theorem Agree.bringUp {config : ClientConfig} {ts : List PoolTurn} {id : Nat} (h : w.Agree)
    (hw : w.Tidy) (ho : Ordered config ts w) (hm : id ∈ w.attempts) (hr : w.pool.ended = false) :
    (w.bringUp id).1.Agree := by
  have hup : (w.withConnection id).Agree := by
    intro d hd hphase
    rcases List.mem_append.mp hd with hd | hd
    · have hother : id ≠ d.id := fun he => (hw.made hd).given (he ▸ hm)
      exact (h d hd hphase).quiet rfl rfl rfl rfl (by simpa [leavesFlag] using hother)
    · obtain rfl := List.mem_singleton.mp hd
      obtain ⟨hflags, hchannel⟩ := ho.no_news hm
      refine ⟨fun b hb => ?_, fun later hlater => ?_⟩
      · change b ∈ w.pool.flags id at hb
        rw [hflags] at hb
        cases hb
      · rw [suffix_of_last hlater hchannel]
        rfl
  unfold World.bringUp andThen
  dsimp only
  split
  · exact hup
  · refine hup.settle (List.mem_append_right _ (List.mem_singleton_self _)) ?_ hr
    exact Connection.drainUntil_goes _ (by simp [Connection.start]) rfl rfl

theorem Agree.step {config : ClientConfig} {ts : List PoolTurn} {m : Move} {date : Instant}
    {secret : P256.Scalar} {e : Effect} (h : w.Agree) (hw : w.Tidy) (ho : Ordered config ts w)
    (hco : ∀ c ∈ w.connections, c.Coherent) (hstep : w.step? date secret m = some e)
    (hr : e.1.pool.ended = false) : e.1.Agree := by
  cases step?_poolSide hw hstep with
  | turn t turns accepts pool channel =>
    exact h.turn hw ho hco turns accepts pool channel (step?_evolves hw hstep)
  | last t turns finished pool =>
    rw [pool] at hr
    cases hr
  | late apart ended pool =>
    rw [pool, ended] at hr
    cases hr
  | queues new apart runs =>
    cases makes_of_step? hstep with
    | wait d | pass ho | refuse n ho | leaveLate ho =>
      exact fun c hc hp => (h c hc hp).quiet rfl (List.append_nil _).symm rfl rfl (by simp)
    | sendLate n ho he | submitLate n hp he | closeLate caller he | connectedLate hm he =>
      simp [runs] at he
    | send n ho he | submit n hp he | close caller he | leave ho | attemptFailed cause hm =>
      exact h.tell (fun id => ⟨by simp, rfl⟩) runs rfl rfl rfl
    | connected hm he => exact h.bringUp hw ho hm runs
    | @connection c i hc ha hallows =>
      have hmem := List.mem_of_find?_eq_some hc
      exact h.settle hmem (Connection.step_goes _ (hw.running c hmem) ha) runs
    | @pool msg rest hc he => simp [poolInput?, hc] at apart
    | @timer x he hd => cases apart

end World

namespace Episode

def readiness? (id : Nat) (e : Episode) : Option Readiness :=
  match e.move with
  | .connection i input => if i = id then input.readiness? else none
  | _ => none

end Episode

/-- The last answer of the transport to a connection that asked for room. -/
def lastReadiness (id : Nat) (es : List Episode) : Option Readiness :=
  (es.filterMap fun e => e.readiness? id).getLast?

variable {config : ClientConfig} {es : List Episode} {e : Episode} {w : World} {id : Nat}

theorem lastReadiness_snoc (id : Nat) (es : List Episode) (e : Episode) :
    lastReadiness id (es ++ [e]) = (e.readiness? id).or (lastReadiness id es) := by
  unfold lastReadiness
  rw [List.filterMap_append]
  cases he : e.readiness? id with
  | none => simp [he]
  | some r => simp [he]

theorem Episode.readiness?_eq_some {r : Readiness} (h : e.readiness? id = some r) :
    e.move = .connection id (.readiness r) := by
  unfold readiness? at h
  split at h
  · rename_i i input hmove
    split at h
    · rename_i hi
      subst hi
      cases input with
      | readiness x =>
        obtain rfl := Option.some.inj h
        exact hmove
      | _ => cases h
    · cases h
  · cases h

namespace History

theorem made_of_asked (h : History config es w) (ha : lastReadiness id es ≠ none) : w.Made id := by
  unfold History at h
  induction h with
  | nil => exact absurd rfl ha
  | @snoc es v e hr he ih =>
    have hv := (History.sound hr).tidy
    obtain ⟨rfl, hstep⟩ := he
    refine World.Made.step ?_ (World.step?_evolves hv hstep)
    rw [lastReadiness_snoc] at ha
    cases hasks : e.readiness? id with
    | none => exact ih (by simpa [hasks] using ha)
    | some r =>
      rw [Episode.readiness?_eq_some hasks] at hstep
      obtain ⟨c, hc, rfl, -⟩ := World.connection_step hv hstep
      exact hv.made (List.mem_of_find?_eq_some hc)

/-- A connection that serves is blocked just when there was no room for it the last time it
asked. -/
theorem blocked_iff_last_pending (h : History config es w) :
    ∀ c ∈ w.connections, c.phase = .connected →
      (c.blocked = true ↔ lastReadiness c.id es = some .pending) := by
  refine h.forall_connections (P := fun es c => c.phase = .connected →
    (c.blocked = true ↔ lastReadiness c.id es = some .pending))
    fun es v e hv he ih d hd hcomes hphase => ?_
  obtain ⟨rfl, hstep⟩ := he
  rw [lastReadiness_snoc]
  cases hasks : e.readiness? d.id with
  | some r =>
    rw [Episode.readiness?_eq_some hasks] at hstep
    obtain ⟨c, hc, -, -, hstepped, -⟩ := World.connection_step hv.sound.tidy hstep
    have hd := hstepped d hd rfl
    rw [hd] at hphase ⊢
    simpa using Connection.step_readiness_blocked hphase
  | none =>
    rw [Option.none_or]
    cases hcomes with
    | @same c more there => exact ih c there hphase
    | @step c i moves there awaits =>
      have hmem := List.mem_of_find?_eq_some there
      have hgoes := Connection.step_goes (s := e.before.settings) (i := i)
        ⟨e.before.time, e.date, e.secret⟩ (hv.sound.tidy.running c hmem) awaits
      have hid := hgoes.id_eq
      have hi : i.readiness? = none := by
        simpa [Episode.readiness?, moves, hid] using hasks
      rw [hid, Connection.step_blocked hi]
      exact ih c hmem (hgoes.connected hphase)
    | @start id moves attempted =>
      constructor
      · intro hb
        cases hb
      · intro hlast
        have hmade : e.before.Made id :=
          hv.made_of_asked fun hnone => by cases hnone.symm.trans hlast
        exact absurd attempted hmade.given
    | @drained id t moves attempted => cases hphase

theorem agree (h : History config es w) (hr : w.pool.ended = false) : w.Agree := by
  unfold History at h
  induction h with
  | nil =>
    intro c hc
    rw [World.start_connections] at hc
    cases hc
  | @snoc es v e hrun he ih =>
    have hv : History config es v := hrun
    obtain ⟨rfl, hstep⟩ := he
    have hbefore := (World.step?_passes hstep).runs hr
    obtain ⟨ts, hts⟩ := hv.ordered hbefore
    exact (ih hbefore).step hv.sound.tidy hts hv.coherent hstep hr

end History

/-- Pool and connections agree on who takes streams. In every state of every run, the copy of the
flag that the pool has of a connection that serves is what the connection knows, once what is
queued is dealt with. When nothing is queued, the pool takes the connection to have room unless the
transport said that there was none when it was asked last. -/
theorem writability_agrees (config : ClientConfig) (es : List Episode) (w : World)
    (h : History config es w) :
    ∀ p ∈ w.pool.connections, p.phase = .connected →
      ∀ c ∈ w.connections, c.id = p.id → c.phase = .connected →
        setFlag c.id p.writable w.channel = !c.blocked ∧
        (w.channel = [] → (p.writable = true ↔ lastReadiness c.id es ≠ some .pending)) := by
  intro p hp _ c hc hid hphase
  have hruns : w.pool.ended = false := by
    by_contra hended
    rw [(h.balanced.finished (by simpa using hended)).1] at hp
    cases hp
  have hflag : p.writable ∈ w.pool.flags c.id :=
    List.mem_map.mpr ⟨p, List.mem_filter.mpr ⟨hp, by simp [hid]⟩, rfl⟩
  have hknown := (h.agree hruns c hc hphase).known p.writable hflag
  refine ⟨hknown, fun hempty => ?_⟩
  have hcopy : p.writable = !c.blocked := by
    rw [hempty] at hknown
    exact hknown
  rw [hcopy, ne_eq, ← h.blocked_iff_last_pending c hc hphase, Bool.not_eq_true, Bool.not_eq_true']

/-- A connection has no room, and the pool has not yet heard of it. -/
def unheard : Option (List Episode × World) :=
  (World.start .plain).1.play <|
    [.connected 1, .pool, .connection 1 (.readiness .pending)].map fun m => (m, ⟨0, 0⟩, 0)

theorem agrees_of_unheard : ∃ es w p c, History .plain es w ∧ p ∈ w.pool.connections ∧
    c ∈ w.connections ∧ c.id = p.id ∧ p.writable = true ∧ c.blocked = true ∧
      setFlag c.id p.writable w.channel = false := by
  have hd : unheard.any (fun x => x.2.pool.connections.any fun p => x.2.connections.any fun c =>
      p.phase == .connected && c.id == p.id && c.phase == .connected && p.writable && c.blocked) =
      true := by
    decide +kernel
  obtain ⟨⟨es, w⟩, hplay, hx⟩ := (Option.any_eq_true _ _).mp hd
  obtain ⟨p, hp, hx⟩ := List.any_eq_true.mp hx
  obtain ⟨c, hc, hx⟩ := List.any_eq_true.mp hx
  simp only [Bool.and_eq_true, beq_iff_eq] at hx
  obtain ⟨⟨⟨⟨hpooled, hid⟩, hserves⟩, hwritable⟩, hblocked⟩ := hx
  have hrun : History .plain es w := (Run.of_play hplay).1
  obtain ⟨hagrees, -⟩ := writability_agrees .plain es w hrun p hp hpooled c hc hid hserves
  refine ⟨es, w, p, c, hrun, hp, hc, hid, hwritable, hblocked, ?_⟩
  rw [hagrees, hblocked]
  rfl

end PushDelivery
