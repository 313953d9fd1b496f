import PushDelivery.Proofs.ConnectionLife

namespace PushDelivery

namespace Connection

variable {s : ConnectionSettings} {c d e : Connection} {as bs : List ConnectionAction}

/-- A connection that serves takes commands and opens streams; any other has none left. -/
structure Coherent (c : Connection) : Prop where
  serves : c.phase = .connected → c.canSend = true ∧ c.commandsOpen = true
  idle : c.phase ≠ .connected → c.commands = [] ∧ c.commandsOpen = false

/-- What a connection has put on a stream, now or before, and not dealt with. -/
def written (c : Connection) : List Dispatch :=
  c.retries ++ c.streams.slots.map Prod.snd

/-- What a step does to the queues. -/
structure Yields (c : Connection) (o : Effect) : Prop where
  coherent : c.Coherent → o.1.Coherent
  written : ∀ p ∈ o.1.written, (∃ q ∈ c.written, q.id = p.id) ∨
    ∃ n q r, .opened n q r ∈ o.2 ∧ q.id = p.id

theorem Yields.trans (h : c.Yields (d, as)) (h' : d.Yields (e, bs)) : c.Yields (e, as ++ bs) where
  coherent hc := h'.coherent (h.coherent hc)
  written := by
    intro p hp
    rcases h'.written p hp with ⟨q, hq, hid⟩ | ⟨n, q, r, hm, hid⟩
    · rcases h.written q hq with ⟨x, hx, hxid⟩ | ⟨n, x, r, hm, hxid⟩
      · exact .inl ⟨x, hx, hxid.trans hid⟩
      · exact .inr ⟨n, x, r, List.mem_append_left _ hm, hxid.trans hid⟩
    · exact .inr ⟨n, q, r, List.mem_append_right _ hm, hid⟩

theorem Yields.of_same (c d : Connection) (hp : d.phase = c.phase) (hs : d.canSend = c.canSend)
    (ho : d.commandsOpen = c.commandsOpen) (hc : ∀ p ∈ d.commands, p ∈ c.commands)
    (hw : ∀ p ∈ d.written, ∃ q ∈ c.written, q.id = p.id) (as : List ConnectionAction) :
    c.Yields (d, as) where
  coherent := by
    intro h
    refine ⟨?_, ?_⟩
    · rw [hp, hs, ho]
      exact h.serves
    · rw [hp, ho]
      intro hphase
      obtain ⟨hnone, hopen⟩ := h.idle hphase
      refine ⟨List.eq_nil_iff_forall_not_mem.mpr fun p hm => ?_, hopen⟩
      have hm := hc p hm
      rw [hnone] at hm
      cases hm
  written := fun p hm => .inl (hw p hm)

theorem Yields.refl (c : Connection) (as : List ConnectionAction) : c.Yields (c, as) :=
  .of_same c c rfl rfl rfl (fun _ h => h) (fun p h => ⟨p, h, rfl⟩) as

theorem Coherent.of_stopped (hp : c.phase ≠ .connected) (hc : c.commands = [])
    (ho : c.commandsOpen = false) : c.Coherent :=
  ⟨fun h => absurd h hp, fun _ => ⟨hc, ho⟩⟩

theorem start_coherent (s : ConnectionSettings) (id : Nat) (time : Moment) :
    (start s id time).Coherent :=
  ⟨fun _ => ⟨rfl, rfl⟩, fun h => absurd rfl h⟩

theorem drainUntil_yields (t : Moment) (c : Connection) : c.Yields (c.drainUntil t) := by
  unfold drainUntil
  split
  · refine ⟨fun _ => .of_stopped (by simp) rfl rfl, fun p hp => .inl ⟨p, ?_, rfl⟩⟩
    exact List.mem_append_right _ hp
  · rename_i current hphase
    split
    · refine ⟨fun h => ?_, fun p hp => .inl ⟨p, hp, rfl⟩⟩
      obtain ⟨hnone, hopen⟩ := h.idle (by simp [hphase])
      exact .of_stopped (by simp) hnone hopen
    · exact .refl c []
  · exact .refl c []

theorem Yields.then_drainUntil (h : c.Yields (d, as)) (t : Moment) :
    c.Yields (andThen (d, as) (drainUntil t)) :=
  h.trans (drainUntil_yields t d)

theorem finish_yields (c : Connection) : c.Yields c.finish :=
  ⟨fun _ => .of_stopped (by simp [finish]) rfl rfl, fun _ hp => by cases hp⟩

theorem register_yields (stream : Nat) (p : Dispatch) (r : Request) (time : Moment)
    (c : Connection) : c.Yields (c.register stream p r time) := by
  unfold register
  dsimp only
  split
  · rename_i k hk
    obtain ⟨-, rfl⟩ := OpenStreams.register?_eq_some hk
    refine ⟨fun h => ⟨h.serves, h.idle⟩, fun q hq => ?_⟩
    rcases List.mem_append.mp hq with hq | hq
    · exact .inl ⟨q, List.mem_append_left _ hq, rfl⟩
    · rw [List.map_append] at hq
      rcases List.mem_append.mp hq with hq | hq
      · exact .inl ⟨q, List.mem_append_right _ hq, rfl⟩
      · obtain rfl := List.mem_singleton.mp hq
        exact .inr ⟨stream, _, r, List.mem_cons_self, rfl⟩
  · let d : Connection := { c with lastActivity := time }
    exact .of_same c d rfl rfl rfl (fun _ h => h) (fun q h => ⟨q, h, rfl⟩) _

theorem write_yields (now : Present) (a : WriteAnswer) (p : Dispatch) (c : Connection) :
    c.Yields (c.write s now a p) := by
  have hwrite := write_cases (s := s) now a p c
  have hasks (token : Option TokenKeeper) (as : List ConnectionAction) :
      c.Yields ({ c with ready := false, token := token }, as) :=
    .of_same c { c with ready := false, token := token } rfl rfl rfl (fun _ h => h)
      (fun p h => ⟨p, h, rfl⟩) as
  generalize c.write s now a p = o at hwrite ⊢
  cases hwrite with
  | unmade token cause | unsent token gone => exact hasks token _
  | opened token stream r => exact (hasks token []).trans (register_yields stream p r now.time _)
  | refused token cause => exact (hasks token _).then_drainUntil _
  | payloadLost token stream cause r => exact hasks token _

theorem erase_yields (stream : Nat) (c : Connection) (as : List ConnectionAction) :
    c.Yields ({ c with streams := c.streams.erase stream }, as) := by
  let d : Connection := { c with streams := c.streams.erase stream }
  refine .of_same c d rfl rfl rfl (fun _ h => h) (fun p h => ⟨p, ?_, rfl⟩) as
  rcases List.mem_append.mp h with h | h
  · exact List.mem_append_left _ h
  · exact List.mem_append_right _ (List.map_subset _ (List.filter_subset_self _) h)

theorem onExpiredToken_yields (time : Moment) (stream status : Nat) (apnsId : Option Uuid)
    (timestamp : Option Instant) (c : Connection) :
    c.Yields (c.onExpiredToken s time stream status apnsId timestamp) := by
  let v : Connection := { c with token := c.token.map TokenKeeper.invalidate }
  have hdrops : c.Yields (v, []) :=
    .of_same c v rfl rfl rfl (fun _ h => h) (fun p h => ⟨p, h, rfl⟩) []
  have hdrains : c.Yields (v.drain s time) := hdrops.trans (drainUntil_yields _ v)
  unfold onExpiredToken andThen takeDispatch OpenStreams.take
  dsimp only
  split
  · rename_i he
    obtain ⟨-, rfl⟩ := Prod.mk.inj he
    exact hdrains.trans (erase_yields stream _ _)
  · rename_i p d he
    obtain ⟨-, rfl⟩ := Prod.mk.inj he
    split
    · exact hdrains.trans (erase_yields stream _ _)
    · exact hdrains.trans (erase_yields stream _ _)

theorem onRefused_yields (stream : Nat) (c : Connection) : c.Yields (c.onRefused stream) := by
  unfold onRefused takeDispatch OpenStreams.take
  dsimp only
  split
  · rename_i he
    obtain ⟨-, rfl⟩ := Prod.mk.inj he
    exact erase_yields stream c []
  · rename_i p d he
    obtain ⟨hget, rfl⟩ := Prod.mk.inj he
    split
    · rename_i q hq
      have hid : q.id = p.id := by
        split at hq
        · obtain ⟨-, rfl⟩ := claimRefused?_eq_some hq
          rfl
        · cases hq
      let d : Connection :=
        { c with streams := c.streams.erase stream, retries := c.retries ++ [q] }
      refine .of_same c d rfl rfl rfl (fun _ h => h) (fun x h => ?_) []
      rcases List.mem_append.mp h with h | h
      · rcases List.mem_append.mp h with h | h
        · exact ⟨x, List.mem_append_left _ h, rfl⟩
        · obtain rfl := List.mem_singleton.mp h
          have hm := OpenStreams.get?_mem hget
          exact ⟨p, List.mem_append_right _ (List.mem_map.mpr ⟨_, hm, rfl⟩), hid.symm⟩
      · have hs := List.map_subset Prod.snd (List.filter_subset_self c.streams.slots) h
        exact ⟨x, List.mem_append_right _ hs, rfl⟩
    · exact erase_yields stream c _

theorem onResult_yields (time : Moment) (stream : Nat) (r : StreamResult) (c : Connection) :
    c.Yields (c.onResult s time stream r) := by
  let f : Connection := { c.forget stream with lastActivity := time }
  have hforgets : c.Yields (f, []) :=
    .of_same c f rfl rfl rfl (fun _ h => h) (fun p h => ⟨p, h, rfl⟩) []
  have hresolves (how : Dispatch → Report) : c.Yields (f.resolve stream how) :=
    hforgets.trans (erase_yields stream f _)
  have hresult := result_cases (s := s) time stream r c
  generalize c.onResult s time stream r = o at hresult ⊢
  cases hresult with
  | resolves how => exact hresolves how
  | drains how => exact (hresolves how).then_drainUntil _
  | expires status apnsId timestamp => exact hforgets.trans (onExpiredToken_yields ..)
  | refuses => exact hforgets.trans (onRefused_yields stream f)

theorem step_yields (now : Present) (c : Connection) (i : ConnectionInput) :
    c.Yields (c.step s now i) := by
  have hnotes (d : Connection) (hp : d.phase = c.phase) (hs : d.canSend = c.canSend)
      (ho : d.commandsOpen = c.commandsOpen) (hc : ∀ p ∈ d.commands, p ∈ c.commands)
      (hw : ∀ p ∈ d.written, p ∈ c.written) (as : List ConnectionAction) : c.Yields (d, as) :=
    .of_same c d hp hs ho hc (fun p h => ⟨p, hw p h, rfl⟩) as
  cases i with
  | readiness r =>
    cases r with
    | ready =>
      exact hnotes { c with ready := true, blocked := false } rfl rfl rfl (fun _ h => h)
        (fun _ h => h) _
    | pending =>
      exact hnotes { c with blocked := true } rfl rfl rfl (fun _ h => h) (fun _ h => h) _
    | failed => exact drainUntil_yields _ c
  | retry a =>
    unfold step
    dsimp only
    split
    · exact .refl c []
    · rename_i p rest hr
      refine (hnotes { c with retries := rest } rfl rfl rfl (fun _ h => h) ?_ []).trans
        (write_yields now a p _)
      intro q hq
      rcases List.mem_append.mp hq with hq | hq
      · exact List.mem_append_left _ (hr ▸ List.mem_cons_of_mem p hq)
      · exact List.mem_append_right _ hq
  | command a =>
    unfold step
    dsimp only
    split
    · exact .refl c []
    · rename_i p rest hr
      refine (hnotes { c with commands := rest } rfl rfl rfl ?_ (fun _ h => h) []).trans
        (write_yields now a p _)
      exact fun q hq => hr ▸ List.mem_cons_of_mem p hq
  | result stream r => exact onResult_yields now.time stream r c
  | tokenExpired =>
    exact hnotes { c with token := c.token.map TokenKeeper.invalidate } rfl rfl rfl
      (fun _ h => h) (fun _ h => h) []
  | drainDeadline | finish => exact finish_yields c
  | abandoned | shutdown _ => exact drainUntil_yields _ c
  | transportEnded =>
    exact (hnotes { c with watchesTransport := false } rfl rfl rfl (fun _ h => h)
      (fun _ h => h) []).then_drainUntil _
  | pingFailed =>
    exact (hnotes { c with watchesPing := false } rfl rfl rfl (fun _ h => h)
      (fun _ h => h) []).then_drainUntil _

end Connection

end PushDelivery
