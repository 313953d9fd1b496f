import PushDelivery.Proofs.Balance

namespace PushDelivery

/-- The notifications that the pool takes off its channel. -/
def Episode.taken (e : Episode) : List Dispatch :=
  (e.message?.toList ++ e.discarded).filterMap PoolMessage.dispatch?

/-- What is to be seen of a client that closes, from the episode in which its pool is told on. -/
structure Closes (e : Episode) (post : List Episode) (w : World) : Prop where
  closing : w.pool.closing ≠ none
  waiters : w.pool.waiters = []
  connecting : w.pool.connecting = []
  unplanned : w.pool.reconnectAt = none
  fewer : w.pool.connectionIds.Sublist e.before.pool.connectionIds
  attempts : ∀ f ∈ e :: post, ∀ id, .attempt id ∉ f.happenings
  added : ∀ f ∈ e :: post, .count .connectionAdded ∉ f.happenings
  fails : ∀ f ∈ e :: post, ∀ p ∈ f.taken, .report (p.fail .clientClosed) ∈ f.happenings

variable {config : ClientConfig} {es post : List Episode} {e : Episode} {v w : World}

theorem History.nothing_waits_of_closing (h : History config es w) (hc : w.pool.closing ≠ none) :
    w.pool.waiters = [] ∧ w.pool.connecting = [] ∧ w.pool.reconnectAt = none := by
  unfold History at h
  induction h with
  | nil =>
    obtain ⟨k, hp, -⟩ := Pool.fill_spec { pool := .ofConfig config }
    rw [World.start_eq, (World.each_perform_keeps _ _).1, Pool.start, hp] at hc
    exact absurd rfl hc
  | @snoc es v e hr he ih =>
    cases World.step?_poolSide (History.sound hr).tidy he.2 with
    | queues new apart runs pool | late apart ended pool =>
      dsimp only at pool
      rw [pool] at hc ⊢
      exact ih hc
    | turn t turns accepts pool =>
      dsimp only at pool
      rw [pool] at hc ⊢
      obtain ⟨hstrong, hclears, -⟩ := History.turn_strong hr turns
      exact ⟨hclears hc, hstrong.stopped hc, hstrong.no_plan hc⟩
    | last t turns finished pool =>
      dsimp only at pool
      rw [pool] at hc ⊢
      obtain ⟨hstrong, -⟩ := History.turn_strong hr turns
      exact ⟨rfl, hstrong.stopped hc, hstrong.no_plan hc⟩

theorem Episode.message?_eq_some {m : PoolMessage} (h : e.message? = some m) :
    e.before.poolInput? e.move = some (.message m) := by
  unfold message? at h
  split at h
  · rename_i hmove
    rw [hmove, World.poolInput?, h]
    rfl
  · cases h

def Episode.IsClosing (e : Episode) : Prop :=
  e.before.pool.closing ≠ none ∨ ∃ caller, e.message? = some (.shutdown caller)

theorem Episode.message?_eq_none (apart : e.before.poolInput? e.move = none) :
    e.message? = none := by
  cases hm : e.message? with
  | none => rfl
  | some m => exact absurd (apart.symm.trans (message?_eq_some hm)) (by simp)

theorem Episode.IsClosing.of_apart (h : e.IsClosing) (apart : e.before.poolInput? e.move = none) :
    e.before.pool.closing ≠ none := by
  refine h.resolve_right fun ⟨caller, hm⟩ => ?_
  rw [message?_eq_none apart] at hm
  cases hm

theorem Episode.IsClosing.of_turns {t : PoolTurn} (h : e.IsClosing)
    (turns : e.before.Turns e.move t) :
    t.work.pool.closing ≠ none ∧ t.before.Winds t.work ∧
      ∀ p ∈ e.message?.toList.filterMap PoolMessage.dispatch?,
        .report (p.fail .clientClosed) ∈ t.work.actions := by
  have hinput {m : PoolMessage} (hm : e.message? = some m) : t.input = .message m :=
    Option.some.inj (turns.input.symm.trans (message?_eq_some hm))
  have hclosing : t.before.closing ≠ none ∨ ∃ caller, t.input = .message (.shutdown caller) := by
    rw [turns.follows.1]
    exact h.imp_right fun ⟨caller, hm⟩ => ⟨caller, hinput hm⟩
  obtain ⟨hstays, hwinds, hfails⟩ := PoolTurn.winds hclosing
  refine ⟨hstays, hwinds, fun p hp => ?_⟩
  obtain ⟨m, hm, hp⟩ := List.mem_filterMap.mp hp
  exact hfails m p (hinput (Option.mem_toList.mp hm)) hp

/-- What a move does in which the pool closes. -/
structure Episode.Winds (e : Episode) : Prop where
  closing : e.after.pool.closing ≠ none
  fewer : e.after.pool.connectionIds.Sublist e.before.pool.connectionIds
  quiet : ∀ a ∈ deeds e.happenings, a.begins = false
  fails : ∀ p ∈ e.taken, .report (p.fail .clientClosed) ∈ e.happenings

theorem Episode.Follows.winds (he : e.Follows v) (hv : v.Tidy) (hc : e.IsClosing) : e.Winds := by
  obtain ⟨rfl, hstep⟩ := he
  cases World.step?_poolSide hv hstep with
  | queues new apart runs pool channel callers quiet =>
    dsimp only at pool quiet
    refine ⟨pool ▸ hc.of_apart apart, pool ▸ .refl _, ?_, fun p hp => ?_⟩
    · rw [quiet]
      simp
    · simp [taken, message?_eq_none apart, discarded, pool, runs] at hp
  | late apart ended pool channel answers =>
    dsimp only at pool answers
    refine ⟨pool ▸ hc.of_apart apart, pool ▸ .refl _, ?_, fun p hp => ?_⟩
    · rw [answers]
      intro a ha
      obtain ⟨caller, -, rfl⟩ := List.mem_map.mp ha
      rfl
    · simp [taken, message?_eq_none apart, discarded, ended] at hp
  | turn t turns accepts pool channel deeds reports =>
    dsimp only at pool deeds reports
    obtain ⟨hclosing, hwinds, hfails⟩ := hc.of_turns turns
    refine ⟨pool ▸ hclosing, ?_, fun a ha => ?_, fun p hp => ?_⟩
    · rw [pool, ← turns.follows.1]
      exact hwinds.fewer
    · rw [deeds] at ha
      exact hwinds.quiet a (List.mem_of_mem_filter ha)
    · refine reports _ (hfails p ?_)
      have hrun : e.after.pool.ended = false := by
        rw [pool, t.work_ended, turns.follows.1]
        exact turns.runs
      simpa [taken, discarded, hrun] using hp
  | last t turns finished pool channel deeds reports fails =>
    dsimp only at pool deeds reports fails
    obtain ⟨hclosing, hwinds, hfails⟩ := hc.of_turns turns
    refine ⟨?_, ?_, fun a ha => ?_, fun p hp => ?_⟩
    · rw [pool]
      exact hclosing
    · rw [pool, ← turns.follows.1]
      exact hwinds.fewer
    · rw [deeds] at ha
      rcases List.mem_append.mp ha with ha | ha
      · exact hwinds.quiet a (List.mem_of_mem_filter ha)
      · obtain ⟨caller, -, rfl⟩ := List.mem_map.mp ha
        rfl
    · rw [taken, List.filterMap_append] at hp
      rcases List.mem_append.mp hp with hp | hp
      · exact reports _ (hfails p hp)
      · refine fails p ?_
        unfold discarded at hp
        split at hp
        · exact hp
        · cases hp

theorem Episode.Winds.attempt (h : e.Winds) (id : Nat) : .attempt id ∉ e.happenings :=
  fun hm => Bool.noConfusion (h.quiet _ (mem_deeds (a := .attempt id) rfl hm))

theorem Episode.Winds.added (h : e.Winds) : .count .connectionAdded ∉ e.happenings :=
  fun hm => Bool.noConfusion (h.quiet _ (mem_deeds (a := .count .connectionAdded) rfl hm))

theorem Closes.of_history {caller : Option Nat} (h : History config (es ++ [e] ++ post) w)
    (hm : e.message? = some (.shutdown caller)) : Closes e post w := by
  induction post using List.reverseRecOn generalizing w with
  | nil =>
    rw [List.append_nil] at h
    obtain ⟨v, hr, he, rfl⟩ := Run.last h
    have hwinds := he.winds (History.sound hr).tidy (.inr ⟨caller, hm⟩)
    obtain ⟨hwaiters, hconnecting, hplan⟩ := History.nothing_waits_of_closing h hwinds.closing
    refine ⟨hwinds.closing, hwaiters, hconnecting, hplan, hwinds.fewer, ?_, ?_, ?_⟩
    all_goals
      intro f hf
      obtain rfl := List.mem_singleton.mp hf
    · exact hwinds.attempt
    · exact hwinds.added
    · exact hwinds.fails
  | append_singleton post f ih =>
    rw [← List.append_assoc] at h
    obtain ⟨v, hr, hf, rfl⟩ := Run.last h
    have hbefore := ih hr
    have hwinds := hf.winds (History.sound hr).tidy (.inl (hf.1 ▸ hbefore.closing))
    obtain ⟨hwaiters, hconnecting, hplan⟩ := History.nothing_waits_of_closing h hwinds.closing
    have hall {P : Episode → Prop} (hpost : ∀ g ∈ e :: post, P g) (hlast : P f) :
        ∀ g ∈ e :: (post ++ [f]), P g := by
      intro g hg
      rcases List.mem_append.mp (List.cons_append ▸ hg : g ∈ (e :: post) ++ [f]) with hg | hg
      · exact hpost g hg
      · obtain rfl := List.mem_singleton.mp hg
        exact hlast
    refine ⟨hwinds.closing, hwaiters, hconnecting, hplan, ?_, hall hbefore.attempts hwinds.attempt,
      hall hbefore.added hwinds.added, hall hbefore.fails hwinds.fails⟩
    exact (hf.1 ▸ hwinds.fewer).trans hbefore.fewer

/-- Closing a client is final: nothing waits or is planned or opened from then on, and whatever
comes to the pool fails. It is balanced: at every moment of every run the connections that were
counted in and not out are those that are there. At the end there are none, and of all who have
closed the client each has been answered or let go. -/
theorem shutdown_final_and_balanced (config : ClientConfig) (es : List Episode) (w : World)
    (h : History config es w) :
    (∀ pre e post caller, es = pre ++ e :: post → e.message? = some (.shutdown caller) →
      Closes e post w) ∧
    (totals es).connectionsAdded = (totals es).connectionsRemoved + w.pool.connections.length ∧
    (w.pool.ended = true → w.pool.connections = [] ∧
      (totals es).connectionsAdded = (totals es).connectionsRemoved ∧
      (asked es).Perm (answered es ++ letGo es)) := by
  obtain ⟨hadded, hremoved⟩ := Totals.connections_eq_count (metrics es)
  have hbalanced := h.balanced
  have hcounts : (totals es).connectionsAdded =
      (totals es).connectionsRemoved + w.pool.connections.length := by
    rw [totals, hadded, hremoved]
    exact hbalanced.counts
  refine ⟨?_, hcounts, fun hended => ?_⟩
  · rintro pre e post caller rfl hm
    rw [List.append_cons] at h
    exact Closes.of_history h hm
  · obtain ⟨hempty, hperm⟩ := hbalanced.finished hended
    rw [hempty] at hcounts
    exact ⟨hempty, hcounts, hperm⟩

def parting (id : Nat) : Dispatch :=
  ⟨id, ⟨"00fc13ad", "com.example.app", "\x7b\x7d", none, .immediate, none, none, none⟩,
    false, false, false⟩

/-- Two sends find the client open before it is closed and submit after that: the first behind the
message that closes the pool, the second behind the one with which the pool ends. A second caller
closes the client behind both. -/
def closing : Option (List Episode × World) :=
  let n := (parting 1).notification
  (World.start .plain).1.play <|
    [.connected 1, .pool, .pass, .pass, .send n, .pool, .close 7, .submit n, .pool, .pool,
      .connection 1 (.shutdown (Moment.after 0 ClientConfig.plain.gracePeriod)),
      .connection 1 .finish, .submit n, .close 8, .pool, .pool, .pool].map fun m => (m, ⟨0, 0⟩, 0)

def endsWithBoth (es : List Episode) : Bool :=
  match es with
  | [] => false
  | e :: post => e.message? == some (.shutdown (some 7)) &&
      post.any (fun f => f.message? == some (.submit (parting 2))) &&
      post.any fun f => f.discarded.contains (.submit (parting 3))

theorem balanced_of_closing : ∃ pre e post w, History .plain (pre ++ e :: post) w ∧
    Closes e post w ∧
    (∃ f ∈ post, f.message? = some (.submit (parting 2)) ∧
      .report ((parting 2).fail .clientClosed) ∈ f.happenings) ∧
    (∃ f ∈ post, .submit (parting 3) ∈ f.discarded ∧
      .report ((parting 3).fail .clientClosed) ∈ f.happenings) ∧
    w.pool.ended = true ∧
      (asked (pre ++ e :: post)).Perm
        (answered (pre ++ e :: post) ++ letGo (pre ++ e :: post)) := by
  have hd : closing.any (fun x => x.2.pool.ended && endsWithBoth (x.1.drop 8)) = true := by
    decide +kernel
  obtain ⟨⟨es, w⟩, hplay, hx⟩ := (Option.any_eq_true _ _).mp hd
  obtain ⟨hended, hx⟩ := Bool.and_eq_true_iff.mp hx
  dsimp only at hx
  obtain ⟨pre, e, post, rfl, hm, hqueued, hdiscarded⟩ : ∃ pre e post, es = pre ++ e :: post ∧
      e.message? = some (.shutdown (some 7)) ∧
      (∃ f ∈ post, f.message? = some (.submit (parting 2))) ∧
      ∃ f ∈ post, .submit (parting 3) ∈ f.discarded := by
    cases hdrop : es.drop 8 with
    | nil =>
      rw [hdrop] at hx
      cases hx
    | cons e post =>
      rw [hdrop] at hx
      simp only [endsWithBoth, Bool.and_eq_true, beq_iff_eq, List.any_eq_true,
        List.contains_iff_mem] at hx
      refine ⟨es.take 8, e, post, ?_, hx.1.1, hx.1.2, hx.2⟩
      rw [← hdrop, List.take_append_drop]
  have hrun : History .plain (pre ++ e :: post) w := (Run.of_play hplay).1
  obtain ⟨hfinal, -, hover⟩ := shutdown_final_and_balanced .plain (pre ++ e :: post) w hrun
  have hcloses : Closes e post w := hfinal pre e post (some 7) rfl hm
  refine ⟨pre, e, post, w, hrun, hcloses, ?_, ?_, hended, (hover hended).2.2⟩
  · obtain ⟨f, hf, hqueued⟩ := hqueued
    refine ⟨f, hf, hqueued, hcloses.fails f (List.mem_cons_of_mem _ hf) _ ?_⟩
    simp [Episode.taken, hqueued, PoolMessage.dispatch?]
  · obtain ⟨f, hf, hdiscarded⟩ := hdiscarded
    refine ⟨f, hf, hdiscarded, hcloses.fails f (List.mem_cons_of_mem _ hf) _ ?_⟩
    exact List.mem_filterMap.mpr ⟨_, List.mem_append_right _ hdiscarded, rfl⟩

end PushDelivery
