import PushDelivery.Proofs.ConnectionProtocol
import PushDelivery.Proofs.ConnectionQueues
import Mathlib.Logic.Relation

namespace PushDelivery

/-- What a phase can become, in one step or in many: the deadline never moves to a later time. -/
inductive ConnectionPhase.Leads : ConnectionPhase → ConnectionPhase → Prop
  | connected (after : ConnectionPhase) : Leads .connected after
  | draining {t u : Moment} (earlier : u ≤ t) : Leads (.draining t) (.draining u)
  | closing (t : Moment) : Leads (.draining t) .closed
  | closed : Leads .closed .closed

namespace ConnectionPhase.Leads

variable {x y z : ConnectionPhase}

theorem refl (x : ConnectionPhase) : x.Leads x := by
  cases x with
  | connected => exact .connected _
  | draining t => exact .draining (Nat.le_refl t)
  | closed => exact .closed

theorem trans (h : x.Leads y) (h' : y.Leads z) : x.Leads z := by
  cases h with
  | connected => exact .connected z
  | draining earlier =>
    cases h' with
    | draining earlier' => exact .draining (Nat.le_trans earlier' earlier)
    | closing => exact .closing _
  | closing t =>
    cases h'
    exact .closing t
  | closed => exact h'

theorem to_closed (x : ConnectionPhase) : x.Leads .closed := by
  cases x with
  | connected => exact .connected _
  | draining t => exact .closing t
  | closed => exact .closed

end ConnectionPhase.Leads

namespace Connection

variable {s : ConnectionSettings} {now : Present} {c d : Connection} {i : ConnectionInput}
  {id : Nat} {born : Moment} {as : List ConnectionAction}

theorem drainUntil_leads (t : Moment) (c : Connection) :
    c.phase.Leads (c.drainUntil t).1.phase := by
  unfold drainUntil
  split
  · rename_i hc
    rw [hc]
    exact .connected _
  · rename_i current hc
    rw [hc]
    split
    · rename_i hlt
      exact .draining (Nat.le_of_lt hlt)
    · rw [hc]
      exact .refl _
  · exact .refl _

theorem Becomes.leads (h : Becomes s now c i d) : c.phase.Leads d.phase :=
  h.phase_of_drains (.refl _) fun d t hp => hp.trans (drainUntil_leads t d)

theorem step_leads (now : Present) (c : Connection) (i : ConnectionInput) :
    c.phase.Leads (c.step s now i).1.phase := by
  rcases step_becomes (s := s) now c i with h | h
  · rw [h]
    exact .to_closed _
  · exact h.leads

/-- One thing that happens to a connection: it takes a notification from the pool, or it steps. -/
inductive Moves (s : ConnectionSettings) (c : Connection) : Connection → Prop
  | takes (p : Dispatch) : c.commandsOpen = true → Moves s c (c.takeCommand p)
  | step (now : Present) (i : ConnectionInput) : c.phase ≠ .closed →
      c.awaits now.time i = true → Moves s c (c.step s now i).1

theorem Moves.leads (h : c.Moves s d) : c.phase.Leads d.phase := by
  cases h with
  | takes p => exact .refl _
  | step now i => exact step_leads now c i

/-- A connection that has nothing left to write and could not write it. -/
structure Idle (c : Connection) : Prop where
  canSend : c.canSend = false
  ready : c.ready = false
  commands : c.commands = []
  commandsOpen : c.commandsOpen = false
  retries : c.retries = []

/-- Only a connection that serves has anything to write. -/
def Rests (c : Connection) : Prop :=
  c.phase ≠ .connected → c.Idle

/-- Whatever leaves the queues and the transport alone. -/
theorem Rests.of_same (h : c.Rests) (phase : d.phase = c.phase) (canSend : d.canSend = c.canSend)
    (ready : d.ready = c.ready) (commands : d.commands = c.commands)
    (commandsOpen : d.commandsOpen = c.commandsOpen) (retries : d.retries = c.retries) :
    d.Rests := by
  intro hd
  have hc := h (phase ▸ hd)
  exact ⟨canSend.trans hc.canSend, ready.trans hc.ready, commands.trans hc.commands,
    commandsOpen.trans hc.commandsOpen, retries.trans hc.retries⟩

theorem Rests.drainUntil (h : c.Rests) (t : Moment) : (c.drainUntil t).1.Rests := by
  unfold Connection.drainUntil
  split
  · exact fun _ => ⟨rfl, rfl, rfl, rfl, rfl⟩
  · rename_i current hc
    have hidle := h (by simp [hc])
    split
    · exact fun _ => ⟨hidle.canSend, hidle.ready, hidle.commands, hidle.commandsOpen,
        hidle.retries⟩
    · exact h
  · exact h

/-- The highest stream ever registered is one that the transport has opened. -/
def Numbers (c : Connection) (o : Effect) : Prop :=
  o.1.streams.highest = c.streams.highest ∨ ∃ p r, .opened o.1.streams.highest p r ∈ o.2

theorem Numbers.of_same {o : Effect} (h : o.1.streams.highest = c.streams.highest) :
    c.Numbers o :=
  .inl h

theorem Life.orderly (h : Life s id born as c) : c.Orderly := by
  induction h with
  | start => exact start_orderly s id born
  | takes p _ _ ih => exact ⟨ih.flight, ih.streams⟩
  | step now i _ _ _ ih => exact (step_passes ih now i).orderly

theorem Life.coherent (h : Life s id born as c) : c.Coherent := by
  induction h with
  | start => exact start_coherent s id born
  | takes p _ hopen ih =>
    refine ⟨ih.serves, fun hc => ?_⟩
    have hclosed := (ih.idle hc).2
    rw [hopen] at hclosed
    cases hclosed
  | step now i _ _ _ ih => exact (step_yields now _ i).coherent ih

/-- A connection that puts a notification on its first stream, and then does some more. -/
def engaged (more : List (Dispatch ⊕ ConnectionInput)) : Option Effect :=
  let settings := ConnectionSettings.ofConfig (.standard "gateway.example" .none)
  let p : Dispatch := ⟨1, ⟨"00fc13ad", "com.example.app", "\x7b\x7d", none, .immediate, none, none,
    none⟩, false, false, false⟩
  play settings (.start settings 1 0, [])
    (.inr (.readiness .ready) :: .inl p :: .inr (.command (.opened 1)) :: more)

theorem life_of_engaged {more : List (Dispatch ⊕ ConnectionInput)}
    (h : engaged more = some (c, as)) :
    Life (.ofConfig (.standard "gateway.example" .none)) 1 0 as c :=
  Life.of_play (o := (_, [])) .start h

end Connection

end PushDelivery
