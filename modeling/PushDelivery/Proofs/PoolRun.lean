import PushDelivery.Proofs.PoolWork

namespace PushDelivery

inductive PoolInput where
  | message (m : PoolMessage)
  | timer (t : Pool.PoolTimer)

/-- A step of the pool with all that it is told from outside. -/
structure PoolTurn where
  before : Pool
  input : PoolInput
  time : Moment
  accepts : Pool.Acceptance

namespace PoolTurn

def work (t : PoolTurn) : Pool.Work :=
  match t.input with
  | .message m => t.before.onMessage t.accepts t.time m
  | .timer x => t.before.onTimer t.time x

theorem work_of_message {t : PoolTurn} {m : PoolMessage} (h : t.input = .message m) :
    t.work = t.before.onMessage t.accepts t.time m := by
  simp [work, h]

theorem work_of_timer {t : PoolTurn} {x : Pool.PoolTimer} (h : t.input = .timer x) :
    t.work = t.before.onTimer t.time x := by
  simp [work, h]

/-- Whether what the step deals with can come now: a timer goes off when it is set and due. -/
def isDue (t : PoolTurn) : Bool :=
  match t.input with
  | .message _ => true
  | .timer x => (t.before.deadline? x).any fun d => d ≤ t.time

def Follows (p : Pool) (t : PoolTurn) : Prop :=
  t.before = p ∧ t.isDue = true

end PoolTurn

def Pool.start (config : ClientConfig) : Pool.Work :=
  Pool.fill { pool := .ofConfig config }

inductive PoolRun (config : ClientConfig) : List PoolTurn → Pool → Prop
  | start : PoolRun config [] (Pool.start config).pool
  | turn {ts : List PoolTurn} {p : Pool} {t : PoolTurn} :
      PoolRun config ts p → t.Follows p → PoolRun config (ts ++ [t]) t.work.pool

/-- Time does not go back from one step to the next. -/
def Chronological (ts : List PoolTurn) : Prop :=
  ts.Pairwise fun t u => t.time ≤ u.time

instance (ts : List PoolTurn) : Decidable (Chronological ts) :=
  inferInstanceAs (Decidable (ts.Pairwise fun t u => t.time ≤ u.time))

variable {config : ClientConfig} {ts : List PoolTurn} {p : Pool}

theorem chronological_snoc {t : PoolTurn} :
    Chronological (ts ++ [t]) ↔ Chronological ts ∧ ∀ u ∈ ts, u.time ≤ t.time := by
  simp [Chronological, List.pairwise_append]

theorem PoolRun.invariant {P : Pool → Prop} (h : PoolRun config ts p)
    (start : P (Pool.start config).pool)
    (message : ∀ p accepts time m, P p → P (p.onMessage accepts time m).pool)
    (timer : ∀ p time x, P p → P (p.onTimer time x).pool) : P p := by
  induction h with
  | start => exact start
  | @turn ts p t _ ht ih =>
    obtain ⟨rfl, -⟩ := ht
    unfold PoolTurn.work
    split
    · exact message _ _ _ _ ih
    · exact timer _ _ _ ih

def Pool.play (accepts : Acceptance) (p : Pool) :
    List (Moment × PoolInput) → Option (List PoolTurn × Pool)
  | [] => some ([], p)
  | (time, input) :: rest =>
    let t : PoolTurn := ⟨p, input, time, accepts⟩
    if t.isDue then (t.work.pool.play accepts rest).map fun x => (t :: x.1, x.2) else none

theorem PoolRun.of_play {accepts : Pool.Acceptance} {xs : List (Moment × PoolInput)}
    {us : List PoolTurn} {q : Pool} (h : PoolRun config ts p)
    (hp : p.play accepts xs = some (us, q)) : PoolRun config (ts ++ us) q := by
  induction xs generalizing ts p us with
  | nil =>
    obtain ⟨rfl, rfl⟩ := Prod.mk.inj (Option.some.inj hp)
    simpa using h
  | cons x xs ih =>
    obtain ⟨time, input⟩ := x
    unfold Pool.play at hp
    dsimp only at hp
    split at hp
    · rename_i hdue
      obtain ⟨⟨vs, r⟩, hplay, he⟩ := Option.map_eq_some_iff.mp hp
      obtain ⟨rfl, rfl⟩ := Prod.mk.inj he
      have hlater := ih (h.turn ⟨rfl, hdue⟩) hplay
      simpa using hlater
    · cases hp

end PushDelivery
