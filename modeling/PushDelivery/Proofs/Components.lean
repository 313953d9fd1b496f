import PushDelivery.Proofs.ConnectionProtocol
import PushDelivery.Proofs.Evolution
import PushDelivery.Proofs.PoolRun

namespace PushDelivery

variable {config : ClientConfig} {es : List Episode} {w : World}

namespace World

def poolInput? (w : World) : Move → Option PoolInput
  | .pool => w.channel.head?.map .message
  | .timer t => some (.timer t)
  | _ => none

/-- A turn of the pool in a move. -/
structure Turns (w : World) (m : Move) (t : PoolTurn) : Prop where
  follows : t.Follows w.pool
  input : w.poolInput? m = some t.input
  time : t.time = w.time
  runs : w.pool.ended = false

def turn? (w : World) (m : Move) : Option PoolTurn :=
  (w.poolInput? m).map fun i => ⟨w.pool, i, w.time, w.accepts⟩

/-- What a move makes of the pool. -/
inductive Steers (w : World) (m : Move) : Pool → Prop
  | still : Steers w m w.pool
  | turn {t : PoolTurn} (turns : w.Turns m t) : Steers w m t.work.pool
  | last {t : PoolTurn} (turns : w.Turns m t) :
      Steers w m { t.work.pool with waiters := [], ended := true }

variable {v : World} {m : Move} {e : Effect}

theorem each_keeps {α β : Type} (g : World → β) {f : World → α → Effect}
    (hf : ∀ w a, g (f w a).1 = g w) (as : List α) (w : World) : g (each f w as).1 = g w := by
  induction as generalizing w with
  | nil => rfl
  | cons a as ih =>
    rw [each_cons]
    exact (ih _).trans (hf w a)

theorem each_perform_keeps (as : List PoolAction) (w : World) :
    (each perform w as).1.pool = w.pool ∧ (each perform w as).1.time = w.time ∧
      (each perform w as).1.channel = w.channel := by
  have hkeeps := each_keeps (fun w => (w.pool, w.time, w.channel)) (f := perform) ?_ as w
  · obtain ⟨hpool, hrest⟩ := Prod.mk.inj hkeeps
    exact ⟨hpool, Prod.mk.inj hrest⟩
  · intro w a
    cases a with
    | handOff id p =>
      unfold perform
      dsimp only
      cases w.find? id with
      | none => rfl
      | some c => rfl
    | _ => rfl

theorem each_act_keeps (id : Nat) (as : List ConnectionAction) (w : World) :
    (each (act id) w as).1.pool = w.pool ∧ (each (act id) w as).1.time = w.time := by
  have hkeeps := each_keeps (fun w => (w.pool, w.time)) (f := act id) ?_ as w
  · exact Prod.mk.inj hkeeps
  · intro w a
    cases a with
    | tell msg =>
      obtain ⟨⟨channel, hv⟩, -⟩ := tell_frame w msg
      unfold act
      rw [hv]
    | _ => rfl

/-- What a move does to time and to the pool. -/
structure Passes (w : World) (m : Move) (v : World) : Prop where
  time : w.time ≤ v.time
  pool : w.Steers m v.pool

theorem Passes.of_still (ht : w.time ≤ v.time) (hp : v.pool = w.pool) : w.Passes m v :=
  ⟨ht, hp ▸ .still⟩

theorem tell_passes (msg : PoolMessage) (ht : v.time = w.time) (hp : v.pool = w.pool) :
    w.Passes m (v.tell msg).1 := by
  obtain ⟨⟨channel, hv⟩, -⟩ := tell_frame v msg
  rw [hv]
  exact .of_still ht.ge hp

theorem settle_passes (o : Connection.Effect) (ht : v.time = w.time) (hp : v.pool = w.pool) :
    w.Passes m (v.settle o).1 := by
  unfold settle
  dsimp only
  split
  · obtain ⟨hpool, htime⟩ := each_act_keeps o.1.id o.2 (v.remove o.1.id)
    exact .of_still (htime.trans ht).ge (hpool.trans hp)
  · obtain ⟨hpool, htime⟩ := each_act_keeps o.1.id o.2 (v.set o.1)
    exact .of_still (htime.trans ht).ge (hpool.trans hp)

theorem carryOut_passes {t : PoolTurn} (turns : w.Turns m t) (ends : Bool)
    (ht : v.time = w.time) : w.Passes m (v.carryOut t.work ends).1 := by
  unfold carryOut
  split
  · obtain ⟨hpool, htime, -⟩ := each_perform_keeps (Pool.finish v.channel t.work).actions
      { v with pool := (Pool.finish v.channel t.work).pool, channel := [] }
    refine ⟨(htime.trans ht).ge, ?_⟩
    rw [hpool]
    exact .last turns
  · obtain ⟨hpool, htime, -⟩ := each_perform_keeps t.work.actions { v with pool := t.work.pool }
    refine ⟨(htime.trans ht).ge, ?_⟩
    rw [hpool]
    exact .turn turns

theorem step?_passes {date : Instant} {secret : P256.Scalar} (h : w.step? date secret m = some e) :
    w.Passes m e.1 := by
  cases makes_of_step? h with
  | wait d => exact .of_still (Nat.le_add_right _ _) rfl
  | pass ho | sendLate n ho he | submitLate n hp he | refuse n ho | closeLate caller he
  | leaveLate ho | connectedLate hm he =>
    exact .of_still le_rfl rfl
  | send n ho he | submit n hp he | close caller he | leave ho | attemptFailed cause hm =>
    apply tell_passes
    · rfl
    · rfl
  | @pool msg rest hc he =>
    let t : PoolTurn := ⟨w.pool, .message msg, w.time, w.accepts⟩
    have turns : w.Turns .pool t := ⟨⟨rfl, rfl⟩, by simp [poolInput?, hc, t], rfl, he⟩
    apply carryOut_passes turns false
    rfl
  | @timer x he hd =>
    let t : PoolTurn := ⟨w.pool, .timer x, w.time, w.accepts⟩
    have turns : w.Turns (.timer x) t := ⟨⟨rfl, hd⟩, rfl, rfl, he⟩
    apply carryOut_passes turns
    rfl
  | connected hm he =>
    unfold bringUp andThen
    dsimp only
    split
    · exact .of_still le_rfl rfl
    · apply settle_passes
      · rfl
      · rfl
  | connection hc ha hallows =>
    apply settle_passes
    · rfl
    · rfl

theorem Passes.runs (h : w.Passes m v) (hv : v.pool.ended = false) : w.pool.ended = false := by
  obtain ⟨-, hpool⟩ := h
  generalize v.pool = q at hpool hv
  cases hpool with
  | still => exact hv
  | turn turns => exact turns.runs
  | last turns => cases hv

theorem start_eq (config : ClientConfig) : start config = each perform
    { settings := .ofConfig config, pool := (Pool.start config).pool }
    (Pool.start config).actions := by
  obtain ⟨k, hp, -⟩ := Pool.fill_spec { pool := .ofConfig config }
  have hopen : (Pool.fill { pool := .ofConfig config }).pool.isFinished = false := by
    rw [hp]
    rfl
  simp [start, carryOut, hopen, Pool.start]

end World

theorem Connection.Life.takes_all {s : ConnectionSettings} {id : Nat} {born : Moment}
    {as : List ConnectionAction} {c : Connection} {more : List Dispatch} (h : Life s id born as c)
    (ho : more ≠ [] → c.commandsOpen = true) :
    Life s id born as { c with commands := c.commands ++ more } := by
  induction more generalizing c with
  | nil => simpa using h
  | cons p more ih =>
    have hopen := ho (List.cons_ne_nil p more)
    have hlife := ih (h.takes p hopen) fun _ => hopen
    simpa [takeCommand] using hlife

/-- Time does not go back in a client. -/
theorem History.before_le (h : History config es w) : ∀ e ∈ es, e.before.time ≤ w.time := by
  unfold History at h
  induction h with
  | nil => simp
  | @snoc es v e _ he ih =>
    obtain ⟨rfl, hstep⟩ := he
    have hle := (World.step?_passes hstep).time
    intro d hd
    rcases List.mem_append.mp hd with hd | hd
    · exact Nat.le_trans (ih d hd) hle
    · obtain rfl := List.mem_singleton.mp hd
      exact hle

/-- Every connection of a client leads a life, from the moment when it came up. -/
theorem History.life (h : History config es w) : ∀ c ∈ w.connections,
    ∃ born as, Connection.Life (.ofConfig config) c.id born as c := by
  refine h.forall_connections (P := fun _ c =>
    ∃ born as, Connection.Life (.ofConfig config) c.id born as c) fun es v e hr _ ih d _ hd => ?_
  have hv := hr.sound
  cases hd with
  | @same c more there taken =>
    obtain ⟨born, as, hlife⟩ := ih c there
    exact ⟨born, as, hlife.takes_all taken⟩
  | @step c i moves there awaits =>
    have hc := List.mem_of_find?_eq_some there
    obtain ⟨born, as, hlife⟩ := ih c hc
    have hsame := (Connection.step_passes (s := v.settings) (hv.tidy.orderly c hc)
      ⟨v.time, e.date, e.secret⟩ i).same
    rw [hsame, hv.settings]
    exact ⟨born, _, hlife.step _ i (hv.tidy.running c hc) awaits⟩
  | @start id moves attempted =>
    rw [hv.settings]
    exact ⟨v.time, [], .start⟩
  | @drained id t moves attempted =>
    rw [hv.settings, Connection.drainUntil_id]
    exact ⟨v.time, _, Connection.Life.start.step ⟨v.time, e.date, e.secret⟩ (.shutdown t)
      (by simp [Connection.start]) rfl⟩

end PushDelivery
