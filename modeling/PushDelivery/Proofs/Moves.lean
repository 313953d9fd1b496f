import PushDelivery.Client.World

namespace PushDelivery

namespace World

/-- A notification as it comes in. -/
def incoming (w : World) (n : Notification) : Dispatch :=
  ⟨w.ids.next, n, false, false, false⟩

/-- The client when an attempt has come up with a connection and the pool has been told. -/
def withConnection (w : World) (id : Nat) : World :=
  { w with
    attempts := w.attempts.filter (· != id)
    connections := w.connections ++ [Connection.start w.settings id w.time]
    channel := w.channel ++ [.established id] }

/-- A connection comes up, and drains at once if the client is closing. -/
def bringUp (w : World) (id : Nat) : Effect :=
  andThen (w.withConnection id, [.told (.established id)]) fun v =>
    match v.announced with
    | none => (v, [])
    | some deadline => v.settle ((Connection.start w.settings id w.time).drainUntil deadline)

inductive Makes (w : World) (now : Present) : Move → Effect → Prop
  | wait (d : Duration) : Makes w now (.wait d) ({ w with time := Moment.after w.time d }, [])
  | send (n : Notification) (isOpen : w.isOpen = true) (runs : w.pool.ended = false) :
      Makes w now (.send n)
        (andThen ({ w with ids := ⟨w.ids.next + 1⟩ }, [.submitted (w.incoming n)])
          fun v => v.tell (.submit (w.incoming n)))
  | sendLate (n : Notification) (isOpen : w.isOpen = true) (ended : w.pool.ended = true) :
      Makes w now (.send n) ({ w with ids := ⟨w.ids.next + 1⟩ },
        [.submitted (w.incoming n), .report ((w.incoming n).fail .clientClosed)])
  | refuse (n : Notification) (isClosed : w.isOpen = false) :
      Makes w now (.send n) (w, [.refused])
  | pass (isOpen : w.isOpen = true) :
      Makes w now .pass ({ w with passing := w.passing + 1 }, [])
  | submit (n : Notification) (passed : 0 < w.passing) (runs : w.pool.ended = false) :
      Makes w now (.submit n)
        (andThen ({ w with ids := ⟨w.ids.next + 1⟩, passing := w.passing - 1 },
          [.submitted (w.incoming n)]) fun v => v.tell (.submit (w.incoming n)))
  | submitLate (n : Notification) (passed : 0 < w.passing) (ended : w.pool.ended = true) :
      Makes w now (.submit n) ({ w with ids := ⟨w.ids.next + 1⟩, passing := w.passing - 1 },
        [.submitted (w.incoming n), .report ((w.incoming n).fail .clientClosed)])
  | close (caller : Nat) (runs : w.pool.ended = false) :
      Makes w now (.close caller) ({ w with isOpen := false }.tell (.shutdown (some caller)))
  | closeLate (caller : Nat) (ended : w.pool.ended = true) :
      Makes w now (.close caller) ({ w with isOpen := false }, [.answered caller])
  | leave (isOpen : w.isOpen = true) :
      Makes w now .leave ({ w with isOpen := false }.tell (.shutdown none))
  | leaveLate (isClosed : w.isOpen = false) : Makes w now .leave (w, [])
  | pool {msg : PoolMessage} {rest : List PoolMessage} (first : w.channel = msg :: rest)
      (runs : w.pool.ended = false) : Makes w now .pool
        ({ w with channel := rest }.carryOut (w.pool.onMessage w.accepts w.time msg) false)
  | timer {t : Pool.PoolTimer} (runs : w.pool.ended = false)
      (due : ((w.pool.deadline? t).any fun d => d ≤ w.time) = true) :
      Makes w now (.timer t) (w.carryOut (w.pool.onTimer w.time t) (t == .force))
  | connected {id : Nat} (attempted : id ∈ w.attempts) (runs : w.pool.ended = false) :
      Makes w now (.connected id) (w.bringUp id)
  | connectedLate {id : Nat} (attempted : id ∈ w.attempts) (ended : w.pool.ended = true) :
      Makes w now (.connected id) ({ w with attempts := w.attempts.filter (· != id) }, [])
  | attemptFailed {id : Nat} (cause : String) (attempted : id ∈ w.attempts) :
      Makes w now (.attemptFailed id cause)
        ({ w with attempts := w.attempts.filter (· != id) }.tell (.attemptFailed id cause))
  | connection {c : Connection} {i : ConnectionInput} (there : w.find? c.id = some c)
      (awaits : c.awaits w.time i = true) (allows : w.allows i = true) :
      Makes w now (.connection c.id i) (w.settle (c.step w.settings now i))

variable {w : World} {m : Move} {date : Instant} {secret : P256.Scalar} {e : Effect}

theorem tell_runs (hr : w.pool.ended = false) (msg : PoolMessage) :
    w.tell msg = ({ w with channel := w.channel ++ [msg] }, [.told msg]) :=
  if_neg (by simp [hr])

theorem makes_of_step? (h : w.step? date secret m = some e) :
    w.Makes ⟨w.time, date, secret⟩ m e := by
  cases m with
  | wait d =>
    obtain rfl := Option.some.inj h
    exact .wait d
  | send n =>
    obtain rfl := Option.some.inj h
    split
    · rename_i ho
      unfold World.submit
      dsimp only
      split
      · rename_i he
        exact .sendLate n ho he
      · rename_i he
        exact .send n ho (by simpa using he)
    · rename_i ho
      exact .refuse n (by simpa using ho)
  | pass =>
    unfold step? at h
    dsimp only at h
    split at h
    · rename_i ho
      obtain rfl := Option.some.inj h
      exact .pass ho
    · cases h
  | submit n =>
    unfold step? at h
    dsimp only at h
    split at h
    · rename_i hp
      obtain rfl := Option.some.inj h
      unfold World.submit
      dsimp only
      split
      · rename_i he
        exact .submitLate n hp he
      · rename_i he
        exact .submit n hp (by simpa using he)
    · cases h
  | close caller =>
    obtain rfl := Option.some.inj h
    split
    · rename_i he
      exact .closeLate caller he
    · rename_i he
      exact .close caller (by simpa using he)
  | leave =>
    obtain rfl := Option.some.inj h
    split
    · rename_i ho
      exact .leave ho
    · rename_i ho
      exact .leaveLate (by simpa using ho)
  | pool =>
    unfold step? at h
    dsimp only at h
    split at h
    · cases h
    · rename_i msg rest hc
      split at h
      · cases h
      · rename_i he
        obtain rfl := Option.some.inj h
        exact .pool hc (by simpa using he)
  | timer t =>
    unfold step? at h
    dsimp only at h
    split at h
    · rename_i hc
      obtain rfl := Option.some.inj h
      obtain ⟨he, hd⟩ := Bool.and_eq_true_iff.mp hc
      exact .timer (by simpa using he) hd
    · cases h
  | connected id =>
    unfold step? at h
    dsimp only at h
    split at h
    · rename_i hm
      obtain rfl := Option.some.inj h
      split
      · rename_i he
        exact .connectedLate (by simpa using hm) he
      · rename_i he
        have hruns : w.pool.ended = false := by simpa using he
        rw [tell_runs (w := { w with
          attempts := w.attempts.filter (· != id)
          connections := w.connections ++ [Connection.start w.settings id w.time] }) hruns]
        exact .connected (by simpa using hm) hruns
    · cases h
  | attemptFailed id cause =>
    unfold step? at h
    dsimp only at h
    split at h
    · rename_i hm
      obtain rfl := Option.some.inj h
      exact .attemptFailed cause (by simpa using hm)
    · cases h
  | connection id i =>
    unfold step? at h
    cases hc : w.find? id with
    | none => simp [hc] at h
    | some c =>
      simp only [hc, Option.bind_eq_bind, Option.bind_some] at h
      split at h
      · rename_i hi
        obtain rfl := Option.some.inj h
        obtain rfl : c.id = id := by simpa using List.find?_some hc
        obtain ⟨ha, hallows⟩ := Bool.and_eq_true_iff.mp hi
        exact .connection hc ha hallows
      · cases h

end World

end PushDelivery
