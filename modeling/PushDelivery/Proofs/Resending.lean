import PushDelivery.Proofs.Evolution
import PushDelivery.Proofs.Run
import PushDelivery.Proofs.Tokens

namespace PushDelivery

namespace Episode

def writes (n : Nat) (e : Episode) : List (Nat × Nat × Request) :=
  e.happenings.filterMap fun
    | .opened c k p r => if p.id = n then some (c, k, r) else none
    | _ => none

/-- The stream whose answer calls the token of its notification expired. -/
def expired? (e : Episode) : Option (Nat × Nat) :=
  match e.move with
  | .connection c (.result k (.reply r)) => if r.isExpired then some (c, k) else none
  | _ => none

def connected? (e : Episode) : Option Nat :=
  match e.move with
  | .connected id => some id
  | _ => none

/-- The token that is minted, and the connection that mints it. -/
def minted? (e : Episode) : Option (Nat × List Char) :=
  match e.move with
  | .connection d i =>
    ((e.before.find? d).bind fun c => c.mints? ⟨e.before.time, e.date, e.secret⟩ i).map (d, ·)
  | _ => none

theorem opened_of_writes {n c k : Nat} {r : Request} {e : Episode} (h : (c, k, r) ∈ e.writes n) :
    ∃ p, .opened c k p r ∈ e.happenings ∧ p.id = n := by
  obtain ⟨x, hx, he⟩ := List.mem_filterMap.mp h
  split at he
  · split at he
    · rename_i hp
      obtain ⟨rfl, rfl, rfl⟩ : _ = c ∧ _ = k ∧ _ = r := by simpa using he
      exact ⟨_, hx, hp⟩
    · cases he
  · cases he

theorem expired?_eq_some {e : Episode} {c k : Nat} (h : e.expired? = some (c, k)) :
    ∃ r, e.move = .connection c (.result k (.reply r)) ∧ r.isExpired = true := by
  unfold expired? at h
  split at h
  · split at h
    · rename_i hm hr
      obtain ⟨rfl, rfl⟩ := Prod.mk.inj (Option.some.inj h)
      exact ⟨_, hm, hr⟩
    · cases h
  · cases h

theorem connected?_eq_some {e : Episode} {d : Nat} (h : e.connected? = some d) :
    e.move = .connected d := by
  unfold connected? at h
  split at h
  · rename_i hm
    rw [hm, Option.some.inj h]
  · cases h

theorem minted?_eq_some {e : Episode} {d : Nat} {c : Connection} {i : ConnectionInput}
    {value : List Char} (hm : e.move = .connection d i) (hc : e.before.find? d = some c)
    (hv : c.mints? ⟨e.before.time, e.date, e.secret⟩ i = some value) :
    e.minted? = some (d, value) := by
  simp [minted?, hm, hc, hv]

end Episode

/-- The gateway calls a notification's token expired, and the next time that the notification is
written it is put on connection `d` with request `r`. -/
structure Resent (p : Dispatch) (c d : Nat) (r : Request) (a : Episode) (mid : List Episode)
    (b : Episode) : Prop where
  answered : ∃ k, a.expired? = some (c, k) ∧ (.stream c k, p) ∈ a.before.places
  quiet : ∀ e ∈ mid, e.writes p.id = []
  written : ∃ k, (d, k, r) ∈ b.writes p.id

def World.isServed (d : Nat) (w : World) : Prop :=
  ∃ c ∈ w.connections, c.id = d ∧ c.phase = .connected

/-- A connection has come up, and minted all that it keeps. -/
structure Fresh (es : List Episode) (c : Connection) : Prop where
  established : ∃ e ∈ es, e.connected? = some c.id
  minted : ∀ t, c.Keeps t → ∃ e ∈ es, e.minted? = some (c.id, t.value)

variable {s : ConnectionSettings} {v w : World} {es : List Episode} {e : Episode}

theorem Fresh.snoc {c d : Connection} (h : Fresh es c) (hid : d.id = c.id)
    (hk : ∀ t, d.Keeps t → c.Keeps t ∨ e.minted? = some (c.id, t.value)) : Fresh (es ++ [e]) d where
  established := by
    obtain ⟨f, hf, hm⟩ := h.established
    exact ⟨f, List.mem_append_left _ hf, hid ▸ hm⟩
  minted := by
    intro t ht
    rw [hid]
    rcases hk t ht with ht | hm
    · obtain ⟨f, hf, hm⟩ := h.minted t ht
      exact ⟨f, List.mem_append_left _ hf, hm⟩
    · exact ⟨e, List.mem_append_right _ (List.mem_singleton_self e), hm⟩

theorem start_keeps_nothing (s : ConnectionSettings) (id : Nat) (time : Moment) (t : KeptToken) :
    ¬ (Connection.start s id time).Keeps t := by
  rintro ⟨k, hk, ht⟩
  obtain ⟨key, -, rfl⟩ := Option.map_eq_some_iff.mp hk
  cases ht

theorem Connection.connected_of_step {now : Present} {c : Connection} {i : ConnectionInput}
    (h : (c.step s now i).1.phase = .connected) : c.phase = .connected := by
  rcases Connection.step_fades (s := s) now c i with (hf | ⟨t, hf⟩) | ⟨hf, -⟩
  · rw [← hf, h]
  · rw [h] at hf
    cases hf
  · rw [h] at hf
    cases hf

theorem Run.isServed_or_fresh (hv : v.Sound s) (h : Run v es w) :
    ∀ c ∈ w.connections, c.phase = .connected → v.isServed c.id ∨ Fresh es c := by
  induction h with
  | nil => exact fun c hc hp => .inl ⟨c, hc, rfl, hp⟩
  | @snoc es u e hr he ih =>
    have hu := hr.sound hv
    have hev := World.step?_evolves hu.tidy he.2
    intro d hd hp
    cases hev.connections d hd with
    | @same c more there =>
      rcases ih c there hp with ho | hf
      · exact .inl ho
      · exact .inr (hf.snoc rfl fun t ht => .inl ht)
    | @step c i moves there awaits =>
      have hc := List.mem_of_find?_eq_some there
      have hsame := (Connection.step_passes (s := u.settings) (hu.tidy.orderly c hc)
        ⟨u.time, e.date, e.secret⟩ i).same
      rcases ih c hc (Connection.connected_of_step hp) with ho | hf
      · exact .inl (hsame.symm ▸ ho)
      · refine .inr (hf.snoc hsame fun t ht => ?_)
        obtain ⟨rfl, -⟩ := he
        have hkept := (Connection.step_renews _ c i).kept t ht
        exact hkept.imp_right fun hm => Episode.minted?_eq_some moves there hm
    | @start id moves attempted =>
      have hup : e.connected? = some id := by rw [Episode.connected?, moves]
      exact .inr ⟨⟨e, List.mem_append_right _ (List.mem_singleton_self e), hup⟩,
        fun t ht => absurd ht (start_keeps_nothing _ _ _ t)⟩
    | @drained id t moves attempted =>
      simp [Connection.drainUntil, Connection.start] at hp

theorem World.Made.of_run {id : Nat} (hm : v.Made id) (hv : v.Sound s) (h : Run v es w) :
    w.Made id ∧ ∀ e ∈ es, e.connected? ≠ some id := by
  induction h with
  | nil => exact ⟨hm, by simp⟩
  | @snoc es u e hr he ih =>
    obtain ⟨hu, hno⟩ := ih
    have hs := hr.sound hv
    refine ⟨hu.step (World.step?_evolves hs.tidy he.2), fun f hf => ?_⟩
    rcases List.mem_append.mp hf with hf | hf
    · exact hno f hf
    · obtain rfl := List.mem_singleton.mp hf
      intro hup
      have hstep := he.2
      rw [Episode.connected?_eq_some hup] at hstep
      exact hu.not_connected hstep

theorem History.token_isSome {config : ClientConfig} (h : History config es w) :
    ∀ c ∈ w.connections, c.token.isSome = config.auth.signingKey?.isSome := by
  refine h.forall_connections (P := fun _ c => c.token.isSome = config.auth.signingKey?.isSome)
    fun es u e hr _ ih d _ hd => ?_
  have hstart (id : Nat) : (Connection.start u.settings id u.time).token.isSome =
      config.auth.signingKey?.isSome := by
    rw [hr.sound.settings]
    exact Option.isSome_map
  cases hd with
  | @same c more there => exact ih c there
  | @step c i moves there awaits =>
    exact (Connection.step_renews (s := u.settings) _ c i).keyed.trans
      (ih c (List.mem_of_find?_eq_some there))
  | @start id moves attempted => exact hstart id
  | @drained id t moves attempted =>
    rw [Connection.drainUntil_token]
    exact hstart id

/-- A write goes out on a connection that takes work, with a token that the connection kept or
mints for it. -/
theorem History.authorization_of_writes {config : ClientConfig} (h : History config es w)
    (he : e.Follows w) (hkey : config.auth.signingKey?.isSome = true) {n d k : Nat} {r : Request}
    (hw : (d, k, r) ∈ e.writes n) :
    ∃ c ∈ w.connections, c.id = d ∧ c.phase = .connected ∧
      ∃ value, r.authorizations = [String.ofList value] ∧
        ((∃ t, c.Keeps t ∧ t.value = value) ∨ e.minted? = some (d, value)) := by
  obtain ⟨p, hp, -⟩ := Episode.opened_of_writes hw
  have hev := World.step?_evolves h.sound.tidy he.2
  obtain ⟨c, i, moves, there, awaits, hopened⟩ := hev.opened d k p r hp
  have hc := List.mem_of_find?_eq_some there
  obtain ⟨hphase, hvalue⟩ := Connection.opened_of_step hopened awaits
  obtain ⟨value, hr, hv⟩ := hvalue ((h.token_isSome c hc).trans hkey)
  obtain ⟨hid, -⟩ := World.split_of_find? h.sound.tidy.connections there
  obtain ⟨rfl, -⟩ := he
  exact ⟨c, hc, hid, hphase, value, hr, hv.imp_right (Episode.minted?_eq_some moves there)⟩

theorem World.Sound.not_served_of_expired (hw : w.Sound s) (he : e.Follows w) {c k : Nat}
    (hx : e.expired? = some (c, k)) : w.Made c ∧
      ¬ e.after.isServed c := by
  obtain ⟨r, hm, hr⟩ := Episode.expired?_eq_some hx
  have hstep := he.2
  rw [hm] at hstep
  obtain ⟨con, hfind, hid, -, hafter, -⟩ := World.connection_step hw.tidy hstep
  refine ⟨hid ▸ hw.tidy.made (List.mem_of_find?_eq_some hfind), ?_⟩
  rintro ⟨d, hd, hdid, hp⟩
  rw [hafter d hd hdid] at hp
  exact Connection.drains_of_expired hr w.time k con hp

/-- A request goes out on a connection that has come up in the course of some episodes, with a token
that it has minted there or mints now. -/
def SentFresh (d : Nat) (r : Request) (mid : List Episode) (b : Episode) : Prop :=
  (∃ e ∈ mid, e.connected? = some d) ∧
    ∃ value, r.authorizations = [String.ofList value] ∧
      ∃ e ∈ mid ++ [b], e.minted? = some (d, value)

/-- With a provider token, a notification that is sent once more after its token was found expired
never goes out on the connection on which that was found. It goes out on a connection that has come
up since, with a token minted since, if and only if that connection did not take work then. -/
theorem resend_fresh_iff (config : ClientConfig) (hkey : config.auth.signingKey?.isSome = true)
    (pre mid : List Episode) (a b : Episode) (w : World)
    (h : History config (pre ++ [a] ++ mid ++ [b]) w) (p : Dispatch) (c d : Nat) (r : Request)
    (hr : Resent p c d r a mid b) :
    d ≠ c ∧ (SentFresh d r mid b ↔ ¬ a.after.isServed d) := by
  obtain ⟨u, hu, hb, -⟩ := Run.last h
  obtain ⟨x, hx, hmid⟩ := Run.split hu
  obtain ⟨v, hv, ha, rfl⟩ := hx.last
  have hbefore : v.Sound (.ofConfig config) := History.sound hv
  have hafter : a.after.Sound (.ofConfig config) := hbefore.step ha
  obtain ⟨k, hexpired, -⟩ := hr.answered
  obtain ⟨hmade, hgone⟩ := hbefore.not_served_of_expired ha hexpired
  have hmade : a.after.Made c := hmade.step (World.step?_evolves hbefore.tidy ha.2)
  obtain ⟨l, hwrite⟩ := hr.written
  obtain ⟨con, hcon, rfl, hphase, value, hvalue, hv⟩ :=
    History.authorization_of_writes hu hb hkey hwrite
  have hserved := hmid.isServed_or_fresh hafter con hcon hphase
  refine ⟨?_, ?_, ?_⟩
  · -- The connection of the answer takes no more work, and it does not come up a second time.
    rintro rfl
    rcases hserved with ho | hf
    · exact hgone ho
    · obtain ⟨e, he, hm⟩ := hf.established
      exact (hmade.of_run hafter hmid).2 e he hm
  · -- Nor does any that took work then.
    rintro ⟨⟨e, he, hm⟩, -⟩ ⟨old, hold, hid, -⟩
    exact ((hafter.tidy.made hold).of_run hafter hmid).2 e he (hid ▸ hm)
  · intro hnot
    have hf := hserved.resolve_left hnot
    refine ⟨hf.established, value, hvalue, ?_⟩
    rcases hv with ⟨t, ht, rfl⟩ | hm
    · obtain ⟨e, he, hm⟩ := hf.minted t ht
      exact ⟨e, List.mem_append_left _ he, hm⟩
    · exact ⟨b, List.mem_append_right _ (List.mem_singleton_self b), hm⟩

def cut (k : Nat) (es : List Episode) : Option (List Episode × Episode × List Episode × Episode) :=
  match es.drop k with
  | [] => none
  | a :: rest => rest.getLast?.map fun b => (es.take k, a, rest.dropLast, b)

theorem eq_of_cut {k : Nat} {pre mid : List Episode} {a b : Episode}
    (h : cut k es = some (pre, a, mid, b)) : es = pre ++ [a] ++ mid ++ [b] := by
  unfold cut at h
  split at h
  · cases h
  · rename_i a' rest hd
    obtain ⟨b', hb, heq⟩ := Option.map_eq_some_iff.mp h
    obtain ⟨rfl, rfl, rfl, rfl⟩ : es.take k = pre ∧ a' = a ∧ rest.dropLast = mid ∧ b' = b := by
      simpa using heq
    have hrest : rest = rest.dropLast ++ [b'] := (List.dropLast_append_getLast? b' hb).symm
    calc es = es.take k ++ es.drop k := (List.take_append_drop k es).symm
      _ = es.take k ++ a' :: (rest.dropLast ++ [b']) := by rw [hd, ← hrest]
      _ = es.take k ++ [a'] ++ rest.dropLast ++ [b'] := by simp

/-- Whether notification `n` is sent once more on connection `d` after an expired token on `c`. -/
def isResent (n c d : Nat) (a : Episode) (mid : List Episode) (b : Episode) : Bool :=
  (a.before.places.any fun x => x.1 == .stream c 1 && x.2.id == n) && a.expired? == some (c, 1) &&
    mid.all (fun e => (e.writes n).isEmpty) && (b.writes n).any fun x => x.1 == d

theorem resent_of_check {n c d : Nat} {a b : Episode} {mid : List Episode}
    (h : isResent n c d a mid b = true) : ∃ p r, Resent p c d r a mid b := by
  simp only [isResent, Bool.and_eq_true, beq_iff_eq, List.any_eq_true, List.all_eq_true,
    List.isEmpty_iff] at h
  obtain ⟨⟨⟨⟨⟨place, p⟩, hp, rfl, rfl⟩, hexpired⟩, hquiet⟩, ⟨_, k, r⟩, hw, rfl⟩ := h
  exact ⟨p, r, ⟨1, hexpired, hp⟩, hquiet, k, hw⟩

def SigningKey.sample : SigningKey where
  scalar := 1
  point := P256.generator
  teamId := "T"
  keyId := "K"
  isPair := by decide +kernel

def ClientConfig.keyed (connections : Nat) : ClientConfig :=
  { ClientConfig.standard "gateway.example" (.token .sample) with connections := connections }

def Reply.expired : Reply :=
  ⟨403, .empty, RefusalBody.encode .expiredProviderToken none⟩

def Notification.sample : Notification :=
  ⟨"00fc13ad", "com.example.app", "\x7b\x7d", none, .immediate, none, none, none⟩

def replaced : Option (List Episode × World) :=
  (World.start (.keyed 1)).1.play <|
    [.connected 1, .connection 1 (.readiness .ready), .pool, .send .sample, .pool,
      .connection 1 (.command (.opened 1)), .connection 1 (.result 1 (.reply .expired)), .pool,
      .pool, .wait (.ofMillis 100), .timer .reconnect, .connected 2, .pool,
      .connection 2 (.readiness .ready), .connection 2 (.command (.opened 1))].map
      fun m => (m, ⟨0, 0⟩, 1)

theorem resend_fresh_of_replaced : ∃ pre mid a b w p r,
    History (.keyed 1) (pre ++ [a] ++ mid ++ [b]) w ∧ Resent p 1 2 r a mid b ∧
      SentFresh 2 r mid b := by
  have hd : replaced.any (fun x => (cut 6 x.1).any fun (_, a, mid, b) =>
      isResent 1 1 2 a mid b && a.after.connections.all fun c => c.phase != .connected) = true := by
    decide +kernel
  obtain ⟨⟨es, w⟩, hplay, hx⟩ := (Option.any_eq_true _ _).mp hd
  obtain ⟨⟨pre, a, mid, b⟩, hcut, hx⟩ := (Option.any_eq_true _ _).mp hx
  obtain ⟨hresent, hidle⟩ := Bool.and_eq_true_iff.mp hx
  obtain ⟨p, r, hr⟩ := resent_of_check hresent
  have hrun : History (.keyed 1) (pre ++ [a] ++ mid ++ [b]) w :=
    eq_of_cut hcut ▸ (Run.of_play hplay).1
  have hnot : ¬ a.after.isServed 2 := by
    rintro ⟨c, hc, -, hp⟩
    have hne := List.all_eq_true.mp hidle c hc
    simp [hp] at hne
  have hiff := (resend_fresh_iff (.keyed 1) rfl pre mid a b w hrun p 1 2 r hr).2
  exact ⟨pre, mid, a, b, w, p, r, hrun, hr, hiff.mpr hnot⟩

/-- Two connections have each written a notification when a token is found expired. -/
def pooled : Option (List Episode × World) :=
  (World.start (.keyed 2)).1.play <|
    [.connected 1, .connected 2, .connection 1 (.readiness .ready),
      .connection 2 (.readiness .ready), .pool, .pool, .send .sample, .pool,
      .connection 1 (.command (.opened 1)), .send .sample, .pool,
      .connection 2 (.command (.opened 1)), .connection 2 (.readiness .ready),
      .connection 1 (.result 1 (.reply .expired)), .pool, .pool,
      .connection 2 (.command (.opened 3))].map fun m => (m, ⟨0, 0⟩, 1)

/-- With several connections the notification may be sent once more on one that was there before,
with the token that was there before. -/
theorem resend_not_always_fresh :
    ¬ ∀ (config : ClientConfig) (pre mid : List Episode) (a b : Episode) (w : World)
      (p : Dispatch) (c d : Nat) (r : Request), config.auth.signingKey?.isSome = true →
      config.retryExpiredTokens = true → History config (pre ++ [a] ++ mid ++ [b]) w →
      Resent p c d r a mid b → SentFresh d r mid b := by
  intro h
  have hd : pooled.any (fun x => (cut 13 x.1).any fun (_, a, mid, b) =>
      isResent 1 1 2 a mid b && (mid ++ [b]).all fun e => e.minted?.isNone) = true := by
    decide +kernel
  obtain ⟨⟨es, w⟩, hplay, hx⟩ := (Option.any_eq_true _ _).mp hd
  obtain ⟨⟨pre, a, mid, b⟩, hcut, hx⟩ := (Option.any_eq_true _ _).mp hx
  obtain ⟨hresent, hnone⟩ := Bool.and_eq_true_iff.mp hx
  obtain ⟨p, r, hr⟩ := resent_of_check hresent
  have hrun : History (.keyed 2) (pre ++ [a] ++ mid ++ [b]) w :=
    eq_of_cut hcut ▸ (Run.of_play hplay).1
  obtain ⟨-, value, -, e, he, hm⟩ := h (.keyed 2) pre mid a b w p 1 2 r rfl rfl hrun hr
  have hn := List.all_eq_true.mp hnone e he
  simp [hm] at hn

end PushDelivery
