import PushDelivery.Proofs.Step

namespace PushDelivery

/-- One move in its time. -/
structure Episode where
  before : World
  move : Move
  date : Instant
  secret : P256.Scalar
  after : World
  happenings : List Happening

namespace Episode

/-- The episode is a move that can be made in a world. -/
def Follows (w : World) (e : Episode) : Prop :=
  e.before = w ∧ w.step? e.date e.secret e.move = some (e.after, e.happenings)

def submitted (e : Episode) : List Dispatch :=
  World.submitted e.happenings

def reported (e : Episode) : List Report :=
  World.reported e.happenings

end Episode

/-- A run from one world to another, of any length and with moves in any order. -/
inductive Run (w : World) : List Episode → World → Prop
  | nil : Run w [] w
  | snoc {es : List Episode} {v : World} {e : Episode} :
      Run w es v → e.Follows v → Run w (es ++ [e]) e.after

/-- The notifications that the client has taken. -/
def submissions (es : List Episode) : List Dispatch :=
  es.flatMap Episode.submitted

/-- What is reported of one notification. -/
def reportsOn (n : Nat) (es : List Episode) : List Report :=
  (es.flatMap Episode.reported).filter fun r => r.id = n

@[simp] theorem submissions_append (es fs : List Episode) :
    submissions (es ++ fs) = submissions es ++ submissions fs :=
  List.flatMap_append

@[simp] theorem submissions_one (e : Episode) : submissions [e] = e.submitted :=
  List.flatMap_singleton _ _

@[simp] theorem reportsOn_append (n : Nat) (es fs : List Episode) :
    reportsOn n (es ++ fs) = reportsOn n es ++ reportsOn n fs := by
  simp [reportsOn]

theorem coe_reportsOn (n : Nat) (e : Episode) :
    (↑(reportsOn n [e]) : Multiset Report) =
      (↑e.reported : Multiset Report).filter fun r => r.id = n := by
  simp [reportsOn]

namespace Run

variable {u v w : World} {es fs : List Episode}

theorem trans (h : Run u es v) (h' : Run v fs w) : Run u (es ++ fs) w := by
  induction h' with
  | nil => simpa using h
  | snoc _ he ih =>
    rw [← List.append_assoc]
    exact .snoc ih he

theorem last {e : Episode} (h : Run u (es ++ [e]) w) :
    ∃ v, Run u es v ∧ e.Follows v ∧ w = e.after := by
  generalize hl : es ++ [e] = l at h
  cases h with
  | nil => simp at hl
  | @snoc fs v f hr he =>
    obtain ⟨rfl, hf⟩ := List.append_inj' hl rfl
    obtain rfl : e = f := by simpa using hf
    exact ⟨v, hr, he, rfl⟩

theorem split (h : Run u (es ++ fs) w) : ∃ v, Run u es v ∧ Run v fs w := by
  induction fs using List.reverseRecOn generalizing w with
  | nil => exact ⟨w, by simpa using h, .nil⟩
  | append_singleton fs e ih =>
    rw [← List.append_assoc] at h
    obtain ⟨x, hx, he, rfl⟩ := h.last
    obtain ⟨v, hv, hr⟩ := ih hx
    exact ⟨v, hv, .snoc hr he⟩

end Run

namespace World

/-- What one notification is as long as it has no outcome. -/
def held (n : Nat) (w : World) : Multiset Holding :=
  w.holdings.filter fun h => h.id = n

/-- A world that a client can come to: in order, and with no notification held twice. -/
structure Sound (s : ConnectionSettings) (w : World) : Prop where
  tidy : w.Tidy
  settings : w.settings = s
  distinct : (w.holdings.map Holding.id).Nodup
  known : ∀ h ∈ w.holdings, h.id < w.ids.next

variable {s : ConnectionSettings} {w : World} {e : Episode}

theorem Sound.accounts (hw : w.Sound s) (he : e.Follows w) :
    w.Accounts e.move (e.after, e.happenings) :=
  step?_accounts hw.tidy he.2

theorem entering_cases (w : World) (m : Move) :
    w.entering m = [] ∨ ∃ n, w.entering m = [w.incoming n] := by
  unfold entering
  split
  · split
    · exact .inr ⟨_, rfl⟩
    · exact .inl rfl
  · exact .inr ⟨_, rfl⟩
  · exact .inl rfl

theorem entering_id {m : Move} {p : Dispatch} (hp : p ∈ w.entering m) : p.id = w.ids.next := by
  rcases entering_cases w m with he | ⟨n, he⟩
  · rw [he] at hp
    cases hp
  · rw [he] at hp
    obtain rfl := List.mem_singleton.mp hp
    rfl

theorem entering_length (w : World) (m : Move) :
    w.entering m = [] ∨ ∃ p, w.entering m = [p] ∧ p.id = w.ids.next ∧
      p.sentReported = false ∧ p.expiredRetried = false ∧ p.refusedRetried = false :=
  (entering_cases w m).imp_right fun ⟨n, he⟩ => ⟨w.incoming n, he, rfl, rfl, rfl, rfl⟩

theorem Sound.present_nodup (hw : w.Sound s) (m : Move) :
    ((unwritten (w.entering m) + w.holdings).map Holding.id).Nodup ∧
      ∀ h ∈ unwritten (w.entering m) + w.holdings,
        h.id < w.ids.next + (w.entering m).length := by
  rcases entering_length w m with he | ⟨p, he, hp, -⟩
  · rw [he, unwritten_nil, zero_add]
    exact ⟨hw.distinct, hw.known⟩
  · rw [he, unwritten_singleton, Multiset.singleton_add]
    constructor
    · rw [Multiset.map_cons, Multiset.nodup_cons]
      refine ⟨fun hm => ?_, hw.distinct⟩
      obtain ⟨h, hh, hid⟩ := Multiset.mem_map.mp hm
      have hlt := hw.known h hh
      rw [hid, Holding.id_unwritten, hp] at hlt
      omega
    · intro h hm
      rcases Multiset.mem_cons.mp hm with rfl | hm
      · rw [Holding.id_unwritten, hp]
        exact Nat.lt_succ_self _
      · exact Nat.lt_succ_of_lt (hw.known h hm)

theorem Sound.step (hw : w.Sound s) (he : e.Follows w) : e.after.Sound s := by
  have ha := hw.accounts he
  have hle := ha.passage.ids_le
  obtain ⟨hd, hk⟩ := hw.present_nodup e.move
  refine ⟨ha.tidy, ha.settings.trans hw.settings, Multiset.nodup_of_le hle hd, ?_⟩
  intro h hh
  have hm := Multiset.mem_of_le hle (Multiset.mem_map_of_mem Holding.id hh)
  obtain ⟨g, hg, hid⟩ := Multiset.mem_map.mp hm
  have hlt := hk g hg
  have hids : e.after.ids.next = _ := ha.ids
  rw [hids, ← hid]
  exact hlt

theorem start_sound (config : ClientConfig) : (start config).1.Sound (.ofConfig config) := by
  obtain ⟨ht, hh, hs⟩ := start_tidy config
  exact ⟨ht, hs, by rw [hh]; exact Multiset.nodup_zero, by simp [hh]⟩

end World

namespace World

variable {s : ConnectionSettings} {w : World} {e : Episode}

theorem Sound.submitted (hw : w.Sound s) (he : e.Follows w) : e.submitted = w.entering e.move :=
  (hw.accounts he).submitted

theorem Sound.passage (hw : w.Sound s) (he : e.Follows w) (n : Nat) :
    Passage s e.move ((unwritten e.submitted).filter (fun h => h.id = n) + w.held n)
      ↑(reportsOn n [e]) (e.after.held n) := by
  have ha := hw.accounts he
  have hp := ha.passage.only n
  rw [Multiset.filter_add, hw.settings] at hp
  rw [coe_reportsOn, hw.submitted he]
  exact hp

theorem Sound.held_eq (hw : w.Sound s) (n : Nat) :
    w.held n = 0 ∨ ∃ h, w.held n = {h} ∧ h.id = n := by
  rcases Multiset.empty_or_exists_mem (w.held n) with h | ⟨h, hm⟩
  · exact .inl h
  · right
    refine ⟨h, ?_, (Multiset.mem_filter.mp hm).2⟩
    obtain ⟨rest, hr⟩ := Multiset.exists_cons_of_mem hm
    have hle : (w.held n).map Holding.id ≤ w.holdings.map Holding.id :=
      Multiset.map_le_map (Multiset.filter_le _ _)
    have hd := Multiset.nodup_of_le hle hw.distinct
    rw [hr, Multiset.map_cons, Multiset.nodup_cons] at hd
    have hz : rest = 0 := by
      refine Multiset.eq_zero_of_forall_notMem fun g hg => hd.1 ?_
      have hgm : g ∈ w.held n := hr ▸ Multiset.mem_cons_of_mem hg
      rw [(Multiset.mem_filter.mp hm).2, ← (Multiset.mem_filter.mp hgm).2]
      exact Multiset.mem_map_of_mem Holding.id hg
    rw [hr, hz]
    rfl

/-- What can happen to a notification in one episode: it is not there, or it comes in, or it is
there. -/
theorem Sound.held_cases (hw : w.Sound s) (he : e.Follows w) (n : Nat) :
    ((∀ p ∈ e.submitted, p.id ≠ n) ∧ w.held n = 0 ∧ reportsOn n [e] = [] ∧ e.after.held n = 0) ∨
      (∃ p k, e.submitted = [p] ∧ p.id = n ∧ n = w.ids.next ∧
        Hop s e.move (.unwritten p) ↑(reportsOn n [e]) k ∧ e.after.held n = Holding.left k) ∨
      (∃ h k, (∀ p ∈ e.submitted, p.id ≠ n) ∧ w.held n = {h} ∧
        Hop s e.move h ↑(reportsOn n [e]) k ∧ e.after.held n = Holding.left k) := by
  have hp := hw.passage he n
  have hs := hw.submitted he
  have hnone (hne : ∀ p ∈ e.submitted, p.id ≠ n) :
      (unwritten e.submitted).filter (fun h => h.id = n) = 0 := by
    refine Multiset.filter_eq_nil.mpr fun h hm hid => ?_
    obtain ⟨p, hpm, rfl⟩ := mem_unwritten.mp hm
    exact hne p hpm hid
  by_cases hne : ∀ p ∈ e.submitted, p.id ≠ n
  · rw [hnone hne, zero_add] at hp
    rcases hw.held_eq n with h0 | ⟨h, h1, -⟩
    · rw [h0] at hp
      obtain ⟨hr, hb⟩ := hp.of_nothing
      exact .inl ⟨hne, h0, by simpa using hr, hb⟩
    · rw [h1] at hp
      obtain ⟨k, hop, hb⟩ := hp.of_one
      exact .inr (.inr ⟨h, k, hne, h1, hop, hb⟩)
  · right
    left
    rcases entering_length w e.move with h0 | ⟨p, h1, hid, -⟩
    · rw [hs, h0] at hne
      exact absurd (fun p hm => absurd hm List.not_mem_nil) hne
    · rw [h1] at hs
      rw [hs] at hne hp
      have hpn : p.id = n := by
        by_contra hc
        refine hne fun q hq => ?_
        obtain rfl := List.mem_singleton.mp hq
        exact hc
      -- It comes with a new number, so nothing else is there under it.
      have hheld : w.held n = 0 := by
        refine Multiset.filter_eq_nil.mpr fun h hm hn => ?_
        have hlt := hw.known h hm
        omega
      have hin : (unwritten [p]).filter (fun h => h.id = n) = {.unwritten p} :=
        Multiset.filter_eq_self.mpr fun h hm => by
          obtain rfl := Multiset.mem_singleton.mp hm
          exact hpn
      rw [hheld, hin, add_zero] at hp
      obtain ⟨k, hop, hb⟩ := hp.of_one
      exact ⟨p, k, hs, hpn, hpn.symm.trans hid, hop, hb⟩

end World

theorem Run.sound {s : ConnectionSettings} {v w : World} {es : List Episode} (hv : v.Sound s)
    (h : Run v es w) : w.Sound s := by
  induction h with
  | nil => exact hv
  | snoc _ he ih => exact ih.step he

/-- A run of a client from its creation. -/
def History (config : ClientConfig) (es : List Episode) (w : World) : Prop :=
  Run (World.start config).1 es w

namespace History

variable {config : ClientConfig} {es : List Episode} {w : World} {e : Episode}

theorem sound (h : History config es w) : w.Sound (.ofConfig config) :=
  Run.sound (World.start_sound config) h

theorem snoc (h : History config es w) (he : e.Follows w) : History config (es ++ [e]) e.after :=
  Run.snoc h he

theorem submitted_lt (h : History config es w) : ∀ p ∈ submissions es, p.id < w.ids.next := by
  unfold History at h
  induction h with
  | nil => intro p hp; cases hp
  | @snoc es v e hr he ih =>
    intro p hp
    have hs := History.sound hr
    have hids : e.after.ids.next = v.ids.next + (v.entering e.move).length := (hs.accounts he).ids
    rw [submissions_append, submissions_one] at hp
    rcases List.mem_append.mp hp with hp | hp
    · have hlt := ih p hp
      omega
    · rw [hs.submitted he] at hp
      have hpid := World.entering_id hp
      have hpos := List.length_pos_of_mem hp
      omega

theorem submitted_nodup (h : History config es w) :
    ((submissions es).map Dispatch.id).Nodup := by
  unfold History at h
  induction h with
  | nil => exact List.nodup_nil
  | @snoc es v e hr he ih =>
    have hs := History.sound hr
    rw [submissions_append, submissions_one, List.map_append, List.nodup_append, hs.submitted he]
    refine ⟨ih, ?_, ?_⟩
    · rcases World.entering_length v e.move with h0 | ⟨p, h1, -⟩
      · rw [h0]
        exact List.nodup_nil
      · rw [h1]
        exact List.nodup_singleton _
    · intro a ha b hb hab
      obtain ⟨p, hp, rfl⟩ := List.mem_map.mp ha
      obtain ⟨q, hq, rfl⟩ := List.mem_map.mp hb
      have hlt := History.submitted_lt hr p hp
      have hpid := World.entering_id hq
      omega

end History

/-- Makes moves one after the other, if all of them can be made. -/
def World.play (w : World) : List (Move × Instant × P256.Scalar) → Option (List Episode × World)
  | [] => some ([], w)
  | (m, date, secret) :: rest => do
    let (v, hs) ← w.step? date secret m
    let (es, u) ← v.play rest
    return (⟨w, m, date, secret, v, hs⟩ :: es, u)

theorem Run.of_play {w u : World} {ms : List (Move × Instant × P256.Scalar)} {es : List Episode}
    (h : w.play ms = some (es, u)) : Run w es u ∧ es.map Episode.move = ms.map Prod.fst := by
  induction ms generalizing w es with
  | nil =>
    obtain ⟨rfl, rfl⟩ := Prod.mk.inj (Option.some.inj h)
    exact ⟨.nil, rfl⟩
  | cons m ms ih =>
    obtain ⟨m, date, secret⟩ := m
    unfold World.play at h
    cases hs : w.step? date secret m with
    | none => simp [hs] at h
    | some e =>
      cases hp : World.play e.1 ms with
      | none => simp [hs, hp] at h
      | some x =>
        obtain ⟨rfl, rfl⟩ : _ = es ∧ x.2 = u := by simpa [hs, hp] using h
        obtain ⟨hr, hm⟩ := ih hp
        have hone : Run w [⟨w, m, date, secret, e.1, e.2⟩] e.1 := Run.snoc .nil ⟨rfl, hs⟩
        exact ⟨hone.trans hr, by simp [hm]⟩

/-- A client that proves nothing to the gateway. -/
def ClientConfig.plain : ClientConfig :=
  .standard "gateway.example" .none

/-- A notification whose first stream is refused, and that is accepted on its second. -/
def delivery : Option (List Episode × World) :=
  (World.start .plain).1.play <|
    [.send ⟨"00fc13ad", "com.example.app", "\x7b\x7d", none, .immediate, none, none, none⟩,
      .connected 1, .connection 1 (.readiness .ready), .pool, .pool,
      .connection 1 (.command (.opened 1)),
      .connection 1 (.result 1 (.reset Connection.refusedCode)),
      .connection 1 (.readiness .ready), .connection 1 (.retry (.opened 3)),
      .connection 1 (.result 3 (.reply ⟨200, .empty, []⟩))].map fun m => (m, ⟨0, 0⟩, 0)

/-- The story of a notification, and where it is now if it has no outcome. -/
inductive Story (config : ClientConfig) (n : Nat) :
    List Episode → World → Option Holding → Prop
  | enter {es : List Episode} {w : World} {e : Episode} {p : Dispatch} {k : Option Holding}
      (run : History config es w) (follows : e.Follows w) (comes : e.submitted = [p])
      (number : p.id = n) (later : n = w.ids.next)
      (hop : Hop (.ofConfig config) e.move (.unwritten p) ↑(reportsOn n [e]) k)
      (held : e.after.held n = Holding.left k) : Story config n (es ++ [e]) e.after k
  | move {es : List Episode} {w : World} {e : Episode} {h : Holding} {k : Option Holding}
      (story : Story config n es w (some h)) (follows : e.Follows w)
      (others : ∀ p ∈ e.submitted, p.id ≠ n)
      (hop : Hop (.ofConfig config) e.move h ↑(reportsOn n [e]) k)
      (held : e.after.held n = Holding.left k) : Story config n (es ++ [e]) e.after k
  | rest {es : List Episode} {w : World} {e : Episode}
      (story : Story config n es w none) (follows : e.Follows w)
      (others : ∀ p ∈ e.submitted, p.id ≠ n) (silent : reportsOn n [e] = [])
      (held : e.after.held n = 0) : Story config n (es ++ [e]) e.after none

namespace Story

variable {config : ClientConfig} {n : Nat} {es : List Episode} {w : World} {k : Option Holding}

theorem history (h : Story config n es w k) : History config es w := by
  induction h with
  | enter run follows => exact run.snoc follows
  | move _ follows _ _ _ ih => exact ih.snoc follows
  | rest _ follows _ _ _ ih => exact ih.snoc follows

theorem held_eq (h : Story config n es w k) : w.held n = Holding.left k := by
  cases h <;> assumption

/-- Whatever has come in has a story, and of nothing else anything is known. -/
theorem exists_of_history (h : History config es w) (n : Nat) :
    (n ∈ (submissions es).map Dispatch.id ∧ ∃ k, Story config n es w k) ∨
      (n ∉ (submissions es).map Dispatch.id ∧ w.held n = 0 ∧ reportsOn n es = []) := by
  unfold History at h
  induction h with
  | nil =>
    refine .inr ⟨List.not_mem_nil, ?_, rfl⟩
    rw [World.held, (World.start_tidy config).2.1]
    rfl
  | @snoc es v e hr he ih =>
    have hs := History.sound hr
    have hmem : n ∈ (submissions (es ++ [e])).map Dispatch.id ↔
        n ∈ (submissions es).map Dispatch.id ∨ ∃ p ∈ e.submitted, p.id = n := by
      simp
    rw [hmem, reportsOn_append]
    -- What has a story is held as the story says, so the episode continues it. What has none is
    -- nowhere, so the episode brings it in or has nothing to do with it.
    rcases ih with ⟨hn, k, story⟩ | ⟨hn, hheld, hquiet⟩
    · refine .inl ⟨.inl hn, ?_⟩
      have hlt : n < v.ids.next := by
        obtain ⟨p, hp, rfl⟩ := List.mem_map.mp hn
        exact History.submitted_lt hr p hp
      rcases hs.held_cases he n with
        ⟨hno, h0, hq, hb⟩ | ⟨p, k, -, -, hnext, -⟩ | ⟨h, k', hno, h1, hop, hb⟩
      · have hk := story.held_eq
        cases k with
        | none => exact ⟨none, .rest story he hno hq hb⟩
        | some g =>
          rw [h0] at hk
          exact absurd hk.symm (Multiset.singleton_ne_zero g)
      · omega
      · have hk := story.held_eq
        cases k with
        | none =>
          rw [h1] at hk
          exact absurd hk (Multiset.singleton_ne_zero h)
        | some g =>
          rw [h1] at hk
          obtain rfl : h = g := Multiset.singleton_inj.mp hk
          exact ⟨k', .move story he hno hop hb⟩
    · rcases hs.held_cases he n with
        ⟨hno, -, hq, hb⟩ | ⟨p, k, hp, hid, hnext, hop, hb⟩ | ⟨h, k', hno, h1, -⟩
      · refine .inr ⟨?_, hb, by rw [hquiet, hq]; rfl⟩
        rintro (hm | ⟨p, hp, hid⟩)
        · exact hn hm
        · exact hno p hp hid
      · refine .inl ⟨.inr ⟨p, by rw [hp]; exact List.mem_singleton_self p, hid⟩, k, ?_⟩
        exact .enter hr he hp hid hnext hop hb
      · rw [hheld] at h1
        exact absurd h1.symm (Multiset.singleton_ne_zero h)

end Story

end PushDelivery
