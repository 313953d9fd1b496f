import PushDelivery.Proofs.PoolStrength
import PushDelivery.Proofs.WorkConservation
import Mathlib.Data.List.Rotate

namespace PushDelivery

section Line

/-- Who has the first so many turns, when whoever has had a turn goes to the end of the line. -/
def firstTurns (line : List Nat) : Nat → List Nat
  | 0 => []
  | n + 1 => firstTurns line n ++ (line.rotate n).head?.toList

variable {line : List Nat}

theorem firstTurns_add (line : List Nat) (m n : Nat) :
    firstTurns line (m + n) = firstTurns line m ++ firstTurns (line.rotate m) n := by
  induction n with
  | zero => exact (List.append_nil _).symm
  | succ n ih =>
    rw [← Nat.add_assoc, firstTurns, firstTurns, ih, List.rotate_rotate, List.append_assoc]

theorem firstTurns_of_le {n : Nat} (h : n ≤ line.length) : firstTurns line n = line.take n := by
  induction n with
  | zero => exact (List.take_zero).symm
  | succ n ih =>
    rw [firstTurns, ih (Nat.le_of_succ_le h), List.head?_rotate h, List.take_add_one]

theorem firstTurns_length (line : List Nat) : firstTurns line line.length = line := by
  rw [firstTurns_of_le le_rfl, List.take_length]

theorem length_firstTurns (h : line ≠ []) (n : Nat) : (firstTurns line n).length = n := by
  induction n with
  | zero => rfl
  | succ n ih =>
    obtain ⟨id, rest, he⟩ := List.exists_cons_of_ne_nil (mt List.rotate_eq_nil_iff.mp h)
    rw [firstTurns, List.length_append, ih, he]
    rfl

theorem perm_of_infix_firstTurns {n : Nat} {window : List Nat} (h : window <:+: firstTurns line n)
    (hlen : window.length = line.length) : window.Perm line := by
  obtain ⟨before, after, he⟩ := h
  by_cases hnone : line = []
  · subst hnone
    rw [List.length_nil, List.length_eq_zero_iff] at hlen
    rw [hlen]
  · have hn : before.length + (line.length + after.length) = n := by
      rw [← length_firstTurns hnone n, ← he, List.length_append, List.length_append, hlen,
        Nat.add_assoc]
    rw [← hn, firstTurns_add, firstTurns_add, List.append_assoc] at he
    have hbefore := List.append_inj he (length_firstTurns hnone _).symm
    have hround :
        firstTurns (line.rotate before.length) line.length = line.rotate before.length := by
      rw [← List.length_rotate line before.length, firstTurns_length]
    have hwindow := List.append_inj hbefore.2 (by rw [hround, List.length_rotate, hlen])
    rw [hwindow.1, hround]
    exact List.rotate_perm line before.length

theorem count_firstTurns_le (h : line.Nodup) {a b : Nat} (ha : a ∈ line) (hb : b ∈ line)
    (n : Nat) : (firstTurns line n).count a ≤ (firstTurns line n).count b + 1 := by
  induction n using Nat.strong_induction_on with
  | _ n ih =>
    by_cases hn : n < line.length
    · have hpart : (firstTurns line n).Nodup := by
        rw [firstTurns_of_le hn.le]
        exact h.sublist (List.take_sublist n line)
      exact (List.nodup_iff_count_le_one.mp hpart a).trans (Nat.le_add_left _ _)
    · -- The first round gives both of them one turn and ends with the same line.
      obtain ⟨m, rfl⟩ := Nat.exists_eq_add_of_le (Nat.not_lt.mp hn)
      have hpos : 0 < line.length := List.length_pos_of_mem ha
      have hrest := ih m (by omega)
      rw [firstTurns_add, firstTurns_length, List.rotate_length, List.count_append,
        List.count_append, List.count_eq_one_of_mem h ha, List.count_eq_one_of_mem h hb]
      omega

end Line

namespace Pool

variable {accepts : Acceptance} {time : Moment} {p : Pool}

/-- The connections that take work. -/
def idleIds (p : Pool) : List Nat :=
  (p.connections.filter PooledConnection.takesWork).map PooledConnection.id

/-- The connections that take work, in the order of their turns. -/
def line (p : Pool) : List Nat :=
  (p.rotation.rotate p.cursor).filter p.takesWork

theorem rotate_cursor_succ {l rest : List Nat} {id cursor : Nat}
    (h : l.rotate cursor = id :: rest) :
    l[cursor % l.length]? = some id ∧ l.rotate ((cursor + 1) % l.length) = rest ++ [id] := by
  have hpos : 0 < l.length := by
    rw [← List.length_rotate l cursor, h]
    exact Nat.succ_pos _
  constructor
  · rw [← List.head?_rotate (Nat.mod_lt cursor hpos), List.rotate_mod, h, List.head?_cons]
  · rw [List.rotate_mod, ← List.rotate_rotate, h, List.rotate_cons_succ, List.rotate_zero]

theorem scan_of_rotate {front back : List Nat} {id places : Nat}
    (h : p.rotation.rotate p.cursor = front ++ id :: back)
    (hfront : ∀ i ∈ front, p.takesWork i = false) (hid : p.takesWork id = true)
    (hplaces : front.length < places) :
    ∃ cursor, p.scan places = (some id, { p with cursor := cursor }) ∧
      p.rotation.rotate cursor = back ++ (front ++ [id]) := by
  induction front generalizing p back places with
  | nil =>
    obtain ⟨places, rfl⟩ := Nat.exists_eq_add_one.mpr hplaces
    obtain ⟨hturn, hnext⟩ := rotate_cursor_succ h
    refine ⟨_, ?_, hnext⟩
    rw [scan, hturn]
    exact if_pos hid
  | cons x front ih =>
    obtain ⟨places, rfl⟩ := Nat.exists_eq_add_one.mpr (Nat.zero_lt_of_lt hplaces)
    obtain ⟨hx, hfront⟩ := List.forall_mem_cons.mp hfront
    obtain ⟨hturn, hnext⟩ := rotate_cursor_succ h
    let q : Pool := { p with cursor := (p.cursor + 1) % p.rotation.length }
    have hq : q.rotation.rotate q.cursor = front ++ id :: (back ++ [x]) := by
      refine hnext.trans ?_
      simp
    obtain ⟨cursor, hscan, hlast⟩ := ih hq hfront hid (Nat.lt_of_succ_lt_succ hplaces)
    refine ⟨cursor, ?_, ?_⟩
    · rw [scan, hturn]
      dsimp only
      rw [if_neg (by simp [hx])]
      exact hscan
    · exact hlast.trans (by simp)

theorem nextWritable_of_line {id : Nat} {rest : List Nat} (h : p.line = id :: rest) :
    ∃ cursor, p.nextWritable = (some id, { p with cursor := cursor }) ∧
      { p with cursor := cursor }.line = rest ++ [id] := by
  obtain ⟨front, back, hround, hfront, hid, hback⟩ := List.filter_eq_cons_iff.mp h
  have hlt : front.length < p.rotation.length := by
    rw [← List.length_rotate p.rotation p.cursor, hround]
    simp
  have hidle : ∀ i ∈ front, p.takesWork i = false := by simpa using hfront
  obtain ⟨cursor, hscan, hnext⟩ := scan_of_rotate hround hidle hid hlt
  refine ⟨cursor, hscan, ?_⟩
  change (p.rotation.rotate cursor).filter p.takesWork = rest ++ [id]
  rw [hnext, List.filter_append, List.filter_append, hback, List.filter_eq_nil_iff.mpr hfront,
    List.filter_singleton, hid]
  rfl

theorem route_of_line (time : Moment) {id : Nat} {rest : List Nat} (n : Dispatch)
    (h : p.line = id :: rest) (hc : p.closing = none) (hw : p.waiters = [])
    (htake : accepts 0 id = true) :
    ∃ cursor, (p.route accepts time n).pool = { p with cursor := cursor } ∧
      { p with cursor := cursor }.line = rest ++ [id] ∧
      (p.route accepts time n).actions = [.handOff id n] := by
  obtain ⟨cursor, hnext, hline⟩ := nextWritable_of_line h
  have hoffer : offer accepts n { pool := p } =
      (true, { pool := { p with cursor := cursor }, actions := [.handOff id n], tries := 1 }) := by
    rw [offer, offerWithin]
    dsimp only
    rw [hnext]
    exact if_pos htake
  refine ⟨cursor, ?_, hline, ?_⟩
  all_goals
    unfold route
    simp [hc, hw, hoffer]

theorem Strong.line_perm (hp : p.Strong) : p.line.Perm p.idleIds := by
  have hids : p.connectionIds.Nodup := hp.distinct.sublist (List.sublist_append_right _ _)
  have hidle : p.rotation.filter p.takesWork = p.idleIds := by
    rw [hp.turns, connectedIds, List.filter_map, List.filter_filter, idleIds]
    congr 1
    refine List.filter_congr fun c hc => ?_
    have hfind : p.takesWork c.id = c.takesWork := by
      rw [takesWork, find?, find?_of_nodup hids hc]
      rfl
    cases ht : c.takesWork with
    | false => simp [hfind, ht]
    | true => simp [hfind, ht, PooledConnection.isConnected, connected_of_takesWork ht]
  exact hidle ▸ (List.rotate_perm p.rotation p.cursor).filter p.takesWork

theorem Strong.idleIds_nodup (hp : p.Strong) : p.idleIds.Nodup :=
  (hp.distinct.sublist (List.sublist_append_right _ _)).sublist (List.filter_sublist.map _)

end Pool

def PoolAction.handOff? : PoolAction → Option (Nat × Dispatch)
  | handOff id n => some (id, n)
  | _ => none

/-- What a step hands over, and to which connection. -/
def PoolTurn.handOffs (t : PoolTurn) : List (Nat × Dispatch) :=
  t.work.actions.filterMap PoolAction.handOff?

variable {config : ClientConfig} {ts us : List PoolTurn} {p q : Pool} {ns : List Dispatch}

theorem PoolRun.last {t : PoolTurn} (h : PoolRun config (ts ++ [t]) q) :
    PoolRun config ts t.before ∧ q = t.work.pool := by
  generalize he : ts ++ [t] = us at h
  cases h with
  | start => simp at he
  | turn hrun hfollows =>
    obtain ⟨rfl, hlast⟩ := List.append_inj' he rfl
    obtain rfl : t = _ := by simpa using hlast
    obtain ⟨rfl, -⟩ := hfollows
    exact ⟨hrun, rfl⟩

theorem PoolRun.unique (h : PoolRun config ts p) (hq : PoolRun config ts q) : p = q := by
  induction h generalizing q with
  | start =>
    generalize he : ([] : List PoolTurn) = us at hq
    cases hq with
    | start => rfl
    | turn => simp at he
  | turn hrun hfollows ih => exact hq.last.2.symm

/-- The steps deal with these notifications, one in each. -/
def Submits (us : List PoolTurn) (ns : List Dispatch) : Prop :=
  us.map PoolTurn.input = ns.map fun n => .message (.submit n)

theorem Submits.snoc {u : PoolTurn} (h : Submits (us ++ [u]) ns) :
    ∃ before n, ns = before ++ [n] ∧ Submits us before ∧ u.input = .message (.submit n) := by
  rw [Submits, List.map_append] at h
  obtain ⟨before, last, rfl, hbefore, hlast⟩ := List.append_eq_map_iff.mp h
  obtain ⟨n, rfl, hn⟩ := List.map_eq_singleton_iff.mp hlast
  exact ⟨before, n, rfl, hbefore.symm, hn.symm⟩

theorem Submits.length_eq (h : Submits us ns) : us.length = ns.length := by
  simpa using congrArg List.length h

/-- As long as nothing but notifications comes and whoever is handed one takes it, they go to the
connections in the order of the line, and nothing changes but whose turn it is. -/
theorem PoolRun.handOffs_eq (h : PoolRun config ts p) (hlater : PoolRun config (ts ++ us) q)
    (hc : p.closing = none) (hw : p.waiters = []) (hline : p.line ≠ []) (hsubmit : Submits us ns)
    (htake : ∀ u ∈ us, ∀ id, u.before.takesWork id = true → ∀ k, u.accepts k id = true) :
    (∃ cursor, q = { p with cursor := cursor }) ∧ q.line = p.line.rotate us.length ∧
      us.flatMap PoolTurn.handOffs = (firstTurns p.line us.length).zip ns := by
  induction us using List.reverseRecOn generalizing q ns with
  | nil =>
    rw [List.append_nil] at hlater
    obtain rfl := h.unique hlater
    exact ⟨⟨p.cursor, rfl⟩, (List.rotate_zero _).symm, rfl⟩
  | append_singleton us u ih =>
    rw [← List.append_assoc] at hlater
    obtain ⟨hbefore, rfl⟩ := hlater.last
    obtain ⟨before, n, rfl, hus, hu⟩ := hsubmit.snoc
    obtain ⟨⟨cursor, hsame⟩, hnow, hhands⟩ := ih hbefore hus fun v hv =>
      htake v (List.mem_append_left _ hv)
    obtain ⟨id, rest, hid⟩ := List.exists_cons_of_ne_nil (mt List.rotate_eq_nil_iff.mp hline)
    have hfirst : u.before.line = id :: rest := hnow.trans hid
    have htakes : u.before.takesWork id = true :=
      (List.mem_filter.mp (hfirst ▸ List.mem_cons_self : id ∈ u.before.line)).2
    obtain ⟨cursor', hpool, hnext, hact⟩ := Pool.route_of_line u.time n hfirst
      (hsame ▸ hc) (hsame ▸ hw) (htake u (by simp) id htakes 0)
    have hwork : u.work = u.before.route u.accepts u.time n := PoolTurn.work_of_message hu
    have hgiven : u.handOffs = [(id, n)] := by
      rw [PoolTurn.handOffs, hwork, hact]
      rfl
    refine ⟨⟨cursor', ?_⟩, ?_, ?_⟩
    · rw [hwork, hpool, hsame]
    · rw [hwork, hpool, hnext, List.length_append, List.length_singleton, ← List.rotate_rotate, hid,
        List.rotate_cons_succ, List.rotate_zero]
    · have hlen : (firstTurns p.line us.length).length = before.length := by
        rw [length_firstTurns hline, hus.length_eq]
      rw [List.flatMap_append, hhands, List.flatMap_singleton, hgiven, List.length_append,
        List.length_singleton, firstTurns, hid, List.zip_append hlen]
      rfl

theorem PoolRun.handOffs_of_closing (h : PoolRun config ts p)
    (hlater : PoolRun config (ts ++ us) q) (hc : p.closing ≠ none) (hsubmit : Submits us ns) :
    q = p ∧ us.flatMap PoolTurn.handOffs = [] := by
  induction us using List.reverseRecOn generalizing q ns with
  | nil =>
    rw [List.append_nil] at hlater
    exact ⟨hlater.unique h, rfl⟩
  | append_singleton us u ih =>
    rw [← List.append_assoc] at hlater
    obtain ⟨hbefore, rfl⟩ := hlater.last
    obtain ⟨before, n, rfl, hus, hu⟩ := hsubmit.snoc
    obtain ⟨hsame, hhands⟩ := ih hbefore hus
    have hwork : u.work = { pool := u.before, actions := Pool.fail .clientClosed [n] } :=
      (PoolTurn.work_of_message hu).trans (Pool.route_of_closing u.accepts u.time n (hsame ▸ hc))
    rw [List.flatMap_append, hhands, List.flatMap_singleton, PoolTurn.handOffs, hwork]
    exact ⟨hsame, rfl⟩

/-- Connections take turns. When nothing waits in the pool and some connections take work,
notifications that come one after the other go to them in rounds, wherever the cursor stands: as
many hand-offs in a row as connections take work go to each of them once, so that none is handed
two notifications more than another. As long as the pool is not being closed every notification
is handed over, in order. -/
theorem handed_over_in_turns (config : ClientConfig) (ts us : List PoolTurn) (p q : Pool)
    (ns : List Dispatch) (h : PoolRun config ts p) (ho : InOrder config ts)
    (hlater : PoolRun config (ts ++ us) q) (hw : p.waiters = [])
    (hidle : ∃ c ∈ p.connections, c.takesWork = true) (hsubmit : Submits us ns)
    (htake : ∀ u ∈ us, ∀ id, u.before.takesWork id = true → ∀ k, u.accepts k id = true) :
    let hands := us.flatMap PoolTurn.handOffs
    p.idleIds.Nodup ∧ q.connections = p.connections ∧
    (p.closing = none → hands.map Prod.snd = ns) ∧ (p.closing ≠ none → hands = []) ∧
    (∀ window, window <:+: hands.map Prod.fst → window.length = p.idleIds.length →
      window.Perm p.idleIds) ∧
    ∀ a ∈ p.idleIds, ∀ b ∈ p.idleIds,
      (hands.map Prod.fst).count a ≤ (hands.map Prod.fst).count b + 1 := by
  intro hands
  have hstrong : p.Strong := (h.strong ho).1
  have hperm : p.line.Perm p.idleIds := hstrong.line_perm
  obtain ⟨c, hmem, hc⟩ := hidle
  have hone : c.id ∈ p.idleIds := List.mem_map.mpr ⟨c, List.mem_filter.mpr ⟨hmem, hc⟩, rfl⟩
  by_cases hclosing : p.closing = none
  · have hline : p.line ≠ [] := List.ne_nil_of_mem (hperm.mem_iff.mpr hone)
    obtain ⟨⟨cursor, hsame⟩, -, hhands⟩ := h.handOffs_eq hlater hclosing hw hline hsubmit htake
    have hlen : (firstTurns p.line us.length).length = ns.length := by
      rw [length_firstTurns hline, hsubmit.length_eq]
    have hfst : hands.map Prod.fst = firstTurns p.line us.length :=
      (congrArg (List.map Prod.fst) hhands).trans (List.map_fst_zip hlen.le)
    have hsnd : hands.map Prod.snd = ns :=
      (congrArg (List.map Prod.snd) hhands).trans (List.map_snd_zip hlen.ge)
    rw [hfst]
    refine ⟨hstrong.idleIds_nodup, by rw [hsame], fun _ => hsnd, fun hnot => absurd hclosing hnot,
      ?_, ?_⟩
    · intro window hwindow hround
      exact (perm_of_infix_firstTurns hwindow (hround.trans hperm.length_eq.symm)).trans hperm
    · intro a ha b hb
      exact count_firstTurns_le (hperm.nodup_iff.mpr hstrong.idleIds_nodup) (hperm.mem_iff.mpr ha)
        (hperm.mem_iff.mpr hb) us.length
  · obtain ⟨rfl, hnone⟩ := h.handOffs_of_closing hlater hclosing hsubmit
    have hhands : hands = [] := hnone
    rw [hhands]
    refine ⟨hstrong.idleIds_nodup, rfl, fun hopen => absurd hopen hclosing, fun _ => rfl, ?_, ?_⟩
    · intro window hwindow hround
      have hpos := List.length_pos_of_mem hone
      rw [List.map_nil, List.infix_nil] at hwindow
      rw [hwindow, List.length_nil] at hround
      omega
    · intro a _ b _
      exact Nat.zero_le _

theorem Pool.play_spec {accepts : Acceptance} {xs : List (Moment × PoolInput)}
    (h : p.play accepts xs = some (us, q)) :
    us.map PoolTurn.input = xs.map Prod.snd ∧ ∀ u ∈ us, u.accepts = accepts := by
  induction xs generalizing p us with
  | nil =>
    obtain ⟨rfl, -⟩ := Prod.mk.inj (Option.some.inj h)
    simp
  | cons x xs ih =>
    rw [play] at h
    split at h
    · obtain ⟨⟨vs, r⟩, hplay, he⟩ := Option.map_eq_some_iff.mp h
      obtain ⟨rfl, rfl⟩ := Prod.mk.inj he
      obtain ⟨hinputs, haccepts⟩ := ih hplay
      simpa [hinputs] using haccepts
    · cases h

/-- Three of four connections are left, one of which takes no work; the cursor has been left behind
the end of the rotation. -/
def shared : Option (List PoolTurn × Pool) :=
  (Pool.start { ClientConfig.standard "gateway.example" .none with connections := 4 }).pool.play
    (fun _ _ => true)
    ([1, 2, 3, 4].map (fun id => (0, .message (.established id))) ++
      [1, 2, 3].map (fun n => (n, .message (.submit (Dispatch.mk n ⟨"00fc13ad",
        "com.example.app", "\x7b\x7d", none, .immediate, none, none, none⟩ false false false)))) ++
      [(4, .message (.draining 1)), (4, .message (.writabilityChanged 3 false))])

/-- Three notifications come to them. -/
theorem turns_of_shared : ∃ (config : ClientConfig) (ts us : List PoolTurn) (p q : Pool),
    PoolRun config ts p ∧ InOrder config ts ∧ PoolRun config (ts ++ us) q ∧
    p.rotation.length ≤ p.cursor ∧ p.idleIds = [2, 4] ∧ (us.flatMap PoolTurn.handOffs).length = 3 ∧
    ∀ window, window <:+: (us.flatMap PoolTurn.handOffs).map Prod.fst → window.length = 2 →
      window.Perm [2, 4] := by
  let config : ClientConfig :=
    { ClientConfig.standard "gateway.example" .none with connections := 4 }
  let ns : List Dispatch := [4, 5, 6].map fun n => Dispatch.mk n ⟨"00fc13ad",
    "com.example.app", "\x7b\x7d", none, .immediate, none, none, none⟩ false false false
  let later : List (Moment × PoolInput) := ns.map fun n => (5, .message (.submit n))
  have hd : shared.any (fun x => isInOrder config x.1 && x.2.waiters.isEmpty &&
      decide (x.2.rotation.length ≤ x.2.cursor) && x.2.idleIds == [2, 4] && x.2.closing.isNone &&
      (x.2.play (fun _ _ => true) later).isSome) = true := by
    decide +kernel
  obtain ⟨⟨ts, p⟩, hplay, hx⟩ := (Option.any_eq_true _ _).mp hd
  simp only [Bool.and_eq_true, decide_eq_true_eq, beq_iff_eq, List.isEmpty_iff,
    Option.isNone_iff_eq_none] at hx
  obtain ⟨⟨⟨⟨⟨hcheck, hw⟩, hcursor⟩, hidle⟩, hopen⟩, hlater⟩ := hx
  obtain ⟨⟨us, q⟩, hlater⟩ := Option.isSome_iff_exists.mp hlater
  have hrun : PoolRun config ts p := PoolRun.start.of_play hplay
  have horder : InOrder config ts := inOrder_of_check hcheck
  obtain ⟨hinputs, haccepts⟩ := Pool.play_spec hlater
  have hsubmit : Submits us ns := by
    rw [Submits, hinputs, List.map_map]
    rfl
  have htakes : ∃ c ∈ p.connections, c.takesWork = true := by
    have htwo : 2 ∈ p.idleIds := hidle ▸ List.mem_cons_self
    obtain ⟨c, hc, -⟩ := List.mem_map.mp htwo
    exact ⟨c, (List.mem_filter.mp hc).1, (List.mem_filter.mp hc).2⟩
  obtain ⟨-, -, hall, -, hround, -⟩ := handed_over_in_turns config ts us p q ns hrun horder
    (hrun.of_play hlater) hw htakes hsubmit fun u hu id _ k => by rw [haccepts u hu]
  refine ⟨config, ts, us, p, q, hrun, horder, hrun.of_play hlater, hcursor, hidle, ?_, ?_⟩
  · rw [← List.length_map Prod.snd, hall hopen]
    rfl
  · rwa [hidle] at hround

end PushDelivery
