import PushDelivery.Client.OpenStreams.Session
import PushDelivery.Proofs.Counting

namespace PushDelivery

namespace OpenStreams

inductive Operation where
  | register (stream : Nat) (p : Dispatch)
  | take (stream : Nat)
  | answer (stream status : Nat) (apnsId : Option Uuid) (d : Decision)
  | fail (stream : Nat) (e : SendError)
  | drain
deriving DecidableEq

/-- What an operation comes back with. -/
inductive Reaction where
  | registered
  /-- The stream may not be used, and the notification comes back as it was. -/
  | refused (stream : Nat) (p : Dispatch)
  | taken (p : Option Dispatch)
  | resolved (known : Bool)
  | drained (count : Nat)
deriving DecidableEq

namespace Operation

/-- The stream that an operation is about, if it is about one. -/
def stream? : Operation → Option Nat
  | register stream _ | take stream | answer stream _ _ _ | fail stream _ => some stream
  | drain => none

def resolves? : Operation → Option Nat
  | answer stream _ _ _ | fail stream _ => some stream
  | _ => none

/-- Whether nothing waits on a stream any more after the operation. -/
def ends (stream : Nat) : Operation → Bool
  | register _ _ => false
  | take n | answer n _ _ _ | fail n _ => n == stream
  | drain => true

def report? (p : Dispatch) : Operation → Option Report
  | answer _ status apnsId d => some (p.answer status apnsId d)
  | fail _ e => some (p.fail e)
  | drain => some p.drop
  | _ => none

end Operation

def Reaction.drains : Reaction → Nat
  | drained count => count
  | _ => 0

def perform (s : OpenStreams) : Operation → Reaction × List Report × OpenStreams
  | .register stream p =>
    match s.register? stream p with
    | some t => (.registered, [], t)
    | none => (.refused stream p, [], s)
  | .take stream => (.taken (s.take stream).1, [], (s.take stream).2)
  | .answer stream status apnsId d =>
    (.resolved (s.get? stream).isSome, s.answer stream status apnsId d)
  | .fail stream e => (.resolved (s.get? stream).isSome, s.fail stream e)
  | .drain => (.drained s.size, s.drain)

/-- An operation that was performed, what it came back with and what was reported. -/
structure Entry where
  operation : Operation
  reaction : Reaction
  reports : List Report

def entry (s : OpenStreams) (o : Operation) : Entry :=
  ⟨o, (s.perform o).1, (s.perform o).2.1⟩

def history (s : OpenStreams) : List Operation → List Entry
  | [] => []
  | o :: os => s.entry o :: history (s.perform o).2.2 os

def after (s : OpenStreams) (os : List Operation) : OpenStreams :=
  os.foldl (fun s o => (s.perform o).2.2) s

namespace Entry

def registered? (e : Entry) : Option (Nat × Dispatch) :=
  match e.operation, e.reaction with
  | .register stream p, .registered => some (stream, p)
  | _, _ => none

end Entry

def registered (h : List Entry) : List Nat :=
  (h.filterMap Entry.registered?).map Prod.fst

/-- A notification was registered on a stream and nothing has ended that since. -/
def Live (h : List Entry) (stream : Nat) (p : Dispatch) : Prop :=
  ∃ before e later, h = before ++ e :: later ∧ e.registered? = some (stream, p) ∧
    ∀ x ∈ later, x.operation.ends stream = false

/-- What the first operation that ends a stream makes of its notification. -/
def fate (stream : Nat) (p : Dispatch) (later : List Entry) : Option Report :=
  (later.find? fun e => e.operation.ends stream).bind fun e => e.operation.report? p

/-- What becomes of each notification that was registered. -/
def fates : List Entry → List Report
  | [] => []
  | e :: later => (e.registered?.bind fun x => fate x.1 x.2 later).toList ++ fates later

variable {s : OpenStreams} {o : Operation} {n : Nat} {p : Dispatch} {h : List Entry} {e : Entry}

theorem perform_register (hs : s.Orderly) (hn : s.highest < n) (p : Dispatch) :
    s.perform (.register n p) = (.registered, [], ⟨s.slots ++ [(n, p)], n⟩) := by
  simp [perform, hs.register?_high hn]

theorem perform_register_low (hn : n ≤ s.highest) (p : Dispatch) :
    s.perform (.register n p) = (.refused n p, [], s) := by
  simp [perform, register?_low hn]

theorem registered?_entry (hs : s.Orderly) :
    (s.entry o).registered? = some (n, p) ↔ o = .register n p ∧ s.highest < n := by
  cases o with
  | register m q =>
    rcases Nat.lt_or_ge s.highest m with hm | hm
    · rw [entry, perform_register hs hm]
      constructor
      · intro h
        obtain ⟨rfl, rfl⟩ := Prod.mk.inj (Option.some.inj h)
        exact ⟨rfl, hm⟩
      · rintro ⟨h, -⟩
        obtain ⟨rfl, rfl⟩ := Operation.register.inj h
        rfl
    · rw [entry, perform_register_low hm]
      constructor
      · intro h
        cases h
      · rintro ⟨h, hn⟩
        obtain ⟨rfl, rfl⟩ := Operation.register.inj h
        omega
  | _ => simp [entry, Entry.registered?]

theorem highest_perform (hs : s.Orderly) (o : Operation) :
    (s.perform o).2.2.highest = ((s.entry o).registered?.map Prod.fst).getD s.highest := by
  cases o with
  | register m q =>
    rcases Nat.lt_or_ge s.highest m with hm | hm
    · rw [entry, perform_register hs hm]
      rfl
    · rw [entry, perform_register_low hm]
      rfl
  | _ => rfl

theorem Orderly.perform (hs : s.Orderly) (o : Operation) : (s.perform o).2.2.Orderly := by
  cases o with
  | register m q =>
    unfold OpenStreams.perform
    dsimp only
    split
    · rename_i t ht
      exact hs.register ht
    · exact hs
  | take m | answer m _ _ _ | fail m _ => exact hs.erase m
  | drain => exact ⟨List.nodup_nil, by simp [OpenStreams.perform, OpenStreams.drain]⟩

theorem get?_append (s : OpenStreams) (m n high : Nat) (q : Dispatch) :
    get? n ⟨s.slots ++ [(m, q)], high⟩ = (s.get? n).or (if m = n then some q else none) := by
  rw [get?, get?, List.find?_append]
  cases s.slots.find? fun e => e.1 == n with
  | some e => rfl
  | none => by_cases hm : m = n <;> simp [hm]

theorem Orderly.get?_eq_some (hs : s.Orderly) : s.get? n = some p ↔ (n, p) ∈ s.slots := by
  refine ⟨get?_mem, fun hm => ?_⟩
  cases hq : s.get? n with
  | none => exact absurd (List.mem_map.mpr ⟨_, hm, rfl⟩) (get?_eq_none hq)
  | some q =>
    obtain ⟨-, rfl⟩ := Prod.mk.inj (List.inj_on_of_nodup_map hs.distinct (get?_mem hq) hm rfl)
    rfl

theorem get?_perform (hs : s.Orderly) :
    (s.perform o).2.2.get? n = some p ↔
      (s.entry o).registered? = some (n, p) ∨ s.get? n = some p ∧ o.ends n = false := by
  have herase (m : Nat) : (s.erase m).get? n = some p ↔ s.get? n = some p ∧ (m == n) = false := by
    by_cases hm : n = m
    · simp [hm]
    · have hne : (m == n) = false := by simpa using Ne.symm hm
      simp [get?_erase_of_ne hm, hne]
  rw [registered?_entry hs]
  cases o with
  | register m q =>
    rcases Nat.lt_or_ge s.highest m with hm | hm
    · rw [perform_register hs hm, get?_append]
      by_cases hmn : m = n
      · subst hmn
        simp [hs.get?_high hm, hm]
      · simp [hmn, Operation.ends]
    · rw [perform_register_low hm]
      have hnot : ¬ (Operation.register m q = .register n p ∧ s.highest < n) := by
        rintro ⟨h, hn⟩
        obtain ⟨rfl, -⟩ := Operation.register.inj h
        omega
      simp only [hnot, false_or, Operation.ends, and_true]
  | take m | answer m _ _ _ | fail m _ => exact (herase m).trans (by simp [Operation.ends])
  | drain => simp [perform, drain, get?, Operation.ends]

theorem Orderly.get?_perform_of_ne {m : Nat} (hs : s.Orderly) (ho : o.stream? = some m)
    (hn : n ≠ m) : (s.perform o).2.2.get? n = s.get? n := by
  cases o with
  | register k q =>
    obtain rfl := Option.some.inj ho
    rcases Nat.lt_or_ge s.highest k with hk | hk
    · rw [perform_register hs hk, get?_append, if_neg hn.symm, Option.or_none]
    · rw [perform_register_low hk]
  | take k | answer k _ _ _ | fail k _ =>
    obtain rfl := Option.some.inj ho
    exact get?_erase_of_ne hn
  | drain => cases ho

theorem history_snoc (s : OpenStreams) (os : List Operation) (o : Operation) :
    s.history (os ++ [o]) = s.history os ++ [(s.after os).entry o] := by
  induction os generalizing s with
  | nil => rfl
  | cons x os ih => exact congrArg (s.entry x :: ·) (ih _)

theorem after_snoc (s : OpenStreams) (os : List Operation) (o : Operation) :
    s.after (os ++ [o]) = ((s.after os).perform o).2.2 := by
  simp [after]

theorem after_orderly (os : List Operation) : (after {} os).Orderly := by
  induction os using List.reverseRecOn with
  | nil => exact ⟨List.nodup_nil, by simp [after]⟩
  | append_singleton os o ih =>
    rw [after_snoc]
    exact ih.perform o

theorem registered_snoc (h : List Entry) (e : Entry) :
    registered (h ++ [e]) = registered h ++ (e.registered?.map Prod.fst).toList := by
  cases he : e.registered? <;> simp [registered, List.filterMap_append, he]

theorem highest_lt_iff (os : List Operation) (n : Nat) :
    (after {} os).highest < n ↔ 0 < n ∧ ∀ m ∈ registered (history {} os), m < n := by
  induction os using List.reverseRecOn generalizing n with
  | nil => simp [after, history, registered]
  | append_singleton os o ih =>
    rw [after_snoc, history_snoc, registered_snoc, highest_perform (after_orderly os)]
    cases he : ((after {} os).entry o).registered? with
    | none => simpa [he] using ih n
    | some x =>
      obtain ⟨m, q⟩ := x
      -- It was registered because it is above all others, so it alone has to be compared.
      obtain ⟨hpos, hbefore⟩ := (ih m).mp ((registered?_entry (after_orderly os)).mp he).2
      change m < n ↔ _
      simp only [Option.map_some, Option.toList_some, List.mem_append, List.mem_singleton]
      constructor
      · rintro hlt
        refine ⟨by omega, fun k hk => ?_⟩
        rcases hk with hk | rfl
        · have := hbefore k hk
          omega
        · exact hlt
      · exact fun h => h.2 m (.inr rfl)

theorem live_snoc : Live (h ++ [e]) n p ↔
    e.registered? = some (n, p) ∨ Live h n p ∧ e.operation.ends n = false := by
  constructor
  · rintro ⟨before, x, later, hsplit, hx, hlater⟩
    rcases List.eq_nil_or_concat later with rfl | ⟨later, y, rfl⟩
    · obtain ⟨-, hlast⟩ := List.append_inj' hsplit rfl
      obtain rfl := List.singleton_inj.mp hlast
      exact .inl hx
    · rw [List.concat_eq_append, ← List.cons_append, ← List.append_assoc] at hsplit
      obtain ⟨rfl, hlast⟩ := List.append_inj' hsplit rfl
      obtain rfl := List.singleton_inj.mp hlast
      rw [List.concat_eq_append] at hlater
      exact .inr ⟨⟨before, x, later, rfl, hx, fun z hz => hlater z (List.mem_append_left _ hz)⟩,
        hlater e (List.mem_append_right _ List.mem_cons_self)⟩
  · rintro (he | ⟨⟨before, x, later, rfl, hx, hlater⟩, he⟩)
    · exact ⟨h, e, [], rfl, he, by simp⟩
    · refine ⟨before, x, later ++ [e], by simp, hx, fun z hz => ?_⟩
      rcases List.mem_append.mp hz with hz | hz
      · exact hlater z hz
      · exact List.mem_singleton.mp hz ▸ he

theorem get?_after (os : List Operation) :
    (after {} os).get? n = some p ↔ Live (history {} os) n p := by
  induction os using List.reverseRecOn with
  | nil =>
    constructor
    · intro h
      cases h
    · rintro ⟨before, e, later, h, -⟩
      simp [history] at h
  | append_singleton os o ih =>
    rw [after_snoc, history_snoc, live_snoc, get?_perform (after_orderly os), ih]
    rfl

theorem fate_cons (n : Nat) (p : Dispatch) (e : Entry) (later : List Entry) :
    fate n p (e :: later) =
      if e.operation.ends n then e.operation.report? p else fate n p later := by
  unfold fate
  rw [List.find?_cons]
  cases e.operation.ends n <;> rfl

def pending (s : OpenStreams) (later : List Entry) : List Report :=
  s.slots.filterMap fun x => fate x.1 x.2 later

theorem resolve_perm (hs : s.Orderly) (n : Nat) (how : Dispatch → Report)
    (f : Nat × Dispatch → Option Report) :
    (((s.get? n).map how).toList ++ (s.erase n).slots.filterMap f).Perm
      (s.slots.filterMap fun x => if n == x.1 then some (how x.2) else f x) := by
  cases hp : s.get? n with
  | none =>
    have hothers : ∀ x ∈ s.slots, f x = if n == x.1 then some (how x.2) else f x := by
      intro x hx
      have hne : n ≠ x.1 := fun h => get?_eq_none hp (List.mem_map.mpr ⟨x, hx, h.symm⟩)
      simp [hne]
    rw [erase_of_absent hp, List.filterMap_congr hothers]
    rfl
  | some p =>
    have hothers : ∀ x ∈ (s.erase n).slots, f x = if n == x.1 then some (how x.2) else f x := by
      intro x hx
      have hne : x.1 ≠ n := by simpa using (List.mem_filter.mp hx).2
      simp [hne.symm]
    have hperm := (perm_erase hs hp).filterMap fun x => if n == x.1 then some (how x.2) else f x
    rw [List.filterMap_cons_some (b := how p) (by simp), ← List.filterMap_congr hothers] at hperm
    exact hperm.symm

theorem perform_fates (hs : s.Orderly) (o : Operation) (later : List Entry) :
    ((s.perform o).2.1 ++ (s.perform o).2.2.pending later).Perm (s.pending (s.entry o :: later) ++
      ((s.entry o).registered?.bind fun x => fate x.1 x.2 later).toList) := by
  have hpending : s.pending (s.entry o :: later) = s.slots.filterMap fun x =>
      if o.ends x.1 then o.report? x.2 else fate x.1 x.2 later :=
    congrArg (s.slots.filterMap ·) (funext fun x => fate_cons x.1 x.2 _ later)
  rw [hpending]
  cases o with
  | register m q =>
    rcases Nat.lt_or_ge s.highest m with hm | hm
    · have he : (s.entry (.register m q)).registered? = some (m, q) :=
        (registered?_entry hs).mpr ⟨rfl, hm⟩
      rw [he, perform_register hs hm, pending, List.filterMap_append]
      simp only [List.nil_append, Operation.ends, Bool.false_eq_true, if_false, Option.bind_some]
      cases hf : fate m q later <;> simp [hf]
    · rw [entry, perform_register_low hm]
      simp [pending, Operation.ends, Entry.registered?]
  | take m =>
    have herased : (s.erase m).pending later =
        s.slots.filterMap fun x => if m == x.1 then none else fate x.1 x.2 later := by
      rw [pending, erase, List.filterMap_filter]
      refine List.filterMap_congr fun x _ => ?_
      by_cases hm : x.1 = m
      · simp [hm]
      · simp [hm, Ne.symm hm]
    change ((s.erase m).pending later).Perm _
    rw [herased]
    simp [Operation.ends, Operation.report?, entry, Entry.registered?]
  | answer m status apnsId d =>
    have hperm := resolve_perm hs m (fun p => p.answer status apnsId d)
      (fun x => fate x.1 x.2 later)
    refine hperm.trans (.of_eq ?_)
    simp [Operation.ends, Operation.report?, entry, Entry.registered?]
  | fail m e =>
    have hperm := resolve_perm hs m (fun p => p.fail e) (fun x => fate x.1 x.2 later)
    refine hperm.trans (.of_eq ?_)
    simp [Operation.ends, Operation.report?, entry, Entry.registered?]
  | drain =>
    simp [perform, drain, pending, Operation.ends, Operation.report?, entry, Entry.registered?]

theorem reports_perm (hs : s.Orderly) (os : List Operation) :
    ((s.history os).flatMap Entry.reports).Perm
      (s.pending (s.history os) ++ fates (s.history os)) := by
  -- A fate lies in what comes later, so the first operation is split off and not the last.
  induction os generalizing s with
  | nil => simp [history, pending, fate, fates]
  | cons o os ih =>
    have hlater := ih (hs.perform o)
    have hnow := perform_fates hs o ((s.perform o).2.2.history os)
    rw [history, List.flatMap_cons, fates]
    calc (s.entry o).reports ++ ((s.perform o).2.2.history os).flatMap Entry.reports
        |>.Perm ((s.entry o).reports ++ ((s.perform o).2.2.pending _ ++ fates _)) :=
          hlater.append_left _
      _ |>.Perm _ := by
          rw [← List.append_assoc, ← List.append_assoc]
          exact hnow.append_right _

theorem ends_of_reports (s : OpenStreams) (o : Operation) :
    ((s.perform o).2.1.map fun r => r.metric.ends).sum =
      (if (s.perform o).1 = .resolved true then 1 else 0) + (s.perform o).1.drains := by
  cases o with
  | register m q =>
    cases ht : s.register? m q with
    | none => simp [perform, ht, Reaction.drains]
    | some t => simp [perform, ht, Reaction.drains]
  | take m => rfl
  | answer m status apnsId d =>
    cases hp : s.get? m with
    | none => simp [perform, answer, resolve, hp, Reaction.drains]
    | some p => cases d <;> simp [perform, answer, resolve, hp, Reaction.drains] <;> rfl
  | fail m e =>
    cases hp : s.get? m with
    | none => simp [perform, fail, resolve, hp, Reaction.drains]
    | some p =>
      simp [perform, fail, resolve, hp, Reaction.drains]
      rfl
  | drain =>
    have hone : (fun x : Nat × Dispatch => x.2.drop.metric.ends) = fun _ => 1 := rfl
    simp [perform, drain, Reaction.drains, size, Function.comp_def, hone]

theorem completed_history (s : OpenStreams) (os : List Operation) :
    (Totals.ofEvents (((s.history os).flatMap Entry.reports).map Report.metric)).completed =
      (s.history os).countP (fun e => e.reaction = .resolved true) +
        ((s.history os).map fun e => e.reaction.drains).sum := by
  rw [(Totals.ofEvents_sums _).2.2]
  induction os generalizing s with
  | nil => rfl
  | cons o os ih =>
    have hnow := ends_of_reports s o
    have hlater := ih (s.perform o).2.2
    simp only [List.map_map, Function.comp_def] at hlater
    simp only [history, List.flatMap_cons, List.map_append, List.map_map, Function.comp_def,
      List.sum_append, List.countP_cons, List.map_cons, List.sum_cons, hlater]
    change (((s.perform o).2.1.map fun r => r.metric.ends).sum) + _ = _
    rw [hnow]
    by_cases hr : (s.perform o).1 = .resolved true
    · simp only [entry, hr, decide_true, if_true]
      omega
    · simp only [entry, hr, decide_false, Bool.false_eq_true, if_false]
      omega

/-- What a call comes to follows from the calls before it. A stream is registered if its number is
above zero and above all that were ever registered; otherwise the notification comes back and
nothing has changed. A call on one stream leaves all others alone. A call that is to resolve a
stream says whether there was something to resolve: a notification was registered there, and
nothing has ended that since. A drain fails all that is left, and counts it. What has been reported
in all is, for each notification that was registered, what the first call that ended its stream
says, and that is nothing if it was taken; as many have ended as calls have said that they resolved
one, and as drains have counted. -/
theorem calls_follow_history (os : List Operation) :
    (∀ n p, let accepted := 0 < n ∧ ∀ m ∈ registered (history {} os), m < n
      (((after {} os).perform (.register n p)).1 = .registered ↔ accepted) ∧
      (¬ accepted → (after {} os).perform (.register n p) = (.refused n p, [], after {} os))) ∧
    (∀ o n, o.stream? = some n → ∀ m, m ≠ n →
      ((after {} os).perform o).2.2.get? m = (after {} os).get? m) ∧
    (∀ o n, o.resolves? = some n → ∃ known, ((after {} os).perform o).1 = .resolved known ∧
      (known = true ↔ ∃ p, Live (history {} os) n p)) ∧
    (∃ live : List (Nat × Dispatch), (live.map Prod.fst).Nodup ∧
      (∀ n p, (n, p) ∈ live ↔ Live (history {} os) n p) ∧
      ((after {} os).perform .drain).1 = .drained live.length ∧
      ((after {} os).perform .drain).2.1 = live.map (fun x => x.2.fail .streamClosed) ∧
      ((after {} os).perform .drain).2.2.slots = []) ∧
    ((history {} os).flatMap Entry.reports).Perm (fates (history {} os)) ∧
    (Totals.ofEvents (((history {} os).flatMap Entry.reports).map Report.metric)).completed =
      (history {} os).countP (fun e => e.reaction = .resolved true) +
        ((history {} os).map fun e => e.reaction.drains).sum := by
  have horderly := after_orderly os
  refine ⟨?_, ?_, ?_, ?_, ?_, ?_⟩
  · intro n p
    dsimp only
    rw [← highest_lt_iff]
    rcases Nat.lt_or_ge (after {} os).highest n with hn | hn
    · rw [perform_register horderly hn]
      exact ⟨iff_of_true rfl hn, fun h => absurd hn h⟩
    · rw [perform_register_low hn]
      exact ⟨iff_of_false (by simp) (by omega), fun _ => rfl⟩
  · exact fun o n ho m hm => horderly.get?_perform_of_ne ho hm
  · intro o n ho
    refine ⟨((after {} os).get? n).isSome, ?_, ?_⟩
    · cases o with
      | answer m status apnsId d =>
        obtain rfl := Option.some.inj ho
        rfl
      | fail m e =>
        obtain rfl := Option.some.inj ho
        rfl
      | _ => cases ho
    · rw [Option.isSome_iff_exists]
      exact exists_congr fun p => get?_after os
  · refine ⟨(after {} os).slots, horderly.distinct, fun n p => ?_, rfl, rfl, rfl⟩
    rw [← get?_after, horderly.get?_eq_some]
  · simpa [pending] using reports_perm (s := {}) ⟨List.nodup_nil, by simp⟩ os
  · exact completed_history {} os

/-- Two notifications are registered and one of them is taken back. -/
def taken : List Operation :=
  let p : Dispatch := ⟨1, ⟨"00fc13ad", "com.example.app", "\x7b\x7d", none, .immediate, none, none,
    none⟩, false, false, false⟩
  [.register 3 p, .register 5 { p with id := 2 }, .take 5]

theorem calls_after_taken :
    (∀ p, (after {} taken).perform (.register 4 p) = (.refused 4 p, [], after {} taken)) ∧
    ((after {} taken).perform (.fail 3 .notProcessed)).1 = .resolved true := by
  obtain ⟨hregister, -, hresolve, -, -, -⟩ := calls_follow_history taken
  refine ⟨fun p => (hregister 4 p).2 ?_, ?_⟩
  · rintro ⟨-, habove⟩
    have hfive : 5 ∈ registered (history {} taken) := by decide +kernel
    have := habove 5 hfive
    omega
  · obtain ⟨known, hknown, hlive⟩ := hresolve (.fail 3 .notProcessed) 3 rfl
    rw [hknown, hlive.mpr ⟨_, [], _, _, rfl, rfl, by decide +kernel⟩]

def Reaction.callAnswer : Reaction → CallAnswer
  | registered => .registered
  | refused stream p => .reused stream p.id
  | taken p => .taken (p.map Dispatch.id)
  | resolved known => .flag known
  | drained count => .count count

namespace Session

/-- What a call of a session does with the streams. -/
def operation? (s : Session) : Call → Option Operation
  | .register stream id _ => (s.find? id).map (.register stream)
  | .take stream => some (.take stream)
  | .answer stream status apnsId d => some (.answer stream status apnsId d)
  | .fail stream e => some (.fail stream e)
  | .drain => some .drain
  | _ => none

theorem withHeld_streams {s : Session} {use : Dispatch → CallAnswer × List Report × Session}
    (huse : ∀ p, (use p).2.2.streams = s.streams) (id : Nat) :
    (s.withHeld id use).2.2.streams = s.streams := by
  unfold withHeld
  split
  · rfl
  · exact huse _

/-- The streams of a session are used by operations of this kind and in no other way. -/
theorem call_performs (s : Session) (c : Call) :
    match s.operation? c with
    | some o => (s.call c).1 = (s.streams.perform o).1.callAnswer ∧
        (s.call c).2.2.streams = (s.streams.perform o).2.2
    | none => (s.call c).2.2.streams = s.streams := by
  cases c with
  | register stream id keep =>
    simp only [operation?, call, withHeld]
    cases hp : s.find? id with
    | none => rfl
    | some p =>
      simp only [Option.map_some, perform]
      cases s.streams.register? stream p with
      | some t => exact ⟨rfl, rfl⟩
      | none =>
        obtain rfl : p.id = id := by simpa using List.find?_some hp
        cases keep <;> exact ⟨rfl, rfl⟩
  | take stream =>
    unfold operation? call
    refine ⟨rfl, ?_⟩
    dsimp only [perform]
    cases (s.streams.take stream).1 <;> rfl
  | answer | fail | drain => exact ⟨rfl, rfl⟩
  | submit | forget => rfl
  | markSent id | completeAnswered id | completeFailed id | drop id =>
    simp only [operation?, call, complete]
    apply withHeld_streams
    exact fun p => rfl
  | claimExpired id | claimRefused id =>
    simp only [operation?, call, claim]
    apply withHeld_streams
    intro p
    split <;> rfl

end Session

end OpenStreams

end PushDelivery
