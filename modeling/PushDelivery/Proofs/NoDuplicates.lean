import PushDelivery.Proofs.Streams

namespace PushDelivery

namespace StreamResult

def isExpired : StreamResult → Bool
  | reply r => r.isExpired
  | _ => false

/-- The gateway has refused the stream before it has looked at it. -/
def isRefused : StreamResult → Bool
  | reset code => code == Connection.refusedCode
  | _ => false

def isSuccess : StreamResult → Bool
  | reply r => Reply.isSuccess r.status
  | _ => false

/-- The gateway has said that it did not process the stream. -/
def isUnprocessed : StreamResult → Bool
  | goneAway => true
  | r => r.isRefused

theorem not_success_of_expired {r : StreamResult} (h : r.isExpired = true) :
    r.isSuccess = false := by
  cases r with
  | reply r => simpa [isSuccess] using (Bool.and_eq_true_iff.mp h).1
  | _ => rfl

theorem not_success_of_unprocessed {r : StreamResult} (h : r.isUnprocessed = true) :
    r.isSuccess = false := by
  cases r with
  | reply r => cases h
  | _ => rfl

theorem unprocessed_of_refused {r : StreamResult} (h : r.isRefused = true) :
    r.isUnprocessed = true := by
  cases r with
  | reset code => exact h
  | _ => cases h

end StreamResult

/-- Whether a stream has ended in a certain way. -/
def endedWith (f : StreamResult → Bool) (es : List Episode) (x : Nat × Nat) : Bool :=
  (results x es).any f

def Outcome.isAccepted : Outcome → Bool
  | answered r => r.decision.isAccepted
  | failed _ => false

variable {config : ClientConfig} {n : Nat} {es : List Episode} {w : World} {e : Episode}

/-- Streams that a notification has left behind: each ended in one of the two ways after which it is
written again, and the marks it carries say whether there is one of each. -/
structure Behind (config : ClientConfig) (es : List Episode) (xs : List (Nat × Nat))
    (a b : Bool) : Prop where
  ended : ∀ x ∈ xs, ∃ r, results x es = [r] ∧ (r.isExpired = true ∨ r.isRefused = true)
  expired : xs.countP (endedWith StreamResult.isExpired es) = a.toNat
  refused : xs.countP (endedWith StreamResult.isRefused es) = b.toNat
  wanted : a = true → config.retryExpiredTokens = true
  distinct : xs.Nodup

namespace Behind

variable {xs : List (Nat × Nat)} {a b : Bool}

theorem nothing : Behind config es [] false false :=
  ⟨by simp, rfl, rfl, by simp, List.nodup_nil⟩

theorem mono (h : Behind config es xs a b) (run : History config es w) (he : e.Follows w) :
    Behind config (es ++ [e]) xs a b := by
  have hkeep : ∀ x ∈ xs, results x (es ++ [e]) = results x es := by
    intro x hx
    obtain ⟨r, hr, -⟩ := h.ended x hx
    exact run.ends_once he (by simp [hr])
  have hcount (f : StreamResult → Bool) :
      xs.countP (endedWith f (es ++ [e])) = xs.countP (endedWith f es) := by
    refine List.countP_congr fun x hx => ?_
    rw [endedWith, hkeep x hx, endedWith]
  refine ⟨fun x hx => ?_, ?_, ?_, h.wanted, h.distinct⟩
  · rw [hkeep x hx]
    exact h.ended x hx
  · rw [hcount, h.expired]
  · rw [hcount, h.refused]

theorem add {x : Nat × Nat} {r : StreamResult} {c d : Bool} (h : Behind config es xs a b)
    (hr : results x es = [r]) (hx : x ∉ xs) (hor : r.isExpired = true ∨ r.isRefused = true)
    (he : c.toNat = a.toNat + r.isExpired.toNat) (hf : d.toNat = b.toNat + r.isRefused.toNat)
    (hs : c = true → config.retryExpiredTokens = true) :
    Behind config es (xs ++ [x]) c d where
  ended := by
    intro y hy
    rcases List.mem_append.mp hy with hy | hy
    · exact h.ended y hy
    · obtain rfl := List.mem_singleton.mp hy
      exact ⟨r, hr, hor⟩
  expired := by
    rw [List.countP_append, h.expired, he]
    cases hc : r.isExpired <;> simp [endedWith, hr, hc]
  refused := by
    rw [List.countP_append, h.refused, hf]
    cases hc : r.isRefused <;> simp [endedWith, hr, hc]
  wanted := hs
  distinct := by
    refine List.nodup_append.mpr ⟨h.distinct, List.nodup_singleton x, ?_⟩
    rintro y hy z hz rfl
    exact hx (List.mem_singleton.mp hz ▸ hy)

theorem length_le (h : Behind config es xs a b) : xs.length ≤ 2 := by
  -- Each of them counts as expired or as refused, and there is one mark for either.
  have hsum : xs.length ≤ xs.countP (endedWith StreamResult.isExpired es) +
      xs.countP (endedWith StreamResult.isRefused es) := by
    have hall := h.ended
    clear h
    induction xs with
    | nil => simp
    | cons x xs ih =>
      have hrest := ih fun y hy => hall y (List.mem_cons_of_mem x hy)
      obtain ⟨r, hr, hor⟩ := hall x List.mem_cons_self
      rw [List.countP_cons, List.countP_cons, List.length_cons]
      rcases hor with he | he
      · rw [if_pos (show endedWith StreamResult.isExpired es x = true by simp [endedWith, hr, he])]
        omega
      · rw [if_pos (show endedWith StreamResult.isRefused es x = true by simp [endedWith, hr, he])]
        omega
  rw [h.expired, h.refused] at hsum
  have h1 := Bool.toNat_le a
  have h2 := Bool.toNat_le b
  omega

theorem no_success (h : Behind config es xs a b) :
    xs.countP (endedWith StreamResult.isSuccess es) = 0 := by
  refine List.countP_eq_zero.mpr fun x hx => ?_
  obtain ⟨r, hr, hor⟩ := h.ended x hx
  have hf : r.isSuccess = false := hor.elim StreamResult.not_success_of_expired fun hc =>
    StreamResult.not_success_of_unprocessed (StreamResult.unprocessed_of_refused hc)
  simp [endedWith, hr, hf]

end Behind

/-- An outcome as the end of the last stream accounts for it. -/
structure Explained (es : List Episode) (last : Option (Nat × Nat)) (o : Outcome) : Prop where
  accepted : o.isAccepted = true →
    ∃ x r, last = some x ∧ results x es = [r] ∧ r.isSuccess = true
  unprocessed : o = .failed .notProcessed →
    ∃ x r, last = some x ∧ results x es = [r] ∧ r.isUnprocessed = true

/-- The streams of a notification so far: those it has left behind, and perhaps one on which it
waits, or on which it has come to its end. -/
inductive Course (config : ClientConfig) (n : Nat) (es : List Episode) : Option Holding → Prop
  | unwritten {p : Dispatch}
      (behind : Behind config es (streams n es) p.expiredRetried p.refusedRetried) :
      Course config n es (some (.unwritten p))
  | written {xs : List (Nat × Nat)} {c k : Nat} {p : Dispatch}
      (behind : Behind config es xs p.expiredRetried p.refusedRetried)
      (all : streams n es = xs ++ [(c, k)]) (new : (c, k) ∉ xs) (waits : results (c, k) es = []) :
      Course config n es (some (.written c k p))
  | gone {xs : List (Nat × Nat)} {last : Option (Nat × Nat)} {a b : Bool} {o : Outcome}
      (behind : Behind config es xs a b) (all : streams n es = xs ++ last.toList)
      (new : ∀ x ∈ last, x ∉ xs) (outcome : outcomes n es = [o])
      (explained : Explained es last o) : Course config n es none

theorem registered_of_hop {h : Holding} {k : Option Holding}
    (hb : e.before.streamsOf n = h.stream?.toList) (ha : e.after.held n = Holding.left k) :
    e.registered n = (k.bind Holding.stream?).toList.filter fun x => x ∉ h.stream?.toList := by
  unfold Episode.registered
  rw [hb]
  cases k with
  | none =>
    rw [World.streamsOf_of_none ha]
    rfl
  | some g =>
    rw [World.streamsOf_of_held ha]
    rfl

theorem results_of_move {c k : Nat} {r : StreamResult} (hm : e.move = .connection c (.result k r)) :
    results (c, k) [e] = [r] := by
  rw [results_one, Episode.result?_eq_some.mpr hm]
  rfl

theorem Course.keep {h : Holding} (course : Course config n es (some h))
    (run : History config es w) (he : e.Follows w) (hall : streams n (es ++ [e]) = streams n es)
    (ha : e.after.held n = {h}) : Course config n (es ++ [e]) (some h) := by
  cases course with
  | unwritten behind => exact .unwritten (hall ▸ behind.mono run he)
  | written behind all new waits =>
    exact .written (behind.mono run he) (hall.trans all) new
      ((run.snoc he).results_eq_nil_of_written (x := (_, _)) ha)

/-- A notification is written. No stream that it has left behind has the same number: those have
ended, and this one has not. -/
theorem Course.enter {c k : Nat} {p : Dispatch} (course : Course config n es (some (.unwritten p)))
    (run : History config es w) (he : e.Follows w)
    (hall : streams n (es ++ [e]) = streams n es ++ [(c, k)])
    (ha : e.after.held n = {.written c k p.markSent.1}) :
    Course config n (es ++ [e]) (some (.written c k p.markSent.1)) := by
  cases course with
  | unwritten behind =>
    have hwaits := (run.snoc he).results_eq_nil_of_written (x := (c, k)) ha
    have hbehind := behind.mono run he
    rw [Hop.markSent_fst]
    refine .written hbehind hall (fun hx => ?_) hwaits
    obtain ⟨r, hr, -⟩ := hbehind.ended (c, k) hx
    rw [hwaits] at hr
    cases hr

/-- A notification comes to its end without having been written since. -/
theorem Course.end_unwritten {a b : Bool} {o : Outcome}
    (behind : Behind config es (streams n es) a b) (run : History config es w) (he : e.Follows w)
    (hall : streams n (es ++ [e]) = streams n es) (ho : outcomes n (es ++ [e]) = [o])
    (ha : o.isAccepted = false) (hp : o ≠ .failed .notProcessed) :
    Course config n (es ++ [e]) none := by
  have hnone : streams n (es ++ [e]) = streams n es ++ (none : Option (Nat × Nat)).toList := by
    simp [hall]
  exact .gone (behind.mono run he) hnone (by simp) ho
    ⟨fun h => absurd h (by simp [ha]), fun h => absurd h hp⟩

theorem Course.end_written {c k : Nat} {p : Dispatch} {o : Outcome}
    (course : Course config n es (some (.written c k p))) (run : History config es w)
    (he : e.Follows w) (hall : streams n (es ++ [e]) = streams n es)
    (ho : outcomes n (es ++ [e]) = [o])
    (hr : results (c, k) es = [] → Explained (es ++ [e]) (some (c, k)) o) :
    Course config n (es ++ [e]) none := by
  cases course with
  | written behind all new waits =>
    have hsome : streams n (es ++ [e]) = _ ++ (some (c, k)).toList := hall.trans all
    exact .gone (behind.mono run he) hsome (by simpa using new) ho (hr waits)

theorem Course.leave {c k : Nat} {p q : Dispatch} {r : StreamResult}
    (course : Course config n es (some (.written c k p))) (run : History config es w)
    (he : e.Follows w) (hall : streams n (es ++ [e]) = streams n es)
    (hr : results (c, k) (es ++ [e]) = results (c, k) es ++ [r])
    (hor : r.isExpired = true ∨ r.isRefused = true)
    (hx : q.expiredRetried.toNat = p.expiredRetried.toNat + r.isExpired.toNat)
    (hf : q.refusedRetried.toNat = p.refusedRetried.toNat + r.isRefused.toNat)
    (hs : q.expiredRetried = true → p.expiredRetried = true ∨ config.retryExpiredTokens = true) :
    Course config n (es ++ [e]) (some (.unwritten q)) := by
  cases course with
  | written behind all new waits =>
    rw [waits, List.nil_append] at hr
    have hadd := (behind.mono run he).add hr new hor hx hf fun h => (hs h).elim behind.wanted id
    exact .unwritten (by rw [hall, all]; exact hadd)

theorem Course.step {h : Holding} {k : Option Holding} (course : Course config n es (some h))
    (run : History config es w) (he : e.Follows w) (hb : w.streamsOf n = h.stream?.toList)
    (hop : Hop (.ofConfig config) e.move h ↑(reportsOn n [e]) k)
    (ha : e.after.held n = Holding.left k) (hq : outcomes n es = []) :
    Course config n (es ++ [e]) k := by
  have hreg := registered_of_hop (he.1 ▸ hb) ha
  have hall : streams n (es ++ [e]) = streams n es ++ e.registered n := by simp
  have hone := coe_outcomes n [e]
  have hout : outcomes n (es ++ [e]) = outcomes n [e] := by
    rw [outcomes_append, hq, List.nil_append]
  have hend {o : Outcome} {R : Multiset Report}
      (hR : (↑(outcomes n [e]) : Multiset Outcome) = Multiset.filterMap Report.outcome? R)
      (ho : Multiset.filterMap Report.outcome? R = {o}) : outcomes n (es ++ [e]) = [o] := by
    rwa [ho, Multiset.coe_eq_singleton, ← hout] at hR
  have hres {c k : Nat} {r : StreamResult} (hm : e.move = .connection c (.result k r)) :
      results (c, k) (es ++ [e]) = results (c, k) es ++ [r] := by
    rw [results_append, results_of_move hm]
  rw [hreg] at hall
  generalize (↑(reportsOn n [e]) : Multiset Report) = R at hop hone
  generalize hm : e.move = m at hop
  -- A hop keeps the notification where it is, has it enter or leave a stream, or ends its course.
  cases hop with
  | stay h =>
    have hsame : streams n (es ++ [e]) = streams n es := by
      rw [hall]
      cases hs : h.stream? <;> simp [hs]
    exact course.keep run he hsame ha
  | fail p err hne =>
    cases course with
    | unwritten behind =>
      exact .end_unwritten behind run he (by simpa using hall) (hend hone rfl) rfl (by simp [hne])
  | misnumber c k i p cause hi =>
    cases course with
    | unwritten behind =>
      refine .end_unwritten behind run he (by simpa using hall) (hend hone ?_)
        (o := .failed (.writeFailed cause)) rfl (by simp)
      rw [Multiset.filterMap_add, Hop.markSent_outcome, zero_add]
      rfl
  | write c k i p hi =>
    exact course.enter run he hall ha
  | lose c k p =>
    refine course.end_written run he (by simpa [Holding.stream?] using hall) (hend hone rfl)
      fun _ => ⟨fun h => ?_, fun h => ?_⟩
    · cases h
    · cases h
  | answer c k r p status apnsId d hd =>
    refine course.end_written run he (by simpa [Holding.stream?] using hall) (hend hone rfl)
      fun hw => ⟨fun h => ⟨(c, k), .reply r, rfl, ?_, hd h⟩, fun h => ?_⟩
    · rw [hres hm, hw]
      rfl
    · cases h
  | failWritten c k r p err hne =>
    refine course.end_written run he (by simpa [Holding.stream?] using hall) (hend hone rfl)
      fun _ => ⟨fun h => ?_, fun h => ?_⟩
    · cases h
    · injection h with h
      exact absurd h hne
  | unprocessed c k r p hr =>
    refine course.end_written run he (by simpa [Holding.stream?] using hall) (hend hone rfl)
      fun hw => ⟨fun h => ?_, fun _ => ⟨(c, k), r, rfl, ?_, ?_⟩⟩
    · cases h
    · rw [hres hm, hw]
      rfl
    · rcases hr with rfl | rfl <;> rfl
  | resend c k r p hr hs hp =>
    exact course.leave run he (by simpa [Holding.stream?] using hall) (hres hm) (.inl hr)
      (by simp [hp, StreamResult.isExpired, hr]) rfl fun _ => .inr hs
  | rewrite c k p hp =>
    exact course.leave run he (by simpa [Holding.stream?] using hall) (hres hm) (.inr rfl) rfl
      (by simp [hp, StreamResult.isRefused]) fun h => .inl h

/-- A notification that has not come in is on no stream. -/
theorem History.streams_nil (h : History config es w)
    (hn : n ∉ (submissions es).map Dispatch.id) : streams n es = [] := by
  have hrun := h
  unfold History at hrun
  induction hrun with
  | nil => rfl
  | @snoc es v e hr he ih =>
    have hbefore : n ∉ (submissions es).map Dispatch.id := by
      intro hm
      refine hn ?_
      rw [submissions_append, List.map_append]
      exact List.mem_append_left _ hm
    rcases Story.exists_of_history h n with ⟨hm, -⟩ | ⟨-, hheld, -⟩
    · exact absurd hm hn
    · rw [streams_append, ih hr hbefore, streams_one, Episode.registered,
        World.streamsOf_of_none hheld]
      rfl

theorem Story.course {k : Option Holding} (story : Story config n es w k) :
    Course config n es k := by
  induction story with
  | @enter es w e p k run he hp hid hn hop ha =>
    have hnil : streams n es = [] := run.streams_nil fun hm => by
      obtain ⟨q, hq, hqid⟩ := List.mem_map.mp hm
      have hlt := run.submitted_lt q hq
      omega
    have hfresh : p.expiredRetried = false ∧ p.refusedRetried = false := by
      have hs := run.sound.submitted he
      rcases World.entering_length w e.move with h0 | ⟨q, h1, -, -, hq⟩
      · rw [hp, h0] at hs
        cases hs
      · rw [hp, h1] at hs
        obtain rfl := List.singleton_inj.mp hs
        exact hq
    have hbehind : Behind config es (streams n es) p.expiredRetried p.refusedRetried := by
      rw [hnil, hfresh.1, hfresh.2]
      exact .nothing
    have hheld : w.held n = 0 := by
      refine Multiset.filter_eq_nil.mpr fun g hg hid => ?_
      have hlt := run.sound.known g hg
      omega
    exact (Course.unwritten hbehind).step run he (World.streamsOf_of_none hheld) hop ha (by
      rw [outcomes, Story.quiet_before run hn]
      rfl)
  | @move es w e h k story he hno hop ha ih =>
    exact ih.step story.history he (World.streamsOf_of_held story.held_eq) hop ha
      (story.outcomes_of_holding.1 (by simp))
  | @rest es w e story he hno hq ha ih =>
    cases ih with
    | @gone xs last a b o behind all new outcome explained =>
      have hall : streams n (es ++ [e]) = streams n es := by
        rw [streams_append, streams_one, Episode.registered, World.streamsOf_of_none ha]
        exact List.append_nil _
      have hout : outcomes n (es ++ [e]) = [o] := by
        rw [outcomes_append, outcome, outcomes, hq]
        rfl
      have hkeep : ∀ x r, results x es = [r] → results x (es ++ [e]) = [r] := by
        intro x r hr
        rw [story.history.ends_once he (by simp [hr]), hr]
      refine .gone (behind.mono story.history he) (hall.trans all) new hout
        ⟨fun h => ?_, fun h => ?_⟩
      · obtain ⟨x, r, hx, hr, hf⟩ := explained.accepted h
        exact ⟨x, r, hx, hkeep x r hr, hf⟩
      · obtain ⟨x, r, hx, hr, hf⟩ := explained.unprocessed h
        exact ⟨x, r, hx, hkeep x r hr, hf⟩

theorem registered_of_write {s : ConnectionSettings} {x : Nat × Nat} (hw : w.Sound s)
    (he : e.Follows w) (hx : x ∈ e.registered n) :
    ∃ i, e.move = .connection x.1 i ∧ i.opened? = some x.2 := by
  have hk {h : Holding} {k : Option Holding} (hb : w.streamsOf n = h.stream?.toList)
      (hop : Hop s e.move h ↑(reportsOn n [e]) k) (ha : e.after.held n = Holding.left k) :
      ∃ i, e.move = .connection x.1 i ∧ i.opened? = some x.2 := by
    rw [registered_of_hop (he.1 ▸ hb) ha] at hx
    generalize (↑(reportsOn n [e]) : Multiset Report) = R at hop
    generalize hm : e.move = m at hop ⊢
    cases hop with
    | write c k i p hi =>
      obtain rfl : x = (c, k) := by simpa [Holding.stream?] using hx
      exact ⟨i, rfl, hi⟩
    | stay h => cases hs : h.stream? <;> simp [hs] at hx
    | _ => simp [Holding.stream?] at hx
  rcases hw.held_cases he n with
    ⟨-, -, -, ha⟩ | ⟨p, k, -, hid, hn, hop, ha⟩ | ⟨h, k, -, h1, hop, ha⟩
  · rw [Episode.registered, World.streamsOf_of_none ha] at hx
    cases hx
  · refine hk (World.streamsOf_of_none ?_) hop ha
    refine Multiset.filter_eq_nil.mpr fun g hg hid => ?_
    have hlt := hw.known g hg
    omega
  · exact hk (World.streamsOf_of_held h1) hop ha

theorem History.opened?_of_registered {x : Nat × Nat} (h : History config es w) (he : e ∈ es)
    (hx : x ∈ e.registered n) : ∃ i, e.move = .connection x.1 i ∧ i.opened? = some x.2 := by
  obtain ⟨before, after, rfl⟩ := List.mem_iff_append.mp he
  rw [← List.singleton_append, ← List.append_assoc] at h
  obtain ⟨v, hv, -⟩ := Run.split h
  obtain ⟨u, hu, hf, -⟩ := hv.last
  exact registered_of_write (History.sound hu) hf hx

theorem History.course (h : History config es w) (n : Nat) :
    ∃ xs last a b, Behind config es xs a b ∧ streams n es = xs ++ Option.toList last ∧
      (∀ x ∈ last, x ∉ xs) ∧ ∀ o ∈ outcomes n es, Explained es last o := by
  rcases Story.exists_of_history h n with ⟨-, k, story⟩ | ⟨hn, -, hq⟩
  · have hout := story.outcomes_of_holding
    cases story.course with
    | unwritten behind =>
      refine ⟨_, none, _, _, behind, by simp, by simp, ?_⟩
      rw [hout.1 (by simp)]
      simp
    | written behind all new waits =>
      refine ⟨_, some _, _, _, behind, all, by simpa using new, ?_⟩
      rw [hout.1 (by simp)]
      simp
    | gone behind all new outcome explained =>
      refine ⟨_, _, _, _, behind, all, new, ?_⟩
      rw [outcome]
      simpa using explained
  · refine ⟨[], none, _, _, .nothing, by simp [h.streams_nil hn], by simp, ?_⟩
    rw [outcomes, hq]
    simp

/-- In no run is a notification delivered twice. Of the streams on which it was written, three at
most, only the last can have been accepted: each of the others ended with an expired token or with
a refused stream, either of which happens once. -/
theorem no_duplicate_delivery (config : ClientConfig) (es : List Episode) (w : World)
    (h : History config es w) (n : Nat) :
    (∀ e ∈ es, ∀ x ∈ e.registered n,
      ∃ i, e.move = .connection x.1 i ∧ i.opened? = some x.2) ∧
    (streams n es).Nodup ∧ (streams n es).length ≤ 3 ∧ (∀ x, (results x es).length ≤ 1) ∧
    (∀ x ∈ (streams n es).dropLast,
      ∃ r, results x es = [r] ∧ (r.isExpired = true ∨ r.isRefused = true)) ∧
    (streams n es).dropLast.countP (endedWith StreamResult.isExpired es) ≤
      config.retryExpiredTokens.toNat ∧
    (streams n es).dropLast.countP (endedWith StreamResult.isRefused es) ≤ 1 ∧
    (streams n es).countP (endedWith StreamResult.isSuccess es) ≤ 1 ∧
    (∀ o ∈ outcomes n es, o.isAccepted = true →
      ∃ x r, (streams n es).getLast? = some x ∧ results x es = [r] ∧ r.isSuccess = true) ∧
    (.failed .notProcessed ∈ outcomes n es →
      (∃ x r, (streams n es).getLast? = some x ∧ results x es = [r] ∧ r.isUnprocessed = true) ∧
      (streams n es).countP (endedWith StreamResult.isSuccess es) = 0) := by
  obtain ⟨xs, last, a, b, behind, hall, hnew, hout⟩ := h.course n
  have hlen := behind.length_le
  have hdrop : (streams n es).dropLast.Sublist xs := by
    rw [hall]
    cases last with
    | none => simpa using List.dropLast_sublist xs
    | some x => simp
  have hlast : ∀ x, last = some x → (streams n es).getLast? = some x := by
    rintro x rfl
    simp [hall]
  have hsuccess : (streams n es).countP (endedWith StreamResult.isSuccess es) =
      last.toList.countP (endedWith StreamResult.isSuccess es) := by
    rw [hall, List.countP_append, behind.no_success, Nat.zero_add]
  refine ⟨fun e he x hx => h.opened?_of_registered he hx, ?_, ?_, h.results_le_one,
    fun x hx => behind.ended x (hdrop.subset hx), ?_, ?_, ?_, ?_, ?_⟩
  · rw [hall]
    cases last with
    | none => simpa using behind.distinct
    | some x =>
      refine List.nodup_append.mpr ⟨behind.distinct, List.nodup_singleton x, ?_⟩
      rintro y hy z hz rfl
      exact hnew y (List.mem_singleton.mp hz ▸ rfl) hy
  · rw [hall, List.length_append]
    cases last <;> simp <;> omega
  · refine le_trans hdrop.countP_le ?_
    rw [behind.expired]
    cases a with
    | false => exact Nat.zero_le _
    | true => simp [behind.wanted rfl]
  · exact le_trans hdrop.countP_le (behind.refused ▸ Bool.toNat_le _)
  · rw [hsuccess]
    exact le_trans List.countP_le_length (by cases last <;> simp)
  · intro o ho ha
    obtain ⟨x, r, hx, hr, hs⟩ := (hout o ho).accepted ha
    exact ⟨x, r, hlast x hx, hr, hs⟩
  · intro ho
    obtain ⟨x, r, rfl, hr, hs⟩ := (hout _ ho).unprocessed rfl
    refine ⟨⟨x, r, hlast x rfl, hr, hs⟩, ?_⟩
    rw [hsuccess]
    simp [endedWith, hr, StreamResult.not_success_of_unprocessed hs]

theorem no_duplicate_of_delivery : ∃ es w, History .plain es w ∧
    streams 1 es = [(1, 1), (1, 3)] ∧
    (∃ r, results (1, 1) es = [r] ∧ (r.isExpired = true ∨ r.isRefused = true)) ∧
    ∃ r, results (1, 3) es = [r] ∧ r.isSuccess = true := by
  have hd : delivery.any (fun x => streams 1 x.1 == [(1, 1), (1, 3)] &&
      (outcomes 1 x.1).any Outcome.isAccepted) = true := by decide +kernel
  obtain ⟨⟨es, w⟩, hplay, hx⟩ := (Option.any_eq_true _ _).mp hd
  have hrun : History .plain es w := (Run.of_play hplay).1
  obtain ⟨hs, ho⟩ := Bool.and_eq_true_iff.mp hx
  have hs : streams 1 es = [(1, 1), (1, 3)] := beq_iff_eq.mp hs
  obtain ⟨o, hmem, ha⟩ := List.any_eq_true.mp ho
  obtain ⟨-, -, -, -, hended, -, -, -, haccepted, -⟩ := no_duplicate_delivery .plain es w hrun 1
  rw [hs] at hended haccepted
  obtain ⟨x, r, hlast, hr, hsuccess⟩ := haccepted o hmem ha
  obtain rfl : (1, 3) = x := Option.some.inj hlast
  exact ⟨es, w, hrun, hs, hended (1, 1) (by simp), r, hr, hsuccess⟩

end PushDelivery
