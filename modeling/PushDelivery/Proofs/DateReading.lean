import PushDelivery.Proofs.CalendarDays
import PushDelivery.Proofs.Digits
import PushDelivery.Proofs.ReplyReading
import PushDelivery.Time.DateText

namespace PushDelivery

open Text

/-- An instant that can be represented, in a leap second only after second 59 of a minute. -/
structure Instant.WellFormed (t : Instant) : Prop extends Representable t where
  leap : 1000000000 ≤ t.nanos → t.seconds % 60 = 59

namespace DateText

/-- No digit can come next. -/
def NoDigit (rest : List Char) : Prop :=
  ∀ c tail, rest = c :: tail → c.isDigit = false

theorem noDigit_cons {c : Char} (h : c.isDigit = false) (rest : List Char) :
    NoDigit (c :: rest) := by
  intro d tail hd
  obtain ⟨rfl, -⟩ := List.cons.inj hd
  exact h

theorem isBlank_of_isDigit {c : Char} (h : c.isDigit = true) : isBlank c = false := by
  have hrange := Hex.toNat_of_isDigit (c := c) (by simp [Hex.isDigit, h])
  simp [isBlank]
  omega

theorem trimStart_cons {c : Char} (h : isBlank c = false) (rest : List Char) :
    trimStart (c :: rest) = c :: rest :=
  List.dropWhile_cons_of_neg (by simp [h])

theorem takeWhile_take_of_noDigit {rest : List Char} (h : NoDigit rest) (k : Nat) :
    (rest.take k).takeWhile Char.isDigit = [] := by
  cases rest with
  | nil => rw [List.take_nil, List.takeWhile_nil]
  | cons c rest =>
    cases k with
    | zero => rfl
    | succ k => exact List.takeWhile_cons_of_neg (by simp [h c rest rfl])

theorem number?_append {width : Nat} {ds rest : List Char} (hne : ds ≠ [])
    (hds : ∀ c ∈ ds, c.isDigit = true) (hwidth : ds.length ≤ width)
    (hrest : ds.length = width ∨ NoDigit rest) :
    number? width (ds ++ rest) = some (Decimal.ofDigits ds, rest) := by
  have hnone : (rest.take (width - ds.length)).takeWhile Char.isDigit = [] := by
    rcases hrest with hlen | hrest
    · rw [hlen, Nat.sub_self]
      rfl
    · exact takeWhile_take_of_noDigit hrest _
  have htaken : ((ds ++ rest).take width).takeWhile Char.isDigit = ds := by
    rw [List.take_append, List.take_of_length_le hwidth, List.takeWhile_append_of_pos hds, hnone,
      List.append_nil]
  rw [number?, htaken]
  split
  · exact absurd rfl hne
  · rw [List.drop_left]

theorem number?_padded {limit width n : Nat} {rest : List Char} (hpos : 0 < width)
    (hwidth : width ≤ limit) (hrest : width = limit ∨ NoDigit rest) (hn : n < 10 ^ width) :
    number? limit (Decimal.padded width n ++ rest) = some (n, rest) := by
  have hlen := Decimal.length_padded width n
  rw [number?_append (Decimal.padded_ne_nil hpos n) Decimal.isDigit_of_mem_padded
    (hlen.trans_le hwidth) (hrest.imp_left hlen.trans), Decimal.ofDigits_padded,
    Nat.mod_eq_of_lt hn]

theorem trimStart_padded {width : Nat} (hpos : 0 < width) (n : Nat) (rest : List Char) :
    trimStart (Decimal.padded width n ++ rest) = Decimal.padded width n ++ rest := by
  obtain ⟨c, cs, hc⟩ := List.exists_cons_of_ne_nil (Decimal.padded_ne_nil hpos n)
  have hdigit := Decimal.isDigit_of_mem_padded c (hc ▸ List.mem_cons_self)
  rw [hc]
  exact trimStart_cons (isBlank_of_isDigit hdigit) _

theorem field?_padded {low high n : Nat} (hn : n < 100) (hlow : low ≤ n) (hhigh : n ≤ high)
    (rest : List Char) :
    field? low high (Decimal.padded 2 n ++ rest) = some (n, rest) := by
  rw [field?, trimStart_padded (by decide), number?_padded (by decide) le_rfl (.inl rfl) hn]
  exact if_pos ⟨hlow, hhigh⟩

theorem mark?_trimStart {c : Char} (h : isBlank c = false) (rest : List Char) :
    mark? c (trimStart (c :: rest)) = some rest := by
  rw [trimStart_cons h]
  exact if_pos rfl

theorem allDigits?_long (n : Nat) {rest : List Char} (hrest : NoDigit rest) :
    allDigits? (List.replicate (4 - (Decimal.digits n).length) '0' ++ Decimal.digits n ++ rest) =
      some (n, rest) := by
  have hzeros : ∀ c ∈ List.replicate (4 - (Decimal.digits n).length) '0', c.isDigit = true := by
    intro c hc
    rw [List.eq_of_mem_replicate hc]
    rfl
  rw [allDigits?, number?_append (List.append_ne_nil_of_right_ne_nil _ (Decimal.digits_ne_nil n))
    (List.forall_mem_append.mpr ⟨hzeros, Decimal.isDigit_of_mem_digits⟩) (by simp) (.inr hrest),
    Decimal.ofDigits_replicate_zero, Decimal.ofDigits_digits]

theorem year?_cons_digit {c : Char} (h : c.isDigit = true) (rest : List Char) :
    year? (c :: rest) = (number? 4 (c :: rest)).map fun (n, rest) => ((n : Int), rest) := by
  rw [year?, trimStart_cons (isBlank_of_isDigit h)]
  split
  · rename_i heq
    obtain ⟨rfl, -⟩ := List.cons.inj heq
    cases h
  · rename_i heq
    obtain ⟨rfl, -⟩ := List.cons.inj heq
    cases h
  · rfl

theorem year?_renderYear (y : Int) {rest : List Char} (hrest : NoDigit rest) :
    year? (renderYear y ++ rest) = some (y, rest) := by
  by_cases hfour : 0 ≤ y ∧ y ≤ 9999
  · obtain ⟨c, cs, hc⟩ := List.exists_cons_of_ne_nil
      (Decimal.padded_ne_nil (show 0 < 4 by decide) y.toNat)
    have hdigit := Decimal.isDigit_of_mem_padded c (hc ▸ List.mem_cons_self)
    have hread : number? 4 (Decimal.padded 4 y.toNat ++ rest) = some (y.toNat, rest) :=
      number?_padded (by decide) le_rfl (.inl rfl) (by omega)
    rw [hc, List.cons_append] at hread
    rw [renderYear, if_pos hfour, hc, List.cons_append, year?_cons_digit hdigit, hread]
    simp only [Option.map_some, Int.toNat_of_nonneg hfour.1]
  · have hread := allDigits?_long y.natAbs hrest
    rw [renderYear, if_neg hfour]
    by_cases hneg : y < 0
    · have hminus : isBlank '-' = false := by decide
      have hy : -(y.natAbs : Int) = y := by omega
      simp only [if_pos hneg, List.cons_append, year?, trimStart_cons hminus, hread,
        Option.map_some, hy]
    · have hplus : isBlank '+' = false := by decide
      have hy : (y.natAbs : Int) = y := by omega
      simp only [if_neg hneg, List.cons_append, year?, trimStart_cons hplus, hread,
        Option.map_some, hy]

theorem date?_append {d : Date} (hvalid : d.isValid = true) (hlow : -262143 ≤ d.year)
    (hhigh : d.year ≤ 262142) (rest : List Char) :
    date? (renderYear d.year ++ '-' :: (Decimal.padded 2 d.month ++
      '-' :: (Decimal.padded 2 d.day ++ rest))) = some (d, rest) := by
  obtain ⟨y, m, n⟩ := d
  obtain ⟨⟨hm, hm'⟩, hn, hn'⟩ := Date.isValid_mk.mp hvalid
  have hn31 := hn'.trans (Date.daysIn_le y m)
  have hhyphen : isBlank '-' = false := by decide
  rw [date?, year?_renderYear y (noDigit_cons rfl _)]
  simp only [Option.bind_eq_bind, Option.bind_some, mark?_trimStart hhyphen]
  rw [field?_padded (by omega) hm hm']
  simp only [Option.bind_some, mark?_trimStart hhyphen]
  rw [field?_padded (by omega) hn hn31]
  exact if_pos ⟨hvalid, hlow, hhigh⟩

theorem fraction?_padded {width n : Nat} (hpos : 0 < width) (hwidth : width ≤ 9)
    (hn : n < 10 ^ width) {rest : List Char} (hrest : NoDigit rest) :
    fraction? ('.' :: (Decimal.padded width n ++ rest)) = some (n * 10 ^ (9 - width), rest) := by
  have hdrop : rest.dropWhile Char.isDigit = rest := by
    cases rest with
    | nil => rfl
    | cons c rest => exact List.dropWhile_cons_of_neg (by simp [hrest c rest rfl])
  rw [fraction?, number?_padded hpos hwidth (.inr hrest) hn]
  simp only [Option.bind_eq_bind, Option.bind_some, hdrop, List.length_append,
    Decimal.length_padded, Nat.add_sub_cancel]
  rfl

theorem fraction?_renderFraction {n : Nat} (hn : n < 1000000000) :
    fraction? (renderFraction n ++ ['Z']) = some (n, ['Z']) := by
  have hend : NoDigit ['Z'] := noDigit_cons rfl []
  rw [renderFraction]
  split
  · rename_i hzero
    rw [hzero]
    rfl
  · split
    · rw [List.cons_append, fraction?_padded (by decide) (by decide) (by omega) hend]
      congr 2
      omega
    · split
      · rw [List.cons_append, fraction?_padded (by decide) (by decide) (by omega) hend]
        congr 2
        omega
      · rw [List.cons_append, fraction?_padded (by decide) (by decide) hn hend]
        congr 2
        omega

theorem clock?_append {s nanos : Nat} (hs : s < 86400) (hnanos : nanos < 2000000000)
    (hleap : 1000000000 ≤ nanos → s % 60 = 59) :
    clock? (Decimal.padded 2 (s / 3600) ++ ':' :: (Decimal.padded 2 (s / 60 % 60) ++
      ':' :: (Decimal.padded 2 (s % 60 + nanos / 1000000000) ++
        (renderFraction (nanos % 1000000000) ++ ['Z'])))) = some (s, nanos, ['Z']) := by
  have hcolon : isBlank ':' = false := by decide
  have hsixty : s % 60 + nanos / 1000000000 ≤ 60 := by omega
  rw [clock?, field?_padded (by omega) (Nat.zero_le _) (by omega)]
  simp only [Option.bind_eq_bind, Option.bind_some, mark?_trimStart hcolon]
  rw [field?_padded (by omega) (Nat.zero_le _) (by omega)]
  simp only [Option.bind_some, mark?_trimStart hcolon]
  rw [field?_padded (by omega) (Nat.zero_le _) hsixty]
  simp only [Option.bind_some, fraction?_renderFraction (Nat.mod_lt nanos (by decide))]
  have hsecond : s / 3600 * 3600 + s / 60 % 60 * 60 + (s % 60 + nanos / 1000000000 -
      (s % 60 + nanos / 1000000000) / 60) = s := by omega
  have hfraction : nanos % 1000000000 +
      (s % 60 + nanos / 1000000000) / 60 * 1000000000 = nanos := by omega
  rw [hsecond, hfraction]
  rfl

/-- An instant is read back from its text. Its days and its second of the day are counted forward,
also before 1970. -/
theorem read?_render {t : Instant} (h : t.WellFormed) : read? (render t) = some t := by
  have hlow := h.low
  have hhigh := h.high
  have hleap := h.leap
  generalize hdays : t.seconds / 86400 = days
  generalize hsecond : (t.seconds % 86400).toNat = s
  have hs : s < 86400 := by omega
  have hfirst : Instant.minSeconds ≤ days * 86400 := by
    simp only [Instant.minSeconds] at hlow ⊢
    omega
  have hyear := Date.year_ofDays hfirst (by omega)
  have hclock := clock?_append hs h.nanos fun hn => by
    have := hleap hn
    omega
  have hseconds : days * 86400 + s - 0 = t.seconds := by omega
  rw [render, hdays, hsecond]
  simp only [List.append_assoc, List.cons_append]
  rw [read?, date?_append (Date.isValid_ofDays days) hyear.1 hyear.2]
  simp only [Option.bind_eq_bind, Option.bind_some, separator?, true_or, if_true, hclock]
  rw [show offset? (trimStart ['Z']) = some (0, []) by decide]
  simp only [Option.bind_some, Date.toDays_ofDays, hseconds]
  exact if_pos ⟨rfl, hlow, hhigh⟩

end DateText

end PushDelivery
