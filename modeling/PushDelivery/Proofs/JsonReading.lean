import PushDelivery.Json.Parser
import PushDelivery.Json.Printer
import PushDelivery.Json.Record
import PushDelivery.Proofs.Digits
import PushDelivery.Proofs.Utf8

namespace PushDelivery

open Text

theorem JsonText.string?_ofString (s : String) : (JsonText.ofString s).string? = some s := by
  rw [JsonText.string?, JsonText.ofString, mapM_map_some, Option.map_some, String.ofList_toList]

theorem JsonText.ofString_inj {s t : String} :
    JsonText.ofString s = JsonText.ofString t ↔ s = t := by
  constructor
  · intro h
    simpa [JsonText.string?_ofString] using congrArg JsonText.string? h
  · exact congrArg _

/-- A text without holes. -/
def JsonText.IsWhole (s : JsonText) : Prop :=
  ∃ cs : List Char, s = cs.map some

/-- Digits before the point, as the grammar has them. -/
structure Numeral.IsWhole (ds : List Char) : Prop where
  nonempty : ds ≠ []
  digits : ∀ c ∈ ds, c.isDigit = true
  /-- A zero in front stands alone. -/
  leading : ds.head? = some '0' → ds = ['0']

/-- A numeral that the grammar can build. -/
structure Numeral.IsWritten (n : Numeral) : Prop where
  whole : Numeral.IsWhole n.whole
  fraction : ∀ c ∈ n.fraction, c.isDigit = true
  exponent : ∀ e ∈ n.exponent, e.2 ≠ [] ∧ ∀ c ∈ e.2, c.isDigit = true

namespace Json

mutual

/-- A document that can be written and read. -/
def IsWritten : Json → Prop
  | .null => True
  | .bool _ => True
  | .number n => n.IsWritten
  | .string s => s.IsWhole
  | .array xs => ItemsWritten xs
  | .object ms => MembersWritten ms

def ItemsWritten : List Json → Prop
  | [] => True
  | x :: xs => IsWritten x ∧ ItemsWritten xs

def MembersWritten : List (JsonText × Json) → Prop
  | [] => True
  | (name, v) :: ms => name.IsWhole ∧ IsWritten v ∧ MembersWritten ms

end

/-- A place of a string that stands for a character. -/
inductive Piece.Is : Piece → Char → Prop where
  | plain (c : Char) : Is (.plain (some c)) c
  | unit {c : Char} (h : c.toNat < 0x20) : Is (.unit c.toNat) c

theorem join_of_is {ps : List Piece} {cs : List Char} (h : List.Forall₂ Piece.Is ps cs) :
    join ps = cs.map some := by
  induction h with
  | nil => rfl
  | @cons p c ps cs hp hps ih =>
    cases hp with
    | plain => rw [join, ih, List.map_cons]
    | unit hc =>
      have hhigh : isHighSurrogate c.toNat = false := by
        simp [isHighSurrogate]
        omega
      have hlow : isLowSurrogate c.toNat = false := by
        simp [isLowSurrogate]
        omega
      cases hps with
      | nil => simp [join, hhigh, hlow, Char.ofNat_toNat]
      | @cons q d ps cs hq hps =>
        cases hq with
        | plain =>
          rw [join, List.map_cons] at ih
          simp [join, hhigh, hlow, Char.ofNat_toNat, (List.cons.inj ih).2]
        | unit hd => simp [join, hhigh, hlow, Char.ofNat_toNat, ih]

theorem padded_four (n : Nat) :
    Hex.padded 4 n = [Hex.digit (n / 16 / 16 / 16), Hex.digit (n / 16 / 16), Hex.digit (n / 16),
      Hex.digit n] := rfl

theorem pieces_unit {n : Nat} (hn : n < 0x10000) (rest : Symbols) :
    pieces (('\\' :: 'u' :: Hex.padded 4 n).map some ++ rest) =
      (pieces rest).map fun (ps, rest) => (.unit n :: ps, rest) := by
  have hvalue : ((n / 16 / 16 / 16 % 16 * 16 + n / 16 / 16 % 16) * 16 + n / 16 % 16) * 16 +
      n % 16 = n := by omega
  rw [padded_four]
  simp only [List.map_cons, List.map_nil, List.cons_append, List.nil_append, pieces, hexValue?,
    Option.bind_some, Hex.value?_digit, Option.bind_eq_bind, hvalue]
  cases pieces rest <;> rfl

theorem pieces_escape (c : Char) (rest : Symbols) :
    ∃ p, Piece.Is p c ∧ pieces ((escape c).map some ++ rest) =
      (pieces rest).map fun (ps, rest) => (p :: ps, rest) := by
  by_cases hshort : c ∈ ['"', '\\', '\x08', '\x0c', '\n', '\r', '\t']
  · refine ⟨_, .plain c, ?_⟩
    simp only [List.mem_cons, List.not_mem_nil, or_false] at hshort
    rcases hshort with rfl | rfl | rfl | rfl | rfl | rfl | rfl <;>
      (simp [escape, pieces, escaped?]; cases pieces rest <;> rfl)
  · simp only [List.mem_cons, List.not_mem_nil, or_false, not_or] at hshort
    obtain ⟨h₁, h₂, h₃, h₄, h₅, h₆, h₇⟩ := hshort
    by_cases hc : c.toNat < 0x20
    · refine ⟨_, .unit hc, ?_⟩
      simp only [escape, h₁, h₂, h₃, h₄, h₅, h₆, h₇, hc, if_true, if_false]
      exact pieces_unit (by omega) rest
    · refine ⟨_, .plain c, ?_⟩
      simp [escape, h₁, h₂, h₃, h₄, h₅, h₆, h₇, hc, pieces]
      cases pieces rest <;> rfl

theorem pieces_flatMap (cs : List Char) (rest : Symbols) :
    ∃ ps, List.Forall₂ Piece.Is ps cs ∧
      pieces ((cs.flatMap escape).map some ++ some '"' :: rest) = some (ps, rest) := by
  induction cs with
  | nil => exact ⟨[], .nil, rfl⟩
  | cons c cs ih =>
    obtain ⟨ps, hps, hread⟩ := ih
    obtain ⟨p, hp, hfirst⟩ := pieces_escape c ((cs.flatMap escape).map some ++ some '"' :: rest)
    refine ⟨p :: ps, .cons hp hps, ?_⟩
    rw [List.flatMap_cons, List.map_append, List.append_assoc, hfirst, hread]
    rfl

theorem text_quoted (cs : List Char) (rest : Symbols) :
    text ((cs.flatMap escape).map some ++ some '"' :: rest) = some (cs.map some, rest) := by
  obtain ⟨ps, hps, hread⟩ := pieces_flatMap cs rest
  rw [text, hread, ← join_of_is hps]
  rfl

theorem quote_append (cs : List Char) (rest : Symbols) :
    (quote cs).map some ++ rest =
      some '"' :: ((cs.flatMap escape).map some ++ some '"' :: rest) := by
  simp [quote]

/-- What follows a value in a document that was written: nothing, or a mark that cannot belong to
the value. -/
def Ends (rest : Symbols) : Prop :=
  ∀ s tail, rest = s :: tail → s ∈ [some ',', some '}', some ']']

theorem ends_nil : Ends [] := by
  rintro s tail h
  cases h

theorem ends_cons {c : Char} (h : c ∈ [',', '}', ']']) (rest : Symbols) :
    Ends (some c :: rest) := by
  rintro s tail hs
  obtain ⟨rfl, -⟩ := List.cons.inj hs
  simpa using h

/-- No digit can come next. -/
def NoDigit (rest : Symbols) : Prop :=
  ∀ c tail, rest = some c :: tail → c.isDigit = false

theorem noDigit_cons {c : Char} (h : c.isDigit = false) (rest : Symbols) :
    NoDigit (some c :: rest) := by
  rintro d tail hd
  obtain ⟨hd, -⟩ := List.cons.inj hd
  exact Option.some.inj hd ▸ h

theorem Ends.noDigit {rest : Symbols} (h : Ends rest) : NoDigit rest := by
  intro c tail hc
  have hmem := h _ _ hc
  simp only [List.mem_cons, Option.some.injEq, List.not_mem_nil, or_false] at hmem
  rcases hmem with rfl | rfl | rfl <;> rfl

theorem takeDigits_append {ds : List Char} (hds : ∀ c ∈ ds, c.isDigit = true) {rest : Symbols}
    (hrest : NoDigit rest) : takeDigits (ds.map some ++ rest) = (ds, rest) := by
  induction ds with
  | nil =>
    rw [List.map_nil, List.nil_append]
    unfold takeDigits
    split
    · rename_i c tail
      rw [hrest c tail rfl]
      rfl
    · rfl
  | cons c ds ih =>
    have ⟨hc, hds⟩ := List.forall_mem_cons.mp hds
    rw [List.map_cons, List.cons_append, takeDigits, if_pos hc, ih hds]

theorem someDigits_append {ds : List Char} (hne : ds ≠ []) (hds : ∀ c ∈ ds, c.isDigit = true)
    {rest : Symbols} (hrest : NoDigit rest) :
    someDigits (ds.map some ++ rest) = some (ds, rest) := by
  rw [someDigits, takeDigits_append hds hrest]
  cases ds with
  | nil => exact absurd rfl hne
  | cons c ds => rfl

theorem wholePart_append {ds : List Char} (h : Numeral.IsWhole ds) {rest : Symbols}
    (hrest : NoDigit rest) : wholePart (ds.map some ++ rest) = some (ds, rest) := by
  by_cases hzero : ds.head? = some '0'
  · rw [h.leading hzero]
    rfl
  · rw [wholePart, someDigits_append h.nonempty h.digits hrest]
    intro tail htail
    cases ds with
    | nil => exact h.nonempty rfl
    | cons c ds =>
      rw [List.map_cons, List.cons_append] at htail
      obtain ⟨hc, -⟩ := List.cons.inj htail
      exact hzero hc

/-- How a numeral's exponent is written. -/
def exponentText : Option (Bool × List Char) → List Char
  | none => []
  | some (negative, ds) => 'e' :: (if negative then ['-'] else []) ++ ds

theorem exponentSign_append (negative : Bool) {ds : List Char} (hne : ds ≠ [])
    (hds : ∀ c ∈ ds, c.isDigit = true) (rest : Symbols) :
    exponentSign ((if negative then ['-'] else []).map some ++ (ds.map some ++ rest)) =
      (negative, ds.map some ++ rest) := by
  cases negative with
  | true => rfl
  | false =>
    obtain ⟨c, ds, rfl⟩ := List.exists_cons_of_ne_nil hne
    have hc := hds c List.mem_cons_self
    have hminus : c ≠ '-' := by
      rintro rfl
      cases hc
    have hplus : c ≠ '+' := by
      rintro rfl
      cases hc
    simp [exponentSign, hminus, hplus]

theorem exponentPart_append {e : Option (Bool × List Char)}
    (h : ∀ x ∈ e, x.2 ≠ [] ∧ ∀ c ∈ x.2, c.isDigit = true) {rest : Symbols} (hrest : Ends rest) :
    exponentPart ((exponentText e).map some ++ rest) = some (e, rest) := by
  cases e with
  | none =>
    rw [exponentText, List.map_nil, List.nil_append]
    unfold exponentPart
    split
    · rename_i c tail
      have hmem := hrest _ _ rfl
      simp only [List.mem_cons, Option.some.injEq, List.not_mem_nil, or_false] at hmem
      rcases hmem with rfl | rfl | rfl <;> rfl
    · rfl
  | some e =>
    obtain ⟨negative, ds⟩ := e
    obtain ⟨hne, hds⟩ := h _ rfl
    simp only [exponentText, List.cons_append, List.map_cons, List.map_append, List.append_assoc,
      exponentPart]
    simp [exponentSign_append negative hne hds rest, someDigits_append hne hds hrest.noDigit]

theorem exponentText_noDigit (e : Option (Bool × List Char)) {rest : Symbols} (hrest : Ends rest) :
    NoDigit ((exponentText e).map some ++ rest) := by
  cases e with
  | none => exact hrest.noDigit
  | some e => exact noDigit_cons rfl _

theorem fractionPart_append {ds : List Char} (hds : ∀ c ∈ ds, c.isDigit = true)
    (e : Option (Bool × List Char)) {rest : Symbols} (hrest : Ends rest) :
    fractionPart ((if ds = [] then [] else '.' :: ds).map some ++
      ((exponentText e).map some ++ rest)) = some (ds, (exponentText e).map some ++ rest) := by
  have hnext := exponentText_noDigit e hrest
  by_cases hne : ds = []
  · subst hne
    rw [if_pos rfl, List.map_nil, List.nil_append]
    unfold fractionPart
    split
    · rename_i tail heq
      cases e with
      | none =>
        have := hrest _ _ heq
        simp at this
      | some e => cases heq
    · rfl
  · rw [if_neg hne]
    exact someDigits_append hne hds hnext

theorem unsignedNumeral_append {n : Numeral} (h : n.IsWritten) {rest : Symbols}
    (hrest : Ends rest) :
    unsignedNumeral n.negative (n.whole.map some ++ ((if n.fraction = [] then [] else
      '.' :: n.fraction).map some ++ ((exponentText n.exponent).map some ++ rest))) =
      some (n, rest) := by
  have hnext : NoDigit ((if n.fraction = [] then [] else '.' :: n.fraction).map some ++
      ((exponentText n.exponent).map some ++ rest)) := by
    split
    · exact exponentText_noDigit n.exponent hrest
    · exact noDigit_cons rfl _
  rw [unsignedNumeral, wholePart_append h.whole hnext]
  simp only [Option.bind_eq_bind, Option.bind_some, fractionPart_append h.fraction n.exponent hrest,
    exponentPart_append h.exponent hrest]
  rfl

theorem renderNumeral_eq (n : Numeral) :
    renderNumeral n = (if n.negative then ['-'] else []) ++ (n.whole ++
      ((if n.fraction = [] then [] else '.' :: n.fraction) ++ exponentText n.exponent)) := by
  rw [renderNumeral, List.append_assoc, List.append_assoc]
  congr 3

theorem numeral_append {n : Numeral} (h : n.IsWritten) {rest : Symbols} (hrest : Ends rest) :
    numeral ((renderNumeral n).map some ++ rest) = some (n, rest) := by
  have hread := unsignedNumeral_append h hrest
  rw [renderNumeral_eq]
  simp only [List.map_append, List.append_assoc]
  cases hsign : n.negative with
  | true =>
    rw [hsign] at hread
    exact hread
  | false =>
    rw [hsign] at hread
    obtain ⟨c, ds, hc⟩ := List.exists_cons_of_ne_nil h.whole.nonempty
    have hdigit := h.whole.digits c (hc ▸ List.mem_cons_self)
    rw [if_neg Bool.false_ne_true, List.map_nil, List.nil_append, numeral, hread]
    intro tail htail
    rw [hc, List.map_cons, List.cons_append] at htail
    obtain ⟨hc, -⟩ := List.cons.inj htail
    obtain rfl := Option.some.inj hc
    cases hdigit

/-- A character that a value can start with. -/
def Starts (c : Char) : Prop :=
  c ∈ ['n', 't', 'f', '"', '[', '{', '-'] ∨ c.isDigit = true

theorem Starts.not_space {c : Char} (h : Starts c) : isSpace (some c) = false := by
  have hne (d : Char) (hd : d ∈ [' ', '\t', '\n', '\r']) : (c == d) = false := by
    rw [beq_eq_false_iff_ne]
    rintro rfl
    revert h
    simp only [List.mem_cons, List.not_mem_nil, or_false] at hd
    rcases hd with rfl | rfl | rfl | rfl <;> simp [Starts]
  simp [isSpace, hne]

theorem Starts.not_end {c : Char} (h : Starts c) : c ≠ ']' := by
  rintro rfl
  revert h
  simp [Starts]

theorem skipSpace_cons {c : Char} (h : isSpace (some c) = false) (rest : Symbols) :
    skipSpace (some c :: rest) = some c :: rest :=
  List.dropWhile_cons_of_neg (by simp [h])

theorem renderNumeral_starts {n : Numeral} (h : n.IsWritten) :
    ∃ c cs, renderNumeral n = c :: cs ∧ (c = '-' ∨ c.isDigit = true) := by
  rw [renderNumeral_eq]
  cases n.negative with
  | true => exact ⟨'-', _, rfl, .inl rfl⟩
  | false =>
    obtain ⟨c, ds, hc⟩ := List.exists_cons_of_ne_nil h.whole.nonempty
    rw [hc]
    exact ⟨c, _, rfl, .inr (h.whole.digits c (hc ▸ List.mem_cons_self))⟩

theorem render_starts {j : Json} (h : j.IsWritten) : ∃ c cs, j.render = c :: cs ∧ Starts c := by
  cases j with
  | null => exact ⟨'n', _, rfl, .inl (by simp)⟩
  | bool b => cases b <;> exact ⟨_, _, rfl, .inl (by simp)⟩
  | number n =>
    obtain ⟨c, cs, hc, hstart⟩ := renderNumeral_starts (by simpa [IsWritten] using h)
    refine ⟨c, cs, by rw [render, hc], ?_⟩
    rcases hstart with rfl | hdigit
    · exact .inl (by simp)
    · exact .inr hdigit
  | string s => exact ⟨'"', _, rfl, .inl (by simp)⟩
  | array xs => cases xs <;> exact ⟨'[', _, rfl, .inl (by simp)⟩
  | object ms =>
    cases ms with
    | nil => exact ⟨'{', _, rfl, .inl (by simp)⟩
    | cons m ms => exact ⟨'{', _, rfl, .inl (by simp)⟩

theorem value_numeral (steps : Nat) {c : Char} (h : c = '-' ∨ c.isDigit = true) (rest : Symbols) :
    value (steps + 1) (some c :: rest) =
      (numeral (some c :: rest)).map fun (n, rest) => (.number n, rest) := by
  have hstart : Starts c := h.imp_left fun hc => by simp [hc]
  have hne (d : Char) (hd : d ∈ ['"', '{', '[', 'n', 't', 'f']) : c ≠ d := by
    rintro rfl
    revert h
    simp only [List.mem_cons, List.not_mem_nil, or_false] at hd
    rcases hd with rfl | rfl | rfl | rfl | rfl | rfl <;> simp
  simp only [List.forall_mem_cons] at hne
  obtain ⟨hquote, hbrace, hbracket, hn, ht, hf, -⟩ := hne
  rw [value, skipSpace_cons hstart.not_space]
  split
  · exact absurd (by injections) hquote
  · exact absurd (by injections) hbrace
  · exact absurd (by injections) hbracket
  · exact absurd (by injections) hn
  · exact absurd (by injections) ht
  · exact absurd (by injections) hf
  · rfl

/-- A document is read where it was written, when what follows cannot belong to it. -/
def Reads (j : Json) : Prop :=
  ∀ steps rest, j.render.length ≤ steps → Ends rest →
    value (steps + 1) (j.render.map some ++ rest) = some (j, rest)

theorem reads_number {n : Numeral} (h : n.IsWritten) : Reads (.number n) := by
  intro steps rest _ hrest
  obtain ⟨c, cs, hc, hstart⟩ := renderNumeral_starts h
  have hread := numeral_append h hrest
  rw [hc, List.map_cons, List.cons_append] at hread
  rw [render, hc, List.map_cons, List.cons_append, value_numeral steps hstart, hread]
  rfl

theorem reads_string {s : JsonText} (h : s.IsWhole) : Reads (.string s) := by
  intro steps rest _ _
  obtain ⟨cs, rfl⟩ := h
  have hwhole : (cs.map some).filterMap id = cs := by simp [List.filterMap_map]
  rw [render, hwhole, quote_append, value, skipSpace_cons rfl]
  simp [text_quoted]

theorem items_render {x : Json} {xs : List Json} (hx : Reads x) (hxs : ∀ y ∈ xs, Reads y)
    (steps : Nat) (rest : Symbols) (hsteps : x.render.length + (renderItems xs).length ≤ steps) :
    items (steps + 2) (x.render.map some ++ ((renderItems xs).map some ++ some ']' :: rest)) =
      some (x :: xs, rest) := by
  induction xs generalizing x steps with
  | nil =>
    rw [renderItems, List.map_nil, List.nil_append, items,
      hx steps _ (by omega) (ends_cons (by simp) _)]
    simp [skipSpace_cons, isSpace]
  | cons y ys ih =>
    have ⟨hy, hys⟩ := List.forall_mem_cons.mp hxs
    simp only [renderItems, List.length_append, List.length_cons] at hsteps
    obtain ⟨steps, rfl⟩ : ∃ k, steps = k + 1 := ⟨steps - 1, by omega⟩
    have hrest := ih hy hys steps (by omega)
    simp only [renderItems, List.map_append, List.map_cons, List.cons_append, List.append_assoc]
    rw [items, hx (steps + 1) _ (by omega) (ends_cons (by simp) _)]
    simp [skipSpace_cons, isSpace, hrest]

theorem value_array (steps : Nat) (rest : Symbols) :
    value (steps + 1) (some '[' :: rest) =
      match skipSpace rest with
      | some ']' :: rest => some (.array [], rest)
      | rest => (items steps rest).map fun (xs, rest) => (.array xs, rest) := by
  rw [value]
  rfl

theorem reads_array {xs : List Json} (hw : ItemsWritten xs) (h : ∀ x ∈ xs, Reads x) :
    Reads (.array xs) := by
  intro steps rest hsteps _
  cases xs with
  | nil => rfl
  | cons x xs =>
    have ⟨hx, hxs⟩ := List.forall_mem_cons.mp h
    simp only [render, List.length_append, List.length_cons, List.length_nil] at hsteps
    obtain ⟨steps, rfl⟩ : ∃ k, steps = k + 2 := ⟨steps - 2, by omega⟩
    have hread := items_render hx hxs steps rest (by omega)
    obtain ⟨c, cs, hc, hstart⟩ := render_starts hw.1
    simp only [render, List.cons_append, List.map_cons, List.append_assoc, List.map_append,
      List.map_nil, List.nil_append]
    rw [hc, List.map_cons, List.cons_append] at hread ⊢
    rw [value_array, skipSpace_cons hstart.not_space]
    split
    · rename_i tail heq
      exact absurd (Option.some.inj (List.cons.inj heq).1) hstart.not_end
    · rw [hread]
      rfl

/-- What a member is written as. -/
def memberText (name : JsonText) (v : Json) : List Char :=
  quote (name.filterMap id) ++ ':' :: v.render

theorem members_member {name : JsonText} {v : Json} (hname : name.IsWhole) (hv : Reads v)
    {steps : Nat} (hsteps : v.render.length ≤ steps) {c : Char} (hc : c ∈ [',', '}'])
    (rest : Symbols) :
    members (steps + 2) ((memberText name v).map some ++ some c :: rest) =
      if c = ',' then (members (steps + 1) rest).map fun (ms, rest) => ((name, v) :: ms, rest)
      else some ([(name, v)], rest) := by
  obtain ⟨cs, rfl⟩ := hname
  have hwhole : (cs.map some).filterMap id = cs := by simp [List.filterMap_map]
  simp only [List.mem_cons, List.not_mem_nil, or_false] at hc
  have hends : Ends (some c :: rest) := ends_cons (by rcases hc with rfl | rfl <;> simp) rest
  have hread := hv steps (some c :: rest) hsteps hends
  rw [memberText, hwhole, List.map_append, List.append_assoc, quote_append, members,
    skipSpace_cons rfl]
  simp only [text_quoted, Option.bind_eq_bind, Option.bind_some, List.map_cons, List.cons_append]
  rw [skipSpace_cons rfl]
  simp only [hread, Option.bind_some]
  rcases hc with rfl | rfl
  · rw [skipSpace_cons rfl, if_pos rfl]
    simp only [Option.map_eq_bind]
    rfl
  · rw [skipSpace_cons rfl, if_neg (by decide)]
    rfl

theorem members_render {name : JsonText} {v : Json} {ms : List (JsonText × Json)}
    (hname : name.IsWhole) (hv : Reads v) (hms : ∀ m ∈ ms, m.1.IsWhole ∧ Reads m.2)
    (steps : Nat) (rest : Symbols)
    (hsteps : v.render.length + (renderMembers ms).length ≤ steps) :
    members (steps + 2) ((memberText name v).map some ++
      ((renderMembers ms).map some ++ some '}' :: rest)) = some ((name, v) :: ms, rest) := by
  induction ms generalizing name v steps with
  | nil =>
    rw [renderMembers, List.map_nil, List.nil_append,
      members_member hname hv (by omega) (by simp), if_neg (by decide)]
  | cons m ms ih =>
    obtain ⟨⟨hname', hv'⟩, hms⟩ := List.forall_mem_cons.mp hms
    have hsplit : renderMembers (m :: ms) = ',' :: (memberText m.1 m.2 ++ renderMembers ms) := by
      simp [renderMembers, memberText]
    have hlen : m.2.render.length ≤ (memberText m.1 m.2).length := by
      simp only [memberText, List.length_append, List.length_cons]
      omega
    rw [hsplit, List.length_cons, List.length_append] at hsteps
    obtain ⟨steps, rfl⟩ : ∃ k, steps = k + 1 := ⟨steps - 1, by omega⟩
    have hrest := ih hname' hv' hms steps (by omega)
    rw [hsplit, List.map_cons, List.cons_append, List.map_append, List.append_assoc,
      members_member hname hv (by omega) (by simp), if_pos rfl, hrest]
    rfl

theorem value_object (steps : Nat) (rest : Symbols) :
    value (steps + 1) (some '{' :: rest) =
      match skipSpace rest with
      | some '}' :: rest => some (.object [], rest)
      | rest => (members steps rest).map fun (ms, rest) => (.object ms, rest) := by
  rw [value]
  rfl

theorem reads_object {ms : List (JsonText × Json)} (h : ∀ m ∈ ms, m.1.IsWhole ∧ Reads m.2) :
    Reads (.object ms) := by
  intro steps rest hsteps _
  cases ms with
  | nil => rfl
  | cons m ms =>
    obtain ⟨⟨hname, hv⟩, hms⟩ := List.forall_mem_cons.mp h
    have hsplit : render (.object (m :: ms)) =
        '{' :: (memberText m.1 m.2 ++ (renderMembers ms ++ ['}'])) := by
      simp [render, memberText]
    rw [hsplit] at hsteps ⊢
    simp only [memberText, List.length_append, List.length_cons, List.length_nil] at hsteps
    obtain ⟨steps, rfl⟩ : ∃ k, steps = k + 2 := ⟨steps - 2, by omega⟩
    have hread := members_render hname hv hms steps rest (by omega)
    simp only [List.map_cons, List.cons_append, List.map_append, List.append_assoc, List.map_nil,
      List.nil_append]
    rw [memberText, List.map_append, List.append_assoc, quote_append] at hread ⊢
    rw [value_object, skipSpace_cons rfl]
    split
    · rename_i heq
      cases heq
    · rw [hread]
      rfl

mutual

/-- Every document is read where it was written. -/
theorem reads_of_isWritten : ∀ j : Json, j.IsWritten → Reads j
  | .null, _ => fun _ _ _ _ => rfl
  | .bool true, _ => fun _ _ _ _ => rfl
  | .bool false, _ => fun _ _ _ _ => rfl
  | .number _, h => reads_number (by simpa [IsWritten] using h)
  | .string _, h => reads_string (by simpa [IsWritten] using h)
  | .array xs, h => reads_array (by simpa [IsWritten] using h)
      (items_of_isWritten xs (by simpa [IsWritten] using h))
  | .object ms, h => reads_object (members_of_isWritten ms (by simpa [IsWritten] using h))

theorem items_of_isWritten : ∀ xs : List Json, ItemsWritten xs → ∀ x ∈ xs, Reads x
  | [], _ => fun _ hx => absurd hx List.not_mem_nil
  | y :: ys, h =>
    List.forall_mem_cons.mpr ⟨reads_of_isWritten y h.1, items_of_isWritten ys h.2⟩

theorem members_of_isWritten : ∀ ms : List (JsonText × Json), MembersWritten ms →
    ∀ m ∈ ms, m.1.IsWhole ∧ Reads m.2
  | [], _ => fun _ hm => absurd hm List.not_mem_nil
  | (_, v) :: ms, h =>
    List.forall_mem_cons.mpr ⟨⟨h.1, reads_of_isWritten v h.2.1⟩, members_of_isWritten ms h.2.2⟩

end

theorem ofSymbols?_render {j : Json} (h : j.IsWritten) :
    ofSymbols? (j.render.map some) = some j := by
  have hread := reads_of_isWritten j h j.render.length [] (Nat.le_refl _) ends_nil
  rw [List.append_nil] at hread
  rw [ofSymbols?, List.length_map, hread]
  rfl

theorem ofString?_toText {j : Json} (h : j.IsWritten) : ofString? j.toText = some j := by
  rw [ofString?, toText, String.toList_ofList, ofSymbols?_render h]

/-- A document is read back from its bytes. -/
theorem ofBytes?_encode {j : Json} (h : j.IsWritten) :
    ofBytes? (Utf8.encode j.render) = some j := by
  rw [ofBytes?, Utf8.scan_encode, ofSymbols?_render h]

end Json

namespace Numeral

theorem isWhole_digits (n : Nat) : IsWhole (Decimal.digits n) where
  nonempty := Decimal.digits_ne_nil n
  digits := Decimal.isDigit_of_mem_digits
  leading h := by
    rcases Nat.eq_zero_or_pos n with rfl | hpos
    · exact Decimal.digits_of_lt (by decide)
    · exact absurd h (Decimal.head?_digits hpos)

theorem isWritten_ofInt (n : Int) : (ofInt n).IsWritten where
  whole := isWhole_digits _
  fraction := fun _ hc => absurd hc List.not_mem_nil
  exponent := fun _ he => by cases he

theorem integer?_ofInt {n : Int} (hlow : -(signedLimit : Int) ≤ n) (hhigh : n < wordLimit) :
    (ofInt n).integer? = some n := by
  have hwhole : Decimal.ofDigits (ofInt n).whole = n.natAbs := Decimal.ofDigits_digits _
  rw [integer?, if_neg (by simp [ofInt]), hwhole]
  by_cases hneg : n < 0
  · rw [if_pos (show (ofInt n).negative = true by simpa [ofInt] using hneg),
      if_pos (by omega), Int.ofNat_natAbs_of_nonpos (by omega), Int.neg_neg]
  · rw [if_neg (show ¬ (ofInt n).negative = true by simpa [ofInt] using hneg),
      if_pos (by omega), Int.natAbs_of_nonneg (by omega)]

theorem integer?_ofInt_signed {n : Int} (hlow : -(signedLimit : Int) ≤ n)
    (hhigh : n < signedLimit) : (ofInt n).integer? = some n :=
  integer?_ofInt hlow (hhigh.trans (by decide))

end Numeral

theorem JsonText.isWhole_ofString (s : String) : (JsonText.ofString s).IsWhole :=
  ⟨s.toList, rfl⟩

theorem Json.isWritten_ofString (s : String) : (Json.ofString s).IsWritten := by
  rw [Json.ofString, Json.IsWritten]
  exact JsonText.isWhole_ofString s

theorem Json.isWritten_ofInt (n : Int) : (Json.ofInt n).IsWritten := by
  rw [Json.ofInt, Json.IsWritten]
  exact Numeral.isWritten_ofInt n

end PushDelivery
