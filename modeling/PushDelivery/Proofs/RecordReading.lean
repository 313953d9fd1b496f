import PushDelivery.Proofs.JsonReading
import Mathlib.Data.List.Forall2

namespace PushDelivery

theorem JsonText.ofString_beq (s t : String) :
    (JsonText.ofString s == JsonText.ofString t) = (s == t) := by
  rw [Bool.eq_iff_iff, beq_iff_eq, beq_iff_eq, JsonText.ofString_inj]

namespace Json

theorem string?_ofString (s : String) : (ofString s).string? = some s :=
  JsonText.string?_ofString s

theorem soundWithin_ofString (depth : Nat) (s : String) :
    (ofString s).soundWithin depth = true := by
  simp [ofString, soundWithin, JsonText.string?_ofString]

theorem membersSoundWithin_iff {depth : Nat} {ms : List (JsonText × Json)} :
    membersSoundWithin depth ms = true ↔
      ∀ m ∈ ms, m.1.string?.isSome = true ∧ m.2.soundWithin depth = true := by
  induction ms with
  | nil => simp [membersSoundWithin]
  | cons m ms ih =>
    rw [membersSoundWithin, List.forall_mem_cons, Bool.and_eq_true, Bool.and_eq_true, ih]

theorem optionalField?_string {α : Type} {read : Json → Option α} {s : String} {a : α}
    (h : read (ofString s) = some a) :
    optionalField? read (some (ofString s)) = some (some a) := by
  rw [optionalField?, ofString, optional?]
  · rw [← ofString, h]
    rfl
  · simp

theorem optionalField?_ofString (s : String) :
    optionalField? string? (some (ofString s)) = some (some s) :=
  optionalField?_string (string?_ofString s)

theorem choice?_ofString (s : String) : choice? (ofString s) = some s :=
  JsonText.string?_ofString s

theorem nat?_ofInt {high n : Nat} (hhigh : high < Numeral.wordLimit) (hn : n ≤ high) :
    nat? high (ofInt n) = some n := by
  have hvalue : (Numeral.ofInt n).integer? = some (n : Int) :=
    Numeral.integer?_ofInt (by omega) (by omega)
  rw [nat?, ofInt, int?, hvalue, Option.filter_some_pos (by simpa using hn), Option.map_some,
    Int.toNat_natCast]

/-- The members of a record's object: every field that has a value, in order. -/
def recordMembers (names : List String) (values : List (Option Json)) : List (JsonText × Json) :=
  (List.zip names values).filterMap fun (name, value) =>
    value.map fun v => (JsonText.ofString name, v)

variable {names : List String} {values : List (Option Json)}

theorem mem_recordMembers {m : JsonText × Json} : m ∈ recordMembers names values ↔
    ∃ name v, (name, some v) ∈ List.zip names values ∧ m = (JsonText.ofString name, v) := by
  simp only [recordMembers, List.mem_filterMap, Prod.exists, Option.map_eq_some_iff]
  constructor
  · intro h
    obtain ⟨name, value, hmem, v, rfl, rfl⟩ := h
    exact ⟨name, v, hmem, rfl⟩
  · intro h
    obtain ⟨name, v, hmem, rfl⟩ := h
    exact ⟨name, some v, hmem, v, rfl, rfl⟩

theorem membersWritten_iff {ms : List (JsonText × Json)} :
    MembersWritten ms ↔ ∀ m ∈ ms, m.1.IsWhole ∧ m.2.IsWritten := by
  induction ms with
  | nil => simp [MembersWritten]
  | cons m ms ih => rw [MembersWritten, ih, List.forall_mem_cons, and_assoc]

theorem isWritten_record (h : ∀ v, some v ∈ values → v.IsWritten) :
    (object (recordMembers names values)).IsWritten := by
  rw [IsWritten, membersWritten_iff]
  intro m hm
  obtain ⟨name, v, hmem, rfl⟩ := mem_recordMembers.mp hm
  exact ⟨JsonText.isWhole_ofString name, h v (List.of_mem_zip hmem).2⟩

theorem recordMembers_cons (name : String) (value : Option Json) :
    recordMembers (name :: names) (value :: values) =
      (value.map fun v => (JsonText.ofString name, v)).toList ++ recordMembers names values := by
  cases value <;> rfl

theorem filter_recordMembers (hnames : names.Nodup) {name : String} {value : Option Json}
    (hmem : (name, value) ∈ List.zip names values) :
    (recordMembers names values).filter (fun m => m.1 == JsonText.ofString name) =
      (value.map fun v => (JsonText.ofString name, v)).toList := by
  induction names generalizing values with
  | nil => cases hmem
  | cons first names ih =>
    cases values with
    | nil => cases hmem
    | cons v values =>
      obtain ⟨hfirst, hnames⟩ := List.nodup_cons.mp hnames
      rw [recordMembers_cons, List.filter_append]
      rw [List.zip_cons_cons, List.mem_cons] at hmem
      rcases hmem with heq | hmem
      · obtain ⟨rfl, rfl⟩ := Prod.mk.inj heq
        have hrest : (recordMembers names values).filter
            (fun m => m.1 == JsonText.ofString name) = [] := by
          refine List.filter_eq_nil_iff.mpr fun m hm heq => ?_
          obtain ⟨other, w, hw, rfl⟩ := mem_recordMembers.mp hm
          rw [JsonText.ofString_beq, beq_iff_eq] at heq
          exact hfirst (heq ▸ (List.of_mem_zip hw).1)
        rw [hrest, List.append_nil]
        cases value <;> simp
      · have hne : first ≠ name := fun he => hfirst (he ▸ (List.of_mem_zip hmem).1)
        rw [ih hnames hmem]
        cases v <;> simp [JsonText.ofString_beq, hne]

theorem only?_recordMembers (hnames : names.Nodup) {name : String} {value : Option Json}
    (hmem : (name, value) ∈ List.zip names values) :
    only? name (recordMembers names values) = some value := by
  rw [only?, filter_recordMembers hnames hmem]
  cases value <;> rfl

theorem mapM_eq_some_iff_forall₂ {α β : Type} {f : α → Option β} {xs : List α} {ys : List β} :
    xs.mapM f = some ys ↔ List.Forall₂ (fun x y => f x = some y) xs ys := by
  induction xs generalizing ys with
  | nil => simp [eq_comm]
  | cons x xs ih =>
    simp only [List.mapM_cons, Option.bind_eq_bind, Option.bind_eq_some_iff, ih, Option.pure_def,
      Option.some.injEq, List.forall₂_cons_left_iff]
    constructor
    · intro h
      obtain ⟨y, hy, ys, hys, rfl⟩ := h
      exact ⟨y, ys, hy, hys, rfl⟩
    · intro h
      obtain ⟨y, ys, hy, hys, rfl⟩ := h
      exact ⟨y, hy, ys, hys, rfl⟩

/-- The fields of a record are read back from its object. -/
theorem fields?_record (hnames : names.Nodup) (hlen : names.length = values.length) :
    fields? names (object (recordMembers names values)) = some (.named values) := by
  have hread : names.mapM (fun name => only? name (recordMembers names values)) = some values :=
    mapM_eq_some_iff_forall₂.mpr
      (List.forall₂_iff_zip.mpr ⟨hlen, fun hmem => only?_recordMembers hnames hmem⟩)
  have hwhole : (recordMembers names values).all fun m => m.1.string?.isSome := by
    refine List.all_eq_true.mpr fun m hm => ?_
    obtain ⟨name, v, -, rfl⟩ := mem_recordMembers.mp hm
    rw [JsonText.string?_ofString]
    rfl
  rw [fields?, if_pos hwhole, hread, Option.map_some]

theorem named_of_fields? {ms : List (JsonText × Json)} {fields : Fields}
    (h : fields? names (object ms) = some fields) :
    ∃ values, fields = .named values ∧
      List.Forall₂ (fun name value => only? name ms = some value) names values := by
  rw [fields?] at h
  split at h
  · obtain ⟨values, hvalues, rfl⟩ := Option.map_eq_some_iff.mp h
    exact ⟨values, rfl, mapM_eq_some_iff_forall₂.mp hvalues⟩
  · cases h

theorem only?_of_omitted {name : String} {ms : List (JsonText × Json)}
    (h : ∀ m ∈ ms, m.1 ≠ JsonText.ofString name) : only? name ms = some none := by
  have hnone : ms.filter (fun m => m.1 == JsonText.ofString name) = [] :=
    List.filter_eq_nil_iff.mpr fun m hm heq => h m hm (beq_iff_eq.mp heq)
  rw [only?, hnone]

end Json

end PushDelivery
