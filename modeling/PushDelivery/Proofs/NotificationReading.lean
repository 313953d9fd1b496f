import PushDelivery.Notification
import PushDelivery.Proofs.DateReading
import PushDelivery.Proofs.RecordReading
import PushDelivery.Proofs.RequestReading

namespace PushDelivery

open Text

theorem Priority.ofName?_name (p : Priority) : ofName? p.name = some p := by
  cases p <;> decide

namespace Notification

theorem readInstant?_render {t : Instant} (h : t.WellFormed) :
    readInstant? (.ofString (String.ofList (DateText.render t))) = some t := by
  rw [readInstant?, Json.string?_ofString, Option.bind_some, String.toList_ofList,
    DateText.read?_render h]

theorem readPriority?_name (p : Priority) : readPriority? (.ofString p.name) = some p := by
  rw [readPriority?, Json.choice?_ofString, Option.bind_some, p.ofName?_name]

theorem readPushType?_name (t : PushType) : readPushType? (.ofString t.name) = some t := by
  rw [readPushType?, Json.choice?_ofString, Option.bind_some, t.ofName?_name]

theorem readUuid?_toText (u : Uuid) : readUuid? (.ofString u.toText) = some u := by
  rw [readUuid?, Json.string?_ofString, Option.bind_some, u.ofText?_toText]

section

variable {α : Type}

theorem isWritten_orNull (write : α → String) (value : Option α) :
    (orNull write value).IsWritten := by
  cases value with
  | none => trivial
  | some a => exact Json.isWritten_ofString (write a)

theorem optionalField?_orNull {read : Json → Option α} (write : α → String) (value : Option α)
    (h : ∀ a ∈ value, read (.ofString (write a)) = some a) :
    Json.optionalField? read (some (orNull write value)) = some value := by
  cases value with
  | none => rfl
  | some a => exact Json.optionalField?_string (h a rfl)

end

theorem toJson_eq (n : Notification) : n.toJson = .object (Json.recordMembers fieldNames
    [some (.ofString n.token), some (.ofString n.topic), some (.ofString n.payload),
      some (orNull (fun t => String.ofList (DateText.render t)) n.expiration),
      some (.ofString n.priority.name), some (orNull PushType.name n.pushType),
      some (orNull id n.collapseId), some (orNull Uuid.toText n.apnsId)]) := rfl

theorem isWritten_toJson (n : Notification) : n.toJson.IsWritten := by
  rw [toJson_eq]
  refine Json.isWritten_record fun v hv => ?_
  simp only [List.mem_cons, Option.some.injEq, List.not_mem_nil, or_false] at hv
  rcases hv with rfl | rfl | rfl | rfl | rfl | rfl | rfl | rfl
  all_goals first | exact Json.isWritten_ofString _ | exact isWritten_orNull _ _

theorem ofJson?_toJson {n : Notification} (h : ∀ t ∈ n.expiration, t.WellFormed) :
    ofJson? n.toJson = some n := by
  have hexpiration := optionalField?_orNull _ n.expiration fun t ht => readInstant?_render (h t ht)
  have hpushType := optionalField?_orNull _ n.pushType fun t _ => readPushType?_name t
  have hcollapseId := optionalField?_orNull id n.collapseId fun s _ => Json.string?_ofString s
  have hapnsId := optionalField?_orNull _ n.apnsId fun u _ => readUuid?_toText u
  rw [toJson_eq, ofJson?, Json.fields?_record (by decide) rfl, Option.bind_some, ofFields?]
  simp only [Json.string?_ofString, hexpiration, readPriority?_name, hpushType, hcollapseId,
    hapnsId, Option.bind_eq_bind, Option.bind_some]
  rfl

/-- A notification is read back from its text, and from the bytes of the text. -/
theorem written_notification_reads (n : Notification) (h : ∀ t ∈ n.expiration, t.WellFormed) :
    (Json.ofString? n.toJson.toText).bind ofJson? = some n ∧
    (Json.ofBytes? (Utf8.encode n.toJson.toText.toList)).bind ofJson? = some n := by
  have hwritten := n.isWritten_toJson
  rw [Json.ofString?_toText hwritten, Json.toText, String.toList_ofList,
    Json.ofBytes?_encode hwritten]
  exact ⟨ofJson?_toJson h, ofJson?_toJson h⟩

/-- A notification with quotes and controls in its texts that is to expire in a leap second of a
year before the year zero. -/
theorem leap_second_reads :
    let n : Notification :=
      { token := "00fc", topic := "com.exämple\t\u0000", payload := "\x7b\"a\": \"😀\\\"\x7d",
        expiration := some ⟨-62198755201, 1500000000⟩, priority := .conservePower,
        pushType := none, collapseId := some "", apnsId := some ⟨7⟩ }
    (∀ t ∈ n.expiration, t.WellFormed) ∧
    (Json.ofString? n.toJson.toText).bind ofJson? = some n := by
  intro n
  have h : ∀ t ∈ n.expiration, t.WellFormed := by
    rintro t ⟨⟩
    exact ⟨⟨by decide, by decide, by decide⟩, by decide⟩
  exact ⟨h, (written_notification_reads n h).1⟩

end Notification

end PushDelivery
