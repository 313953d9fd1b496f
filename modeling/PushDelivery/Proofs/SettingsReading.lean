import PushDelivery.Proofs.RecordReading
import PushDelivery.Settings.Basic

namespace PushDelivery

namespace AuthSource

variable {names values : List String}

theorem members_eq (names values : List String) : members names values =
    Json.recordMembers names (values.map fun s => some (Json.ofString s)) := by
  rw [members, Json.recordMembers]
  induction names generalizing values with
  | nil => simp
  | cons name names ih =>
    cases values with
    | nil => simp
    | cons value values => simp [ih]

theorem exists_of_mem_members {m : JsonText × Json} (h : m ∈ members names values) :
    ∃ name ∈ names, ∃ s, m = (JsonText.ofString name, Json.ofString s) := by
  rw [members_eq] at h
  obtain ⟨name, v, hmem, rfl⟩ := Json.mem_recordMembers.mp h
  obtain ⟨hname, hv⟩ := List.of_mem_zip hmem
  obtain ⟨s, -, hs⟩ := List.mem_map.mp hv
  obtain rfl := Option.some.inj hs
  exact ⟨name, hname, s, rfl⟩

theorem isWritten_members (names values : List String) :
    (Json.object (members names values)).IsWritten := by
  rw [Json.IsWritten, Json.membersWritten_iff]
  intro m hm
  obtain ⟨name, -, s, rfl⟩ := exists_of_mem_members hm
  exact ⟨JsonText.isWhole_ofString name, Json.isWritten_ofString s⟩

theorem isWritten_toJson (a : AuthSource) : a.toJson.IsWritten := by
  cases a <;> exact isWritten_members _ _

theorem soundWithin_members (names values : List String) :
    (Json.object (members names values)).soundWithin maxDepth = true := by
  refine Json.membersSoundWithin_iff.mpr fun m hm => ?_
  obtain ⟨name, -, s, rfl⟩ := exists_of_mem_members hm
  exact ⟨by rw [JsonText.string?_ofString, Option.isSome_some], Json.soundWithin_ofString _ s⟩

theorem texts?_members (hnames : names.Nodup) (hlen : names.length = values.length) :
    texts? names (.object (members names values)) = some values := by
  have hread : (values.map fun s => some (Json.ofString s)).mapM (fun v => v.bind Json.string?) =
      some values :=
    Json.mapM_eq_some_iff_forall₂.mpr (List.forall₂_map_left_iff.mpr
      (List.forall₂_same.mpr fun s _ => Json.string?_ofString s))
  rw [texts?, members_eq, Json.fields?_record hnames (by simpa using hlen)]
  exact hread

theorem filter_members (hnames : tagName ∉ names) :
    (members names values).filter (fun m => m.1 != JsonText.ofString tagName) =
      members names values := by
  refine List.filter_eq_self.mpr fun m hm => ?_
  obtain ⟨name, hname, s, rfl⟩ := exists_of_mem_members hm
  have hne : name ≠ tagName := fun he => hnames (he ▸ hname)
  simpa [bne, JsonText.ofString_beq] using hne

theorem ofJson?_members (hnames : (tagName :: names).Nodup) (tag : String) :
    ofJson? (.object (members (tagName :: names) (tag :: values))) =
      ofTagged? tag (.object (members names values)) := by
  have htag : Json.only? tagName (members (tagName :: names) (tag :: values)) =
      some (some (Json.ofString tag)) := by
    rw [members_eq]
    exact Json.only?_recordMembers hnames List.mem_cons_self
  have hrest : (members (tagName :: names) (tag :: values)).filter
      (fun m => m.1 != JsonText.ofString tagName) = members names values := by
    have hfirst : members (tagName :: names) (tag :: values) =
        (JsonText.ofString tagName, Json.ofString tag) :: members names values := rfl
    rw [hfirst, List.filter_cons_of_neg (by simp), filter_members (List.nodup_cons.mp hnames).1]
  rw [ofJson?, if_pos (soundWithin_members _ _)]
  simp only [htag, hrest, Option.bind_eq_bind, Option.bind_some, Json.string?_ofString]

theorem ofJson?_toJson (a : AuthSource) : ofJson? a.toJson = some a := by
  cases a with
  | none => exact ofJson?_members (by decide) _
  | certificate certificatePath keyPath =>
    have htexts : texts? certificateFields (.object (members certificateFields
        [certificatePath, keyPath])) = some [certificatePath, keyPath] :=
      texts?_members (by decide) rfl
    rw [toJson, ofJson?_members (by decide), ofTagged?, if_neg (by decide), if_pos rfl, htexts]
  | token keyPath teamId keyId =>
    have htexts : texts? tokenFields (.object (members tokenFields [keyPath, teamId, keyId])) =
        some [keyPath, teamId, keyId] := texts?_members (by decide) rfl
    rw [toJson, ofJson?_members (by decide), ofTagged?, if_neg (by decide), if_neg (by decide),
      if_pos rfl, htexts]

end AuthSource

namespace Settings

theorem readPort?_ofInt (n : UInt16) : readPort? (.ofInt n.toNat) = some n := by
  have := n.toNat_lt
  rw [readPort?, Json.nat?_ofInt (by decide) (by omega), Option.map_some, UInt16.ofNat_toNat]

theorem readWord?_ofWord (n : UInt64) : readWord? (ofWord n) = some n := by
  have := n.toNat_lt
  rw [readWord?, ofWord, Json.nat?_ofInt (by decide) (by simp only [Numeral.wordLimit]; omega),
    Option.map_some, UInt64.ofNat_toNat]

theorem optionalField?_trustedPath (s : Settings) :
    Json.optionalField? Json.string? (s.trustedPath.map Json.ofString) = some s.trustedPath := by
  cases s.trustedPath with
  | none => rfl
  | some path => exact Json.optionalField?_ofString path

theorem ofValues?_values (s : Settings) : ofValues? s.values = some s := by
  simp only [ofValues?, values, fieldOr?, Json.string?_ofString, readPort?_ofInt,
    AuthSource.ofJson?_toJson, Json.bool?, optionalField?_trustedPath, readWord?_ofWord,
    Option.bind_eq_bind, Option.bind_some]
  rfl

theorem toJson_eq (s : Settings) : s.toJson = .object (Json.recordMembers fieldNames s.values) :=
  rfl

theorem isWritten_toJson (s : Settings) : s.toJson.IsWritten := by
  rw [toJson_eq]
  refine Json.isWritten_record fun v hv => ?_
  simp only [values, List.mem_cons, Option.some.injEq, List.not_mem_nil, or_false] at hv
  rcases hv with rfl | rfl | rfl | rfl | hpath | rfl | rfl | rfl | rfl | rfl | rfl | rfl | rfl | rfl
  case inr.inr.inr.inr.inl =>
    obtain ⟨path, -, rfl⟩ := Option.map_eq_some_iff.mp hpath.symm
    exact Json.isWritten_ofString path
  all_goals first
    | exact Json.isWritten_ofString _
    | exact Json.isWritten_ofInt _
    | exact AuthSource.isWritten_toJson _
    | trivial

theorem ofJson?_toJson (s : Settings) : ofJson? s.toJson = some s := by
  rw [toJson_eq, ofJson?, Json.fields?_record (by decide) rfl]
  exact s.ofValues?_values

theorem ofText?_toText (s : Settings) : ofText? s.toText = some s := by
  rw [ofText?, toText, Json.ofString?_toText s.isWritten_toJson]
  exact s.ofJson?_toJson

/-- Settings with the standard value in every field that was left out. -/
structure StandardWhere (omitted : String → Prop) (s : Settings) : Prop where
  host : omitted "host" → s.host = standard.host
  port : omitted "port" → s.port = standard.port
  auth : omitted "auth" → s.auth = standard.auth
  plaintext : omitted "plaintext" → s.plaintext = standard.plaintext
  trustedPath : omitted "trusted_ca_path" → s.trustedPath = standard.trustedPath
  connections : omitted "concurrent_connections" → s.connections = standard.connections
  connectTimeout : omitted "connect_timeout_ms" → s.connectTimeout = standard.connectTimeout
  acquireTimeout : omitted "acquire_timeout_ms" → s.acquireTimeout = standard.acquireTimeout
  pingInterval : omitted "idle_ping_interval_ms" → s.pingInterval = standard.pingInterval
  gracePeriod : omitted "graceful_shutdown_timeout_ms" → s.gracePeriod = standard.gracePeriod
  tokenLifetime : omitted "token_expiration_ms" → s.tokenLifetime = standard.tokenLifetime
  backoffInitial : omitted "backoff_initial_ms" → s.backoffInitial = standard.backoffInitial
  backoffMax : omitted "backoff_max_ms" → s.backoffMax = standard.backoffMax
  retryExpiredTokens :
    omitted "retry_expired_tokens" → s.retryExpiredTokens = standard.retryExpiredTokens

/-- Whether none of an object's members has a name. -/
def Omits (members : List (JsonText × Json)) (name : String) : Prop :=
  ∀ m ∈ members, m.1 ≠ JsonText.ofString name

theorem eq_of_omitted {α : Type} {ms : List (JsonText × Json)} {name : String}
    {value : Option Json} {standard a : α} {read : Json → Option α}
    (hvalue : Json.only? name ms = some value) (hread : fieldOr? standard read value = some a)
    (h : Omits ms name) : a = standard := by
  obtain rfl : none = value := Option.some.inj ((Json.only?_of_omitted h).symm.trans hvalue)
  exact (Option.some.inj hread).symm

theorem path_eq_none_of_omitted {ms : List (JsonText × Json)} {name : String}
    {value : Option Json} {path : Option String} (hvalue : Json.only? name ms = some value)
    (hread : Json.optionalField? Json.string? value = some path) (h : Omits ms name) :
    path = none := by
  obtain rfl : none = value := Option.some.inj ((Json.only?_of_omitted h).symm.trans hvalue)
  exact (Option.some.inj hread).symm

theorem standardWhere_of_ofJson? {ms : List (JsonText × Json)} {s : Settings}
    (h : ofJson? (.object ms) = some s) : s.StandardWhere (Omits ms) := by
  obtain ⟨values, hvalues, hs⟩ := Option.bind_eq_some_iff.mp h
  obtain ⟨fields, hfields, hnamed⟩ := Option.bind_eq_some_iff.mp hvalues
  obtain ⟨_, rfl, hread⟩ := Json.named_of_fields? hfields
  obtain rfl := Option.some.inj hnamed
  unfold ofValues? at hs
  split at hs
  · have hbind {α β : Type} {x : Option α} {f : α → Option β} {b : β} :
        (x >>= f) = some b ↔ ∃ a, x = some a ∧ f a = some b := Option.bind_eq_some_iff
    simp only [hbind] at hs
    -- What is read of each field, and from which member.
    obtain ⟨_, hhost, _, hport, _, hauth, _, hplaintext, _, hpath, _, hconnections, _, hconnect, _,
      hacquire, _, hping, _, hgrace, _, hlifetime, _, hinitial, _, hmax, _, hretry, hs⟩ := hs
    obtain rfl := Option.some.inj hs
    simp only [fieldNames, List.forall₂_cons, List.forall₂_nil_left_iff] at hread
    obtain ⟨nhost, nport, nauth, nplaintext, npath, nconnections, nconnect, nacquire, nping, ngrace,
      nlifetime, ninitial, nmax, nretry, -⟩ := hread
    exact
      { host := eq_of_omitted nhost hhost
        port := eq_of_omitted nport hport
        auth := eq_of_omitted nauth hauth
        plaintext := eq_of_omitted nplaintext hplaintext
        trustedPath := path_eq_none_of_omitted npath hpath
        connections := eq_of_omitted nconnections hconnections
        connectTimeout := eq_of_omitted nconnect hconnect
        acquireTimeout := eq_of_omitted nacquire hacquire
        pingInterval := eq_of_omitted nping hping
        gracePeriod := eq_of_omitted ngrace hgrace
        tokenLifetime := eq_of_omitted nlifetime hlifetime
        backoffInitial := eq_of_omitted ninitial hinitial
        backoffMax := eq_of_omitted nmax hmax
        retryExpiredTokens := eq_of_omitted nretry hretry }
  · cases hs

/-- Settings are read back from their text; where an object that settings were read from had no
field, those read back have the standard value. -/
theorem written_settings_read :
    (∀ s : Settings, ofText? s.toText = some s) ∧
    ∀ (text : String) (members : List (JsonText × Json)) (s : Settings),
      Json.ofString? text = some (.object members) → ofText? text = some s →
        ofText? s.toText = some s ∧ s.StandardWhere (Omits members) := by
  refine ⟨ofText?_toText, fun text members s hobject hread => ⟨s.ofText?_toText, ?_⟩⟩
  rw [ofText?, hobject, Option.bind_some] at hread
  exact standardWhere_of_ofJson? hread

/-- A host, a path that is null, and a member that no field has; everything else is left out. -/
theorem read_of_host_only :
    let text := "\x7b\"host\":\"localhost\",\"trusted_ca_path\":null,\"color\":[]\x7d"
    let members := [(JsonText.ofString "host", Json.ofString "localhost"),
      (JsonText.ofString "trusted_ca_path", .null), (JsonText.ofString "color", .array [])]
    let s : Settings := { host := "localhost" }
    Json.ofString? text = some (.object members) ∧ ofText? text = some s ∧
      ofText? s.toText = some s ∧ s.StandardWhere (Omits members) := by
  intro text members s
  have hwritten : (Json.object (Json.recordMembers ["host", "trusted_ca_path", "color"]
      [some (.ofString "localhost"), some .null, some (.array [])])).IsWritten :=
    Json.isWritten_record (by simp [Json.isWritten_ofString, Json.IsWritten, Json.ItemsWritten])
  have htext : text = (Json.object members).toText := by decide +kernel
  have hobject : Json.ofString? text = some (.object members) := by
    rw [htext]
    exact Json.ofString?_toText hwritten
  have hread : ofText? text = some s := by decide +kernel
  exact ⟨hobject, hread, written_settings_read.2 text members s hobject hread⟩

end Settings

end PushDelivery
