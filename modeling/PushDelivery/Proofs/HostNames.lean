import PushDelivery.Client.Dialer
import PushDelivery.Proofs.Acceptance

namespace PushDelivery

open Text

namespace Text

theorem split_cons_other {separator c : Char} (h : c ≠ separator) (cs : List Char) :
    ∃ part others, split separator cs = part :: others ∧
      split separator (c :: cs) = (c :: part) :: others := by
  rw [split, if_neg h]
  cases hs : split separator cs with
  | nil =>
    exfalso
    cases cs with
    | nil => cases hs
    | cons d ds =>
      rw [split] at hs
      split at hs
      · cases hs
      · split at hs <;> cases hs
  | cons part others => exact ⟨part, others, rfl, rfl⟩

theorem mem_of_split (separator : Char) {c : Char} {cs : List Char} (h : c ∈ cs) :
    c = separator ∨ ∃ part ∈ split separator cs, c ∈ part := by
  induction cs with
  | nil => cases h
  | cons d ds ih =>
    by_cases hd : d = separator
    · rw [split, if_pos hd]
      rcases List.mem_cons.mp h with rfl | h
      · exact .inl hd
      · rcases ih h with hc | ⟨part, hpart, hc⟩
        · exact .inl hc
        · exact .inr ⟨part, List.mem_cons_of_mem _ hpart, hc⟩
    · obtain ⟨part, others, hs, hcons⟩ := split_cons_other hd ds
      rw [hcons]
      rcases List.mem_cons.mp h with rfl | h
      · exact .inr ⟨c :: part, List.mem_cons_self, List.mem_cons_self⟩
      · rcases ih h with hc | ⟨part', hpart', hc⟩
        · exact .inl hc
        · rw [hs] at hpart'
          rcases List.mem_cons.mp hpart' with rfl | hpart'
          · exact .inr ⟨d :: part', List.mem_cons_self, List.mem_cons_of_mem d hc⟩
          · exact .inr ⟨part', List.mem_cons_of_mem _ hpart', hc⟩

theorem length_split (separator : Char) (cs : List Char) :
    (split separator cs).length = cs.count separator + 1 := by
  induction cs with
  | nil => rfl
  | cons d ds ih =>
    by_cases hd : d = separator
    · rw [split, if_pos hd, List.length_cons, ih, hd, List.count_cons_self]
    · obtain ⟨part, others, hs, hcons⟩ := split_cons_other hd ds
      rw [hs, List.length_cons] at ih
      rw [hcons, List.length_cons, ih, List.count_cons_of_ne hd]

end Text

namespace Uri

/-- A text without user, brackets and escapes. -/
def IsBare (cs : List Char) : Prop :=
  ∀ c ∈ cs, c ≠ '[' ∧ c ≠ ']' ∧ c ≠ '@' ∧ c ≠ '%'

instance : DecidablePred IsBare := fun cs =>
  decidable_of_iff (cs.all (fun c => c ≠ '[' ∧ c ≠ ']' ∧ c ≠ '@' ∧ c ≠ '%') = true)
    (by simp only [List.all_eq_true, decide_eq_true_eq, IsBare])

theorem scanChar_of_bare {s t : AuthorityScan} {c : Char}
    (hc : c ≠ '[' ∧ c ≠ ']' ∧ c ≠ '@' ∧ c ≠ '%') :
    scanChar s c = .ok t ↔ isAuthorityChar c = true ∧ (c = ':' → s.colons < 8) ∧
      t = { s with atEnd := false, colons := s.colons + [c].count ':' } := by
  obtain ⟨hopen, hclose, hat, hpercent⟩ := hc
  unfold scanChar
  dsimp only
  by_cases hcolon : c = ':'
  · subst hcolon
    rw [if_pos rfl]
    have hchar : isAuthorityChar ':' = true := by decide
    by_cases hmany : 8 ≤ s.colons
    · simp [hmany, hchar]
    · simp [hmany, hchar, eq_comm]
      omega
  · have hcount : [c].count ':' = 0 := by simp [hcolon]
    rw [if_neg hcolon, if_neg hopen, if_neg hclose, if_neg hat, if_neg hpercent, hcount]
    split
    · rename_i hchar
      simp [hchar, hcolon, eq_comm]
    · rename_i hchar
      simp [hchar]

theorem colons_cons (c : Char) (cs : List Char) :
    (c :: cs).count ':' = [c].count ':' + cs.count ':' := by
  rw [← List.singleton_append, List.count_append]

theorem not_mark_of_isAuthorityChar {c : Char} (h : isAuthorityChar c = true) :
    ¬ (c = '/' ∨ c = '?' ∨ c = '#') := by
  rintro (rfl | rfl | rfl) <;> revert h <;> decide

/-- A bare text that is read to its end has allowed characters only, and all its colons count. -/
theorem chars_of_scan {s t : AuthorityScan} {cs : List Char} (hb : IsBare cs)
    (h : scanAuthority s cs = .ok (t, false)) :
    (∀ c ∈ cs, isAuthorityChar c = true) ∧ t.colons = s.colons + cs.count ':' := by
  induction cs generalizing s with
  | nil =>
    obtain ⟨rfl, -⟩ := Prod.mk.inj (Except.ok.inj h)
    exact ⟨fun c hc => absurd hc List.not_mem_nil, rfl⟩
  | cons c cs ih =>
    obtain ⟨hc, hcs⟩ := List.forall_mem_cons.mp hb
    unfold scanAuthority at h
    split at h
    · cases h
    · cases hs : scanChar s c with
      | error e => simp [hs, Except.bind] at h
      | ok u =>
        rw [hs] at h
        obtain ⟨hchar, -, rfl⟩ := (scanChar_of_bare hc).mp hs
        obtain ⟨hchars, hcolons⟩ := ih hcs h
        refine ⟨List.forall_mem_cons.mpr ⟨hchar, hchars⟩, hcolons.trans ?_⟩
        rw [colons_cons c cs, Nat.add_assoc]

theorem scan_of_chars {s : AuthorityScan} {cs : List Char} (hb : IsBare cs)
    (hchars : ∀ c ∈ cs, isAuthorityChar c = true) (hend : s.atEnd = false)
    (hcolons : s.colons + cs.count ':' ≤ 8) :
    scanAuthority s cs = .ok ({ s with colons := s.colons + cs.count ':' }, false) := by
  induction cs generalizing s with
  | nil => rfl
  | cons c cs ih =>
    obtain ⟨hc, hcs⟩ := List.forall_mem_cons.mp hb
    obtain ⟨hchar, hrest⟩ := List.forall_mem_cons.mp hchars
    rw [colons_cons c cs, ← Nat.add_assoc] at hcolons
    have hfew : c = ':' → s.colons < 8 := by
      rintro rfl
      rw [List.count_singleton_self] at hcolons
      omega
    have hs := (scanChar_of_bare (s := s) hc).mpr ⟨hchar, hfew, rfl⟩
    rw [scanAuthority, if_neg (not_mark_of_isAuthorityChar hchar), hs]
    refine (ih hcs hrest rfl hcolons).trans ?_
    rw [colons_cons c cs, ← Nat.add_assoc, hend]

/-- A bare text is an authority if it has allowed characters only and no more colons than the one
in front of a port. -/
theorem checkAuthority_of_bare {cs : List Char} (hb : IsBare cs) :
    checkAuthority cs = .ok () ↔
      cs ≠ [] ∧ (∀ c ∈ cs, isAuthorityChar c = true) ∧ cs.count ':' ≤ 1 := by
  unfold checkAuthority
  by_cases hnil : cs = []
  · simp [hnil]
  rw [if_neg hnil]
  constructor
  · intro h
    cases hs : scanAuthority {} cs with
    | error e => simp [hs, bind, Except.bind] at h
    | ok x =>
      obtain ⟨t, cut⟩ := x
      simp only [hs, bind, Except.bind] at h
      split at h
      · cases h
      · rename_i hfine
        split at h
        · cases h
        · rename_i hcut
          obtain rfl : cut = false := by simpa using hcut
          obtain ⟨hchars, hcolons⟩ := chars_of_scan hb hs
          refine ⟨hnil, hchars, ?_⟩
          simp only [Bool.or_eq_true, decide_eq_true_eq, not_or] at hfine
          have hcolons' : t.colons = cs.count ':' := hcolons.trans (Nat.zero_add _)
          omega
  · rintro ⟨-, hchars, hcolons⟩
    have hs := scan_of_chars (s := {}) hb hchars rfl (by simp; omega)
    simp [hs, bind, Except.bind, hcolons]

end Uri

namespace ServerName

def IsHostChar (c : Char) : Prop :=
  isLabelChar c = true ∨ c = '.'

theorem isHostChar_of_hex {c : Char} (h : Hex.isDigit c = true) : IsHostChar c := by
  left
  have := Hex.toNat_of_isDigit h
  have hletter : c.isAlpha = (decide (65 ≤ c.val ∧ c.val ≤ 90) ||
      (decide (97 ≤ c.val) && decide (c.val ≤ 122))) := rfl
  simp only [isLabelChar, Char.isAlphanum, hletter, Char.isDigit, Bool.or_eq_true,
    Bool.and_eq_true, decide_eq_true_eq, UInt32.le_iff_toNat_le, ge_iff_le]
  change (((65 ≤ c.toNat ∧ c.toNat ≤ 90 ∨ 97 ≤ c.toNat ∧ c.toNat ≤ 122) ∨
    48 ≤ c.toNat ∧ c.toNat ≤ 57) ∨ _) ∨ _
  omega

theorem isHostChar_of_digit {c : Char} (h : c.isDigit = true) : IsHostChar c :=
  isHostChar_of_hex (by rw [Hex.isDigit, h]; rfl)

theorem IsHostChar.ne_colon {c : Char} (h : IsHostChar c) : c ≠ ':' := by
  rintro rfl
  revert h
  unfold IsHostChar
  decide

/-- No name has a mark that would make it anything but the host of an authority. -/
theorem fair_of_hostChar {c : Char} (h : IsHostChar c ∨ c = ':') :
    Uri.isAuthorityChar c = true ∧ c ≠ '[' ∧ c ≠ ']' ∧ c ≠ '@' ∧ c ≠ '%' := by
  have hne (m : Char) (hmark : ¬ ((isLabelChar m = true ∨ m = '.') ∨ m = ':')) : c ≠ m :=
    fun he => hmark (he ▸ h)
  refine ⟨?_, hne '[' (by decide), hne ']' (by decide), hne '@' (by decide), hne '%' (by decide)⟩
  rcases h with (h | rfl) | rfl
  · unfold isLabelChar at h
    rw [Bool.or_eq_true, Bool.or_eq_true] at h
    unfold Uri.isAuthorityChar
    rcases h with (h | h) | h
    · rw [h, Bool.true_or]
    · obtain rfl := beq_iff_eq.mp h
      decide
    · obtain rfl := beq_iff_eq.mp h
      decide
  · decide
  · decide

theorem chars_of_domainName {cs : List Char} (h : isDomainName cs = true) :
    cs ≠ [] ∧ ∀ c ∈ cs, IsHostChar c := by
  unfold isDomainName at h
  obtain ⟨h, hlast⟩ := Bool.and_eq_true_iff.mp h
  obtain ⟨-, hlabels⟩ := Bool.and_eq_true_iff.mp h
  refine ⟨?_, fun c hc => ?_⟩
  · rintro rfl
    revert hlast
    decide
  rcases mem_of_split '.' hc with hdot | ⟨part, hpart, hmem⟩
  · exact .inr hdot
  have hlabel : part ∈ labels cs := by
    unfold labels
    dsimp only
    split
    · rename_i hend
      have hne : split '.' cs ≠ [] := List.ne_nil_of_mem hpart
      rw [← List.dropLast_concat_getLast hne] at hpart
      rcases List.mem_append.mp hpart with hpart | hpart
      · exact hpart
      · rw [List.getLast?_eq_some_getLast hne] at hend
        rw [List.mem_singleton.mp hpart, Option.some.inj hend] at hmem
        cases hmem
    · exact hpart
  have hall := List.all_eq_true.mp hlabels part hlabel
  simp only [isLabel, Bool.and_eq_true] at hall
  exact .inl (List.all_eq_true.mp hall.1.1.2 c hmem)

theorem chars_of_version4 {cs : List Char} (h : isVersion4 cs = true) :
    cs ≠ [] ∧ ∀ c ∈ cs, IsHostChar c := by
  unfold isVersion4 at h
  obtain ⟨hlength, hoctets⟩ := Bool.and_eq_true_iff.mp h
  refine ⟨?_, fun c hc => ?_⟩
  · rintro rfl
    revert hlength
    decide
  rcases mem_of_split '.' hc with hdot | ⟨part, hpart, hmem⟩
  · exact .inr hdot
  have hall := List.all_eq_true.mp hoctets part hpart
  simp only [isOctet, Bool.and_eq_true] at hall
  exact isHostChar_of_digit (List.all_eq_true.mp hall.1.1.2 c hmem)

theorem chars_of_group {cs : List Char} (h : isGroup cs = true) : ∀ c ∈ cs, IsHostChar c := by
  simp only [isGroup, Bool.and_eq_true] at h
  exact fun c hc => isHostChar_of_hex (List.all_eq_true.mp h.2 c hc)

/-- Of the parts between colons only the last can stand for two groups. -/
theorem parts_of_groups? {parts : List (List Char)} {k : Nat} (h : groups? parts = some k) :
    k ≤ parts.length + 1 ∧ ∀ part ∈ parts, ∀ c ∈ part, IsHostChar c := by
  induction parts generalizing k with
  | nil =>
    obtain rfl := Option.some.inj h
    exact ⟨Nat.zero_le _, fun part hpart => absurd hpart List.not_mem_nil⟩
  | cons part rest ih =>
    cases rest with
    | nil =>
      rw [groups?] at h
      split at h
      · rename_i hgroup
        obtain rfl := Option.some.inj h
        exact ⟨by simp, List.forall_mem_singleton.mpr (chars_of_group hgroup)⟩
      · split at h
        · rename_i hversion
          obtain rfl := Option.some.inj h
          exact ⟨by simp, List.forall_mem_singleton.mpr (chars_of_version4 hversion).2⟩
        · cases h
    | cons next others =>
      simp only [groups?] at h
      split at h
      · rename_i hgroup
        obtain ⟨m, hm, rfl⟩ := Option.map_eq_some_iff.mp h
        obtain ⟨hle, hchars⟩ := ih hm
        refine ⟨?_, List.forall_mem_cons.mpr ⟨chars_of_group hgroup, hchars⟩⟩
        rw [List.length_cons]
        omega
      · cases h

theorem chars_of_parts {separator : Char} {cs : List Char}
    (h : ∀ part ∈ split separator cs, ∀ c ∈ part, IsHostChar c) :
    ∀ c ∈ cs, IsHostChar c ∨ c = separator := by
  intro c hc
  rcases mem_of_split separator hc with hseparator | ⟨part, hpart, hmem⟩
  · exact .inr hseparator
  · exact .inl (h part hpart c hmem)

theorem chars_of_groupsOf? {cs : List Char} {k : Nat} (h : groupsOf? cs = some k) :
    ∀ c ∈ cs, IsHostChar c ∨ c = ':' := by
  unfold groupsOf? at h
  split at h
  · rename_i hnil
    subst hnil
    exact fun c hc => absurd hc List.not_mem_nil
  · exact chars_of_parts (parts_of_groups? h).2

theorem eq_of_splitGap {cs before behind : List Char} (h : splitGap cs = some (before, behind)) :
    cs = before ++ ':' :: ':' :: behind := by
  induction cs using splitGap.induct generalizing before behind with
  | case1 rest =>
    obtain ⟨rfl, rfl⟩ := Prod.mk.inj (Option.some.inj h)
    rfl
  | case2 c rest hgap ih =>
    rw [splitGap] at h
    · obtain ⟨⟨before', behind'⟩, hrest, he⟩ := Option.map_eq_some_iff.mp h
      obtain ⟨rfl, rfl⟩ := Prod.mk.inj he
      rw [ih hrest]
      rfl
    · exact hgap
  | case3 => cases h

theorem chars_of_version6 {cs : List Char} (h : isVersion6 cs = true) :
    2 ≤ cs.count ':' ∧ ∀ c ∈ cs, IsHostChar c ∨ c = ':' := by
  -- Without a gap there are parts enough for eight groups; a gap has two colons of its own.
  unfold isVersion6 at h
  split at h
  · have hgroups := beq_iff_eq.mp h
    obtain ⟨hle, hchars⟩ := parts_of_groups? hgroups
    rw [length_split] at hle
    exact ⟨by omega, chars_of_parts hchars⟩
  · rename_i before behind hgap
    split at h
    · rename_i m n hbefore hbehind
      rw [eq_of_splitGap hgap]
      refine ⟨?_, List.forall_mem_append.mpr ⟨chars_of_groupsOf? hbefore, ?_⟩⟩
      · rw [List.count_append, List.count_cons_self, List.count_cons_self]
        omega
      · exact List.forall_mem_cons.mpr ⟨.inr rfl,
          List.forall_mem_cons.mpr ⟨.inr rfl, chars_of_groupsOf? hbehind⟩⟩
    · cases h

end ServerName

namespace Uri

variable {scheme authority : List Char}

theorem fits_iff : Fits scheme authority ↔
    checkScheme scheme = .ok () ∧ checkAuthority authority = .ok () := by
  refine ⟨Fits.checks, fun ⟨hs, ha⟩ => ⟨[], ⟨scheme, authority, [], none⟩, ?_⟩⟩
  simp only [build, hs, ha, bind, Except.bind]
  rfl

theorem utf8Length_of_ascii {cs : List Char} (h : ∀ c ∈ cs, c.toNat < 128) :
    utf8Length cs = cs.length := by
  induction cs with
  | nil => rfl
  | cons c cs ih =>
    obtain ⟨hc, hcs⟩ := List.forall_mem_cons.mp h
    have hsize : c.utf8Size = 1 := Char.utf8Size_eq_one_iff.mpr (by
      rw [UInt32.le_iff_toNat_le]
      exact Nat.le_of_lt_succ hc)
    rw [utf8Length, hsize, ih hcs, List.length_cons, Nat.add_comm]

end Uri

/-- A notification for a device in hexadecimal digits, with texts that can be read in a header:
visible ASCII, spaces and tabs. -/
structure Notification.IsLegible (n : Notification) : Prop where
  token : ∀ c ∈ n.token.toList, Hex.isDigit c = true
  topic : Headers.isReadable n.topic = true
  collapseId : ∀ id ∈ n.collapseId, Headers.isReadable id = true

instance : DecidablePred Notification.IsLegible := fun n =>
  decidable_of_iff (n.token.toList.all Hex.isDigit = true ∧ Headers.isReadable n.topic = true ∧
      n.collapseId.all Headers.isReadable = true)
    ⟨fun h => ⟨List.all_eq_true.mp h.1, h.2.1, (Option.all_eq_true _ _).mp h.2.2⟩,
      fun h => ⟨List.all_eq_true.mpr h.token, h.topic, (Option.all_eq_true _ _).mpr h.collapseId⟩⟩

namespace Request

/-- A legible notification goes out wherever the address is one, if its path is not too long. -/
theorem build_iff_of_legible {scheme authority : String} {n : Notification} (hn : n.IsLegible) :
    (∃ r, build scheme authority n none = .ok r) ↔
      Uri.Fits scheme.toList authority.toList ∧ n.token.length ≤ 65524 := by
  have hpath := Protocol.inRanges_devicePath hn.token
  have hlength : Uri.utf8Length (Protocol.devicePath n.token).toList = 10 + n.token.length := by
    rw [← Protocol.length_devicePath, Uri.utf8Length_of_ascii]
    rw [Protocol.devicePath, String.toList_append]
    have hstart : Protocol.devicePathStart.toList.all (fun c => c.toNat < 128) = true := by decide
    refine List.forall_mem_append.mpr ⟨fun c hc => ?_, fun c hc => ?_⟩
    · exact of_decide_eq_true (List.all_eq_true.mp hstart c hc)
    · have := Hex.toNat_of_isDigit (hn.token c hc)
      omega
  constructor
  · rintro ⟨r, hr⟩
    obtain ⟨huri, -⟩ := build_eq_ok hr
    obtain ⟨-, -, hle, -⟩ := Uri.build_eq_ok huri
    rw [hlength, Uri.maxLength] at hle
    exact ⟨⟨_, r.uri, huri⟩, by omega⟩
  · rintro ⟨hfits, hle⟩
    have huri := Uri.build_of_path hfits hpath (by rw [hlength, Uri.maxLength]; omega)
    have hall : (headerList n none).all (fun h => h.2.toList.all Headers.carries) = true :=
      List.all_eq_true.mpr fun e he => Headers.all_carries_of_isReadable
        (isReadable_of_mem_headerList hn.topic hn.collapseId (by simp) e he)
    refine ⟨⟨"POST", ⟨scheme.toList, authority.toList, (Protocol.devicePath n.token).toList, none⟩,
      ⟨headerList n none⟩⟩, ?_⟩
    simp only [build, huri, bind, Except.bind, hall, if_true]

end Request

namespace ClientConfig

variable {c : ClientConfig}

def portSuffix (c : ClientConfig) : List Char :=
  if c.port = standardPort then [] else ':' :: Decimal.digits c.port

theorem toList_authority (c : ClientConfig) :
    c.authority.toList = c.host.toList ++ c.portSuffix := by
  unfold authority portSuffix
  split
  · rw [List.append_nil]
  · rw [String.toList_append, String.toList_append, Decimal.ofNat, String.toList_ofList]
    simp

theorem checkScheme_scheme (c : ClientConfig) : Uri.checkScheme c.scheme.toList = .ok () := by
  unfold scheme
  split
  · rfl
  · rfl

theorem chars_of_portSuffix : ∀ x ∈ c.portSuffix, ServerName.IsHostChar x ∨ x = ':' := by
  unfold portSuffix
  split
  · exact fun x hx => absurd hx List.not_mem_nil
  · exact List.forall_mem_cons.mpr ⟨.inr rfl, fun x hx =>
      .inl (ServerName.isHostChar_of_digit (Decimal.isDigit_of_mem_digits x hx))⟩

theorem count_portSuffix : c.portSuffix.count ':' = if c.port = standardPort then 0 else 1 := by
  unfold portSuffix
  split
  · rfl
  · have hnone : (Decimal.digits c.port).count ':' = 0 := by
      refine List.count_eq_zero.mpr fun hm => ?_
      exact (ServerName.isHostChar_of_digit (Decimal.isDigit_of_mem_digits _ hm)).ne_colon rfl
    rw [List.count_cons_self, hnone]

theorem authority_iff_of_bare (hhost : c.host.toList ≠ []) (hb : Uri.IsBare c.host.toList) :
    Uri.checkAuthority c.authority.toList = .ok () ↔
      (∀ x ∈ c.host.toList, Uri.isAuthorityChar x = true) ∧
        c.host.toList.count ':' + (if c.port = standardPort then 0 else 1) ≤ 1 := by
  have hfair (x : Char) (hx : x ∈ c.portSuffix) :=
    ServerName.fair_of_hostChar (chars_of_portSuffix x hx)
  have hbare : Uri.IsBare c.authority.toList := by
    rw [toList_authority]
    exact List.forall_mem_append.mpr ⟨hb, fun x hx => (hfair x hx).2⟩
  rw [Uri.checkAuthority_of_bare hbare, toList_authority, List.count_append, count_portSuffix,
    List.forall_mem_append]
  constructor
  · rintro ⟨-, ⟨hchars, -⟩, hcount⟩
    exact ⟨hchars, hcount⟩
  · rintro ⟨hchars, hcount⟩
    exact ⟨by simp [hhost], ⟨hchars, fun x hx => (hfair x hx).1⟩, hcount⟩

/-- Of the names that a server can prove to have, all but the addresses of version 6 make an
authority. -/
theorem authority_iff_of_valid (h : ServerName.isValid c.host = true) :
    Uri.checkAuthority c.authority.toList = .ok () ↔
      ServerName.isVersion6 c.host.toList = false := by
  have hbare (hchars : ∀ x ∈ c.host.toList, ServerName.IsHostChar x ∨ x = ':') :
      Uri.IsBare c.host.toList := fun x hx => (ServerName.fair_of_hostChar (hchars x hx)).2
  cases hsix : ServerName.isVersion6 c.host.toList with
  | true =>
    obtain ⟨hcolons, hchars⟩ := ServerName.chars_of_version6 hsix
    have hhost : c.host.toList ≠ [] := by
      intro hnil
      rw [hnil] at hcolons
      cases hcolons
    rw [authority_iff_of_bare hhost (hbare hchars)]
    constructor
    · rintro ⟨-, hcount⟩
      omega
    · intro hf
      cases hf
  | false =>
    have hname : c.host.toList ≠ [] ∧ ∀ x ∈ c.host.toList, ServerName.IsHostChar x := by
      unfold ServerName.isValid at h
      simp only [hsix, Bool.or_false, Bool.or_eq_true] at h
      exact h.elim ServerName.chars_of_domainName ServerName.chars_of_version4
    obtain ⟨hhost, hchars⟩ := hname
    have hcount : c.host.toList.count ':' = 0 :=
      List.count_eq_zero.mpr fun hm => (hchars _ hm).ne_colon rfl
    rw [authority_iff_of_bare hhost (hbare fun x hx => .inl (hchars x hx)), hcount]
    refine iff_of_true ⟨fun x hx => (ServerName.fair_of_hostChar (.inl (hchars x hx))).1, ?_⟩ rfl
    split
    · exact Nat.zero_le 1
    · exact Nat.le_refl 1

theorem host_of_validate (h : c.validate = .ok ()) : c.host.toList ≠ [] := by
  intro hnil
  rw [validate, hnil, if_pos (show trim [] = [] from rfl)] at h
  cases h

theorem name_of_dialer {d : Dialer} (h : Dialer.ofConfig c = .ok d)
    (htls : c.security.isPlaintext = false) : ServerName.isValid c.host = true := by
  unfold Dialer.ofConfig at h
  split at h
  · rename_i hp
    rw [htls, Bool.false_or] at hp
    exact (Bool.and_eq_true_iff.mp hp).2
  · cases h

/-- An accepted configuration can send a legible notification if and only if host and port make an
authority and the path is not too long; otherwise it can send nothing at all. With TLS that is so
for every host but an address of version 6. Without TLS it is so for a host without user, brackets
and escapes exactly if the host has allowed characters only, and at most one colon with that of the
port. -/
theorem sends_iff (c : ClientConfig) (d : Dialer) (n : Notification)
    (hvalid : c.validate = .ok ()) (hdialer : Dialer.ofConfig c = .ok d) (hn : n.IsLegible) :
    ((∃ r, Request.build c.scheme c.authority n none = .ok r) ↔
      Uri.checkAuthority c.authority.toList = .ok () ∧ n.token.length ≤ 65524) ∧
    (Uri.checkAuthority c.authority.toList ≠ .ok () →
      ∀ m value r, Request.build c.scheme c.authority m value ≠ .ok r) ∧
    (c.security.isPlaintext = false → (Uri.checkAuthority c.authority.toList = .ok () ↔
      ServerName.isVersion6 c.host.toList = false)) ∧
    (Uri.IsBare c.host.toList → (Uri.checkAuthority c.authority.toList = .ok () ↔
      (∀ x ∈ c.host.toList, Uri.isAuthorityChar x = true) ∧
        c.host.toList.count ':' + (if c.port = standardPort then 0 else 1) ≤ 1)) := by
  refine ⟨?_, ?_, fun htls => authority_iff_of_valid (name_of_dialer hdialer htls),
    authority_iff_of_bare (host_of_validate hvalid)⟩
  · rw [Request.build_iff_of_legible hn, Uri.fits_iff, checkScheme_scheme]
    simp
  · intro hno m value r hr
    obtain ⟨huri, -⟩ := Request.build_eq_ok hr
    obtain ⟨-, hauthority, -⟩ := Uri.build_eq_ok huri
    exact hno hauthority

/-- A gateway on this machine, without TLS and on a port of its own. -/
theorem sends_to_localhost :
    let c : ClientConfig := { standard "localhost" .none with port := 2197, security := .plaintext }
    let n : Notification := ⟨"00fc13ad", "com.example.app", "\x7b\x7d", none, .immediate, none,
      some "7", none⟩
    c.validate = .ok () ∧ Dialer.ofConfig c = .ok ⟨c.gateway, c.connectTimeout⟩ ∧ n.IsLegible ∧
      ∃ r, Request.build c.scheme c.authority n none = .ok r := by
  intro c n
  have hvalid : c.validate = .ok () := by decide +kernel
  have hdialer : Dialer.ofConfig c = .ok ⟨c.gateway, c.connectTimeout⟩ := rfl
  have hn : n.IsLegible := by decide +kernel
  obtain ⟨hsends, -, -, hbare⟩ := sends_iff c _ n hvalid hdialer hn
  have hchars : c.host.toList.all Uri.isAuthorityChar = true := by decide +kernel
  have hauthority := (hbare (by decide +kernel)).mpr
    ⟨List.all_eq_true.mp hchars, by decide +kernel⟩
  exact ⟨hvalid, hdialer, hn, hsends.mpr ⟨hauthority, by decide +kernel⟩⟩

/-- A configuration for a gateway that is named by an address of version 6 is accepted, and nothing
can be sent with it. -/
theorem accepted_not_always_sends :
    ¬ ∀ (c : ClientConfig) (d : Dialer) (n : Notification), c.validate = .ok () →
      Dialer.ofConfig c = .ok d → n.IsLegible →
      ∃ r, Request.build c.scheme c.authority n none = .ok r := by
  intro h
  let c : ClientConfig := standard "::1" .none
  let n : Notification := ⟨"00fc13ad", "com.example.app", "\x7b\x7d", none, .immediate, none, none,
    none⟩
  have hdialer : Dialer.ofConfig c = .ok ⟨c.gateway, c.connectTimeout⟩ :=
    if_pos (by decide +kernel)
  obtain ⟨r, hr⟩ := h c _ n (by decide +kernel) hdialer (by decide +kernel)
  have hno : (Request.build c.scheme c.authority n none).toOption = none := by decide +kernel
  rw [hr] at hno
  cases hno

end ClientConfig

end PushDelivery
