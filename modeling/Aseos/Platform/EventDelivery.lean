import Aseos.Contracts.DecimalRuntime
import Aseos.Platform.EventChunking
import Aseos.Platform.EventPublication

namespace Aseos

namespace EventStream

open Utf8 JsonText Json JsValue

section Members

theorem commaSeparated_length {parts : List JsString} (h : parts ≠ []) :
    (commaSeparated parts).length + 1 = (parts.map fun p => p.length + 1).sum := by
  induction parts with
  | nil => exact absurd rfl h
  | cons p parts ih =>
    by_cases hlast : parts = []
    · subst hlast
      simp [commaSeparated_single]
    · rw [commaSeparated_cons p hlast, List.map_cons, List.sum_cons, ← ih hlast, List.length_append,
        List.length_cons]
      omega

theorem perm_of_commaSeparated {keys expected : List JsString} (hexpected : expected.Nodup)
    (hne : expected ≠ []) (hsubset : expected ⊆ keys)
    (h : commaSeparated (JsString.sort keys) = commaSeparated (JsString.sort expected)) :
    keys.Perm expected := by
  obtain ⟨part, hpart, hsublist⟩ := hexpected.subperm hsubset
  obtain ⟨rest, hrest⟩ := hsublist.exists_perm_append
  replace hrest := hrest.trans (hpart.append_right rest)
  have hkeys : keys ≠ [] := fun hnil => hne (List.eq_nil_of_subset_nil (hnil ▸ hsubset))
  have hsorted {parts : List JsString} (hparts : parts ≠ []) : JsString.sort parts ≠ [] :=
    fun hnil => hparts (List.Perm.eq_nil (hnil ▸ (JsString.sort_perm parts).symm))
  have hlength (parts : List JsString) (hparts : parts ≠ []) :
      (commaSeparated (JsString.sort parts)).length + 1 =
        (parts.map fun p => p.length + 1).sum := by
    rw [commaSeparated_length (hsorted hparts)]
    exact ((JsString.sort_perm parts).map _).sum_eq
  have hsum := hlength keys hkeys
  rw [h, hlength expected hne, (hrest.map _).sum_eq, List.map_append, List.sum_append] at hsum
  cases rest with
  | nil => simpa using hrest
  | cons p rest =>
    rw [List.map_cons, List.sum_cons] at hsum
    omega

theorem objectOf_members {entries : List (JsString × JsValue)}
    (h : (entries.map Prod.fst).Nodup) :
    ∃ props : Props, Json.objectOf entries = .object true props ∧
      JsString.sort (Props.keys props) = JsString.sort (entries.map Prod.fst) ∧
      ∀ key, Props.get props key = Props.get (entries.map fun e => (.own e.1, e.2)) key := by
  obtain ⟨props, hprops, hperm⟩ := objectOf_eq h
  have hkeys : Props.keys (entries.map fun e => (Field.own e.1, e.2)) = entries.map Prod.fst := by
    rw [Props.keys, List.filterMap_map]
    exact (congrFun (List.filterMap_eq_map (f := Prod.fst)) entries)
  have hnodup : (Props.ownKeys (entries.map fun e => (Field.own e.1, e.2))).Nodup := by
    have hown : Props.ownKeys (entries.map fun e => (Field.own e.1, e.2)) =
        (entries.map Prod.fst).map PropertyKey.text := by simp [Props.ownKeys, Field.own]
    rw [hown]
    exact h.map fun _ _ => PropertyKey.text.inj
  refine ⟨props, hprops, ?_, fun key => (Props.get_perm hnodup hperm.symm key).symm⟩
  rw [← hkeys]
  exact JsString.sort_eq_of_perm (hperm.filterMap _)

theorem restored_isNone {v : JsValue} : v.restored = none ↔ unwritten v = true := by
  cases v with
  | number n => cases n <;> simp [restored, unwritten]
  | _ => simp [restored, unwritten]

theorem propsRestored_spread (props : Props) :
    propsRestored (Props.spread props) = propsRestored props := by
  induction props with
  | nil => rfl
  | cons p props ih =>
    obtain ⟨⟨key, kind⟩, v⟩ := p
    cases kind with
    | hidden => exact ih
    | data =>
      change propsRestored ((⟨key, .data⟩, v) :: Props.spread props) = _
      rw [propsRestored, propsRestored, ih]
    | accessor =>
      change propsRestored ((⟨key, .data⟩, v) :: Props.spread props) = _
      rw [propsRestored, propsRestored, ih]
      cases key <;> cases v.restored <;> rfl

theorem writtenKeys_cons (field : Field) (v : JsValue) (props : Props) :
    writtenKeys ((field, v) :: props) =
      (if field.kind = .hidden ∨ unwritten v = true then [] else field.name?.toList) ++
        writtenKeys props := by
  obtain ⟨key, kind⟩ := field
  cases kind <;> cases key <;> cases hv : unwritten v <;>
    simp [writtenKeys, Props.entries, Field.name?, hv]

theorem propsRestored_keys (props : Props) :
    (propsRestored props).map Prod.fst = writtenKeys props := by
  induction props with
  | nil => rfl
  | cons p props ih =>
    obtain ⟨⟨key, kind⟩, v⟩ := p
    rw [writtenKeys_cons, propsRestored, ← ih]
    cases hv : v.restored with
    | none =>
      rw [restored_isNone] at hv
      cases kind <;> cases key <;> simp [hv]
    | some w =>
      have hwritten : unwritten v = false := by
        rw [← Bool.not_eq_true, ← restored_isNone, hv]
        simp
      cases kind <;> cases key <;> simp [hwritten, Field.name?]

theorem writtenKeys_subset {props : Props} {key : JsString} (h : key ∈ writtenKeys props) :
    PropertyKey.text key ∈ Props.ownKeys props := by
  induction props with
  | nil => cases h
  | cons p props ih =>
    obtain ⟨⟨name, kind⟩, v⟩ := p
    rw [writtenKeys_cons, List.mem_append] at h
    rcases h with h | h
    · split at h
      · cases h
      · cases name with
        | text name =>
          obtain rfl : key = name := by simpa [Field.name?] using h
          exact List.mem_cons_self
        | symbol id => cases h
    · exact List.mem_cons_of_mem _ (ih h)

theorem writtenKeys_nodup {props : Props} (h : (Props.ownKeys props).Nodup) :
    (writtenKeys props).Nodup := by
  induction props with
  | nil => exact List.nodup_nil
  | cons p props ih =>
    obtain ⟨⟨name, kind⟩, v⟩ := p
    obtain ⟨hnew, htail⟩ := List.nodup_cons.mp h
    rw [writtenKeys_cons]
    split
    · exact ih htail
    · cases name with
      | text name => exact List.nodup_cons.mpr ⟨fun hmem => hnew (writtenKeys_subset hmem), ih htail⟩
      | symbol id => exact ih htail

theorem written_of_mem {props : Props} (h : (Props.ownKeys props).Nodup) {key : JsString}
    (hkey : key ∈ writtenKeys props) : unwritten (Props.get props key) = false := by
  induction props with
  | nil => cases hkey
  | cons p props ih =>
    obtain ⟨⟨name, kind⟩, v⟩ := p
    obtain ⟨hnew, htail⟩ := List.nodup_cons.mp h
    rw [writtenKeys_cons, List.mem_append] at hkey
    rw [Props.get_cons]
    rcases hkey with hkey | hkey
    · split at hkey
      · cases hkey
      · rename_i hwritten
        cases name with
        | text name =>
          obtain rfl : key = name := by simpa [Field.name?] using hkey
          rw [if_pos rfl]
          simpa using (not_or.mp hwritten).2
        | symbol id => cases hkey
    · rw [if_neg]
      · exact ih htail hkey
      · rintro rfl
        exact hnew (writtenKeys_subset hkey)

theorem get_written {props : Props} (h : (Props.ownKeys props).Nodup) (key : JsString) :
    Props.get ((propsRestored props).map fun e => (.own e.1, e.2)) key =
      if key ∈ writtenKeys props then (Props.get props key).restored.getD .undefined
      else .undefined := by
  have hown (name : JsString) : (Field.own name).key = .text name := rfl
  induction props with
  | nil => rfl
  | cons p props ih =>
    obtain ⟨⟨name, kind⟩, v⟩ := p
    obtain ⟨hnew, htail⟩ := List.nodup_cons.mp h
    have hrest := ih htail
    rw [writtenKeys_cons, propsRestored, Props.get_cons]
    cases name with
    | symbol id =>
      cases kind <;> cases v.restored <;> simp [Field.name?, hrest]
    | text name =>
      have hname : name ∉ writtenKeys props := fun hmem => hnew (writtenKeys_subset hmem)
      by_cases hsame : name = key
      · subst hsame
        cases hv : v.restored with
        | none =>
          rw [restored_isNone] at hv
          cases kind <;> simp [hv, hrest, hname]
        | some w =>
          have hwritten : unwritten v = false := by
            rw [← Bool.not_eq_true, ← restored_isNone, hv]
            simp
          cases kind <;> simp [hwritten, hrest, hname, Field.name?, Props.get_cons, hown, hv]
      · have hother : ¬ key = name := fun heq => hsame heq.symm
        cases hv : v.restored with
        | none =>
          rw [restored_isNone] at hv
          cases kind <;> simp [hv, hrest, hsame]
        | some w =>
          have hwritten : unwritten v = false := by
            rw [← Bool.not_eq_true, ← restored_isNone, hv]
            simp
          cases kind <;>
            simp [hwritten, hrest, hsame, hother, Field.name?, Props.get_cons, hown]

end Members

section Validation

theorem isText_iff {v : JsValue} {valid : JsString → Bool} :
    isText v valid = true ↔ ∃ s, v = .string s ∧ valid s = true := by
  cases v <;> simp [isText]

theorem isUndefined_iff {v : JsValue} : isUndefined v = true ↔ v = .undefined := by
  cases v <;> simp [isUndefined]

theorem writtenKeys_spread (props : Props) : writtenKeys (Props.spread props) = writtenKeys props := by
  rw [← propsRestored_keys, ← propsRestored_keys, propsRestored_spread]

theorem isSubjectRef_restored {plain : Bool} {subject : Props}
    (hvalid : validSubjectRef (.object plain subject) = true)
    (hnodup : (Props.ownKeys subject).Nodup) :
    isSubjectRef (Json.objectOf (propsRestored subject)) = true ↔ NamesSubject subject := by
  obtain ⟨props, hprops, hkeys, hget⟩ := objectOf_members (by rw [propsRestored_keys]; exact writtenKeys_nodup hnodup)
  rw [propsRestored_keys] at hkeys
  have hmember (key : JsString) : Props.get props key =
      if key ∈ writtenKeys subject then (Props.get subject key).restored.getD .undefined
      else .undefined := (hget key).trans (get_written hnodup key)
  simp only [validSubjectRef, Bool.and_eq_true, isText_iff, Bool.or_eq_true, isUndefined_iff]
    at hvalid
  obtain ⟨⟨⟨-, type, htype, htypeValid⟩, id, hid, hidValid⟩, hversion⟩ := hvalid
  have htypeGet := hmember (js "subjectType")
  have hidGet := hmember (js "subjectId")
  have hversionGet := hmember (js "subjectVersion")
  rw [htype, restored, Option.getD_some] at htypeGet
  rw [hid, restored, Option.getD_some] at hidGet
  rw [hprops, isSubjectRef]
  have hnames : ([js "subjectType", js "subjectId", js "subjectVersion"] : List JsString).Nodup := by
    decide
  have hexact (expected : List String) : exactKeys props expected = true ↔
      commaSeparated (JsString.sort (writtenKeys subject)) =
        commaSeparated (JsString.sort (expected.map js)) := by
    rw [exactKeys, hkeys, beq_iff_eq]
  simp only [Bool.and_eq_true, hexact]
  constructor
  · rintro ⟨⟨⟨hjoined, htypeText⟩, hidText⟩, hversionText⟩
    have hpresent {key : JsString} {v : JsValue} {valid : JsString → Bool}
        (hv : Props.get props key = if key ∈ writtenKeys subject then v else .undefined)
        (htext : isText (Props.get props key) valid = true) : key ∈ writtenKeys subject := by
      by_contra hkey
      rw [hv, if_neg hkey] at htext
      cases htext
    have htypeKey := hpresent htypeGet htypeText
    have hidKey := hpresent hidGet hidText
    cases hundefined : isUndefined (Props.get props (js "subjectVersion")) with
    | true =>
      rw [hundefined, if_pos rfl] at hjoined
      refine .inl (perm_of_commaSeparated (hnames.sublist (by decide)) (by simp) ?_ hjoined)
      simp [htypeKey, hidKey]
    | false =>
      rw [hundefined, if_neg Bool.false_ne_true] at hjoined
      rw [hundefined, Bool.false_or] at hversionText
      have hversionKey := hpresent hversionGet hversionText
      refine .inr (perm_of_commaSeparated hnames (by simp) ?_ hjoined)
      simp [htypeKey, hidKey, hversionKey]
  · intro hnamed
    have hkey {key : JsString} (hperm : key ∈ [js "subjectType", js "subjectId"]) :
        key ∈ writtenKeys subject := by
      rcases hnamed with hnamed | hnamed
      · exact hnamed.mem_iff.mpr hperm
      · exact hnamed.mem_iff.mpr (List.mem_append_left [js "subjectVersion"] hperm)
    rw [htypeGet, if_pos (hkey (by simp)), hidGet, if_pos (hkey (by simp))]
    have hidText : isText (.string id) (fun s => 1 ≤ s.length && s.length ≤ 256) = true := by
      simpa [isText] using hidValid
    rcases hnamed with hnamed | hnamed
    · have hnone : js "subjectVersion" ∉ writtenKeys subject := by
        rw [hnamed.mem_iff]
        decide
      rw [hversionGet, if_neg hnone]
      exact ⟨⟨⟨congrArg commaSeparated (JsString.sort_eq_of_perm hnamed), htypeValid⟩, hidText⟩, rfl⟩
    · have hsome : js "subjectVersion" ∈ writtenKeys subject := hnamed.mem_iff.mpr (by simp)
      have hwritten := written_of_mem hnodup hsome
      rcases hversion with hversion | ⟨version, hversion, hvalid⟩
      · rw [hversion] at hwritten
        cases hwritten
      · rw [hversionGet, if_pos hsome, hversion]
        exact ⟨⟨⟨congrArg commaSeparated (JsString.sort_eq_of_perm hnamed), htypeValid⟩, hidText⟩, by
          simpa [isText, isUndefined, restored] using hvalid⟩

theorem wellFormed_property {v : JsValue} (h : v.WellFormed) (key : JsString) :
    (v.property key).WellFormed := by
  cases v with
  | object plain props =>
    rw [property, Props.get]
    cases hfind : props.find? (fun p => p.1.key = .text key) with
    | none => exact trivial
    | some p =>
      rw [WellFormed, propsWellFormed_iff] at h
      exact h.2 p (List.mem_of_find?_eq_some hfind)
  | _ => exact trivial

structure Checked (n : ControlNotification) (plain : Bool) (subject : Props) : Prop where
  valid : validSubjectRef (.object plain subject) = true
  nodup : (Props.ownKeys subject).Nodup
  copied : n.subjectRef = Props.spread subject
  version : nonNegativeInteger (.number n.projectionVersion) = true
  kind : n.kind ∈ notificationKinds
  uri : (js "/v1/").isPrefixOf n.resourceUri = true ∧ n.resourceUri.length ≤ 1024
  id : Pattern.uuidV7.test n.notificationId = true
  date : isRfc3339DateTime n.occurredAt = true

theorem Published.checked {n : ControlNotification} (h : Published n) :
    ∃ plain subject, Checked n plain subject := by
  obtain ⟨candidate, hwellFormed, hpublish⟩ := h.accepted
  obtain ⟨now, random, hid⟩ := h.created
  obtain ⟨instant, hdate⟩ := h.dated
  have hrefs := wellFormed_property hwellFormed (js "subjectRef")
  simp only [publishNotification, Bool.false_eq_true, if_false] at hpublish
  split at hpublish
  · rename_i version plain subject kind uri _ hsubject _ _
    split at hpublish
    · rename_i hvalid
      have hform := Except.ok.inj hpublish
      simp only [Bool.and_eq_true, decide_eq_true_eq, List.elem_iff] at hvalid
      obtain ⟨⟨⟨⟨hversion, hsubjectRef⟩, hkind⟩, huri⟩, hlength⟩ := hvalid
      rw [hsubject, WellFormed] at hrefs
      refine ⟨plain, subject, hsubjectRef, hrefs.1, ?_, ?_, ?_, ?_, ?_, ?_⟩
      · rw [← hform]
      · rw [← hform]
        exact hversion
      · rw [← hform]
        exact hkind
      · rw [← hform]
        exact ⟨huri, hlength⟩
      · exact Identity.createUuidV7_matches hid
      · rw [isRfc3339DateTime, ← hdate, DateTime.rfc3339DateTime_toISOString]
        exact DateTime.calendarValid_utc instant
    · cases hpublish
  · cases hpublish

def received (n : ControlNotification) (version : JsNumber) : List (JsString × JsValue) :=
  [(js "schemaVersion", .string (js "1.0.0")), (js "notificationId", .string n.notificationId),
    (js "kind", .string n.kind), (js "subjectRef", Json.objectOf (propsRestored n.subjectRef)),
    (js "projectionVersion", .number version), (js "occurredAt", .string n.occurredAt),
    (js "resourceUri", .string n.resourceUri)]

theorem value_restored {n : ControlNotification}
    (h : nonNegativeInteger (.number n.projectionVersion) = true) :
    ∃ version, n.value.restored = some (Json.objectOf (received n version)) ∧
      nonNegativeInteger (.number version) = true := by
  cases hversion : n.projectionVersion with
  | finite x =>
    rw [hversion] at h
    refine ⟨.finite x.unsigned, ?_, h⟩
    rw [ControlNotification.value, hversion]
    rfl
  | _ =>
    rw [hversion] at h
    cases h

def receivedKeys : List JsString :=
  [js "schemaVersion", js "notificationId", js "kind", js "subjectRef", js "projectionVersion",
    js "occurredAt", js "resourceUri"]

theorem received_members (n : ControlNotification) (version : JsNumber) :
    ∃ props : Props, Json.objectOf (received n version) = .object true props ∧
      (∀ expected : List String, (expected.map js).Perm receivedKeys →
        exactKeys props expected = true) ∧
      ∀ key, Props.get props key =
        Props.get ((received n version).map fun e => (.own e.1, e.2)) key := by
  have hnodup : receivedKeys.Nodup := by decide
  obtain ⟨props, hprops, hkeys, hget⟩ := @objectOf_members (received n version) hnodup
  change _ = JsString.sort receivedKeys at hkeys
  refine ⟨props, hprops, fun expected hperm => ?_, hget⟩
  rw [exactKeys, hkeys, JsString.sort_eq_of_perm hperm, beq_self_eq_true]

theorem isNotification_received {n : ControlNotification} {plain : Bool} {subject : Props}
    (h : Checked n plain subject) {version : JsNumber}
    (hversion : nonNegativeInteger (.number version) = true) (host : Host) :
    isNotification host (Json.objectOf (received n version)) = true ↔
      NamesSubject n.subjectRef := by
  obtain ⟨props, hprops, hkeys, hget⟩ := received_members n version
  have hschema : Props.get props (js "schemaVersion") = .string (js "1.0.0") := (hget _).trans rfl
  have hid : Props.get props (js "notificationId") = .string n.notificationId := (hget _).trans rfl
  have hkind : Props.get props (js "kind") = .string n.kind := (hget _).trans rfl
  have hsubject : Props.get props (js "subjectRef") =
      Json.objectOf (propsRestored n.subjectRef) := (hget _).trans rfl
  have hprojection : Props.get props (js "projectionVersion") = .number version :=
    (hget _).trans rfl
  have hdate : Props.get props (js "occurredAt") = .string n.occurredAt := (hget _).trans rfl
  have huri : Props.get props (js "resourceUri") = .string n.resourceUri := (hget _).trans rfl
  have hnames := isSubjectRef_restored h.valid h.nodup
  rw [← propsRestored_spread, ← h.copied] at hnames
  have hkindText : notificationKinds.elem ((JsValue.string n.kind).toText host) = true :=
    List.elem_iff.mpr h.kind
  have hexact : exactKeys props ["schemaVersion", "notificationId", "subjectRef",
      "projectionVersion", "kind", "occurredAt", "resourceUri"] = true :=
    hkeys _ (by decide)
  rw [hprops, isNotification, hschema, hid, hkind, hsubject, hprojection, hdate, huri, hkindText,
    hexact, hversion]
  have hwritten : NamesSubject n.subjectRef ↔ NamesSubject subject := by
    rw [NamesSubject, h.copied, writtenKeys_spread, NamesSubject]
  rw [hwritten, ← hnames]
  simp [isText, h.id, h.date, h.uri]

end Validation

section Lines

def joined (lines : List Text) : Text := ['\n'].intercalate lines

def IsLine (line : Text) : Prop := '\n' ∉ line ∧ line ≠ []

theorem splitFrames_line {line s frame rest : Text} {frames : List Text} (hline : '\n' ∉ line)
    (h : splitFrames s = (frame :: frames, rest)) :
    splitFrames (line ++ s) = ((line ++ frame) :: frames, rest) := by
  induction line with
  | nil => exact h
  | cons c line ih =>
    rw [List.mem_cons, not_or] at hline
    exact splitFrames_some (fun _ hc _ => hline.1 hc.symm) (ih hline.2)

theorem joined_cons (line next : Text) (lines : List Text) :
    joined (line :: next :: lines) = line ++ '\n' :: joined (next :: lines) := rfl

theorem joined_single (line : Text) : joined [line] = line := by simp [joined]

theorem joined_head {line : Text} (h : line ≠ []) (lines : List Text) :
    (joined (line :: lines)).head? = line.head? := by
  obtain ⟨c, rest, rfl⟩ := List.exists_cons_of_ne_nil h
  cases lines with
  | nil => rw [joined_single]
  | cons next lines => rfl

theorem splitFrames_joined {lines : List Text} (hne : lines ≠ [])
    (hlines : ∀ line ∈ lines, IsLine line) (s : Text) :
    splitFrames (joined lines ++ '\n' :: '\n' :: s) =
      (joined lines :: (splitFrames s).1, (splitFrames s).2) := by
  induction lines with
  | nil => exact absurd rfl hne
  | cons line lines ih =>
    obtain ⟨hline, hrest⟩ := List.forall_mem_cons.mp hlines
    cases lines with
    | nil =>
      have hsplit := splitFrames_line hline.1 (splitFrames_blank s)
      rwa [List.append_nil, ← joined_single line] at hsplit
    | cons next lines =>
      obtain ⟨hnext, -⟩ := List.forall_mem_cons.mp hrest
      rw [joined_cons, List.append_assoc, List.cons_append]
      refine splitFrames_line hline.1 (splitFrames_some ?_ (ih (by simp) hrest))
      -- The next line has a first character and it is no line feed.
      rintro t - ht
      have hhead := joined_head hnext.2 lines
      obtain ⟨c, rest, rfl⟩ := List.exists_cons_of_ne_nil hnext.2
      cases hjoined : joined ((c :: rest) :: lines) with
      | nil =>
        rw [hjoined] at hhead
        cases hhead
      | cons d text =>
        rw [hjoined, List.head?_cons, List.head?_cons, Option.some.injEq] at hhead
        rw [hjoined, List.cons_append, hhead] at ht
        exact hnext.1 ((List.cons.inj ht).1 ▸ List.mem_cons_self)

theorem field_joined {lines : List Text} (hne : lines ≠ []) (hlines : ∀ line ∈ lines, IsLine line)
    (name : String) :
    field name (joined lines) =
      (lines.find? fun line => name.toList.isPrefixOf line).map (·.drop name.length) := by
  rw [field, joined, List.splitOn_intercalate '\n' (fun line hline => (hlines line hline).1) hne]

end Lines

section Frames

variable (runtime : JsonRuntime)

def SseFrame.lines : SseFrame → List Text
  | .notification n =>
      ["id: ".toList ++ n.notificationId.chars, "event: ".toList ++ n.kind.chars,
        "data: ".toList ++ ((Json.stringify runtime.toHost n.value).getD (js "undefined")).chars]
  | .gap => ["event: gap".toList, "data: \x7b\"code\":\"CONTROL_SSE_RETENTION_GAP\"\x7d".toList]
  | .heartbeat => [": heartbeat".toList]

variable {runtime}

theorem uuidV7_singleLine {now : ℤ} {random : Fin 16 → Byte} {id : JsString}
    (h : Identity.createUuidV7 now random = some id) : SingleLine id := by
  refine .units fun c hc => ?_
  rcases Identity.createUuidV7_units h c hc with hc | rfl
  · simp only [CodeUnit.isLowerHex, CodeUnit.isDigit, CodeUnit.inRange, Bool.or_eq_true,
      Bool.and_eq_true, decide_eq_true_eq] at hc
    change (48 ≤ c.val ∧ c.val ≤ 57) ∨ (97 ≤ c.val ∧ c.val ≤ 102) at hc
    omega
  · decide

theorem SseFrame.lines_eq {frame : SseFrame} (h : ∀ n, frame = .notification n → Published n) :
    frame.lines runtime ≠ [] ∧ (∀ line ∈ frame.lines runtime, IsLine line) ∧
      utf16Text (joined (frame.lines runtime)) = frame.fields runtime.toHost := by
  cases frame with
  | gap => exact ⟨by simp [lines], by simp [lines, IsLine], rfl⟩
  | heartbeat => exact ⟨by simp [lines], by simp [lines, IsLine], rfl⟩
  | notification n =>
    have hpublished := h n rfl
    obtain ⟨plain, subject, hchecked⟩ := hpublished.checked
    obtain ⟨now, random, hid⟩ := hpublished.created
    obtain ⟨hidLine, hidText⟩ := (uuidV7_singleLine hid).chars
    have hkind : SingleLine n.kind := by
      have hkinds : ∀ kind ∈ notificationKinds, SingleLine kind := by
        simp only [notificationKinds, List.forall_mem_cons, List.not_mem_nil, false_implies,
          implies_true, and_true]
        exact ⟨.js (by decide), .js (by decide), .js (by decide)⟩
      exact hkinds _ hchecked.kind
    obtain ⟨hkindLine, hkindText⟩ := hkind.chars
    cases htext : Json.stringify runtime.toHost n.value with
    | none => cases htext
    | some text =>
      obtain ⟨hdataLine, hdataText⟩ := (singleLine_stringify htext).chars
      simp only [lines, fields, htext, Option.getD_some]
      refine ⟨by simp, ?_, ?_⟩
      · simp [IsLine, hidLine, hkindLine, hdataLine]
      · rw [joined_cons, joined_cons, joined_single, utf16Text_append, utf16Text_append,
          utf16Text_cons, utf16Text_append, utf16Text_append, utf16Text_cons, utf16Text_append,
          hidText, hkindText, hdataText]
        rw [show js "\nevent: " = utf16 '\n' ++ js "event: " from rfl,
          show js "\ndata: " = utf16 '\n' ++ js "data: " from rfl]
        simp only [List.append_assoc]
        rfl

theorem frameItem_gap : frameItem runtime (joined (SseFrame.gap.lines runtime)) =
    .ok (some .retentionGap) := by
  obtain ⟨hne, hlines, -⟩ := @SseFrame.lines_eq runtime .gap (by simp)
  have hevent : field "event: " (joined (SseFrame.gap.lines runtime)) = some "gap".toList := by
    rw [field_joined hne hlines]
    rfl
  have hdata : field "data: " (joined (SseFrame.gap.lines runtime)) =
      some "\x7b\"code\":\"CONTROL_SSE_RETENTION_GAP\"\x7d".toList := by
    rw [field_joined hne hlines]
    rfl
  have htext : Json.stringify runtime.toHost
      (.record [(js "code", .string (js "CONTROL_SSE_RETENTION_GAP"))]) =
      some (utf16Text "\x7b\"code\":\"CONTROL_SSE_RETENTION_GAP\"\x7d".toList) := rfl
  have hgap : gapValid runtime
      (some "\x7b\"code\":\"CONTROL_SSE_RETENTION_GAP\"\x7d".toList) = true := by
    rw [gapValid, Option.bind_some, parseData, parse_stringify htext]
    rfl
  rw [frameItem, hevent, hdata, hgap]
  rfl

theorem frameItem_heartbeat : frameItem runtime (joined (SseFrame.heartbeat.lines runtime)) =
    .ok none := by
  obtain ⟨hne, hlines, -⟩ := @SseFrame.lines_eq runtime .heartbeat (by simp)
  have hevent : field "event: " (joined (SseFrame.heartbeat.lines runtime)) = none := by
    rw [field_joined hne hlines]
    rfl
  have hdata : field "data: " (joined (SseFrame.heartbeat.lines runtime)) = none := by
    rw [field_joined hne hlines]
    rfl
  rw [frameItem, hevent, hdata]
  rfl

theorem frameItem_notification {n : ControlNotification} (h : Published n) :
    ∃ w, n.value.restored = some w ∧
      frameItem runtime (joined ((SseFrame.notification n).lines runtime)) =
        if isNotification runtime.toHost w then .ok (some (.notification w))
        else .error .notificationInvalid := by
  obtain ⟨plain, subject, hchecked⟩ := h.checked
  obtain ⟨version, hrestored, hversion⟩ := value_restored hchecked.version
  obtain ⟨hne, hlines, -⟩ := SseFrame.lines_eq
    (fun m hm => SseFrame.notification.inj hm ▸ h)
  refine ⟨_, hrestored, ?_⟩
  have hevent : field "event: " (joined ((SseFrame.notification n).lines runtime)) =
      some n.kind.chars := by
    rw [field_joined hne hlines]
    rfl
  cases htext : Json.stringify runtime.toHost n.value with
  | none => cases htext
  | some text =>
    have hdata : field "data: " (joined ((SseFrame.notification n).lines runtime)) =
        some text.chars := by
      rw [field_joined hne hlines, SseFrame.lines, htext]
      rfl
    have hkindLine : utf16Text n.kind.chars = n.kind := by
      have hkinds : ∀ kind ∈ notificationKinds, utf16Text kind.chars = kind := by decide
      exact hkinds _ hchecked.kind
    have hgap : some n.kind.chars ≠ some "gap".toList := by
      intro hsome
      have hkind := hchecked.kind
      rw [← hkindLine, Option.some.inj hsome] at hkind
      revert hkind
      decide
    have hparse : parseData runtime text.chars = some (objectOf (received n version)) := by
      rw [parseData, (singleLine_stringify htext).chars.2, parse_stringify htext, hrestored]
    have hkind : eventIsKind (some n.kind.chars) (objectOf (received n version)) = true := by
      obtain ⟨props, hprops, -, hget⟩ := received_members n version
      have hproperty : (objectOf (received n version)).property (js "kind") = .string n.kind := by
        rw [hprops]
        exact (hget _).trans rfl
      simp only [eventIsKind, hproperty, hkindLine, beq_self_eq_true]
    rw [frameItem, hevent, hdata]
    simp only [hgap, if_false, hparse, hkind, Bool.and_true]

end Frames

section Delivery

variable (runtime : JsonRuntime)

def Delivered (frames : List SseFrame) : Prop :=
  ∀ (limit : JsNumber) (chunks : List (List Byte)), [] ∉ chunks →
    chunks.flatten = frames.flatMap (SseFrame.bytes runtime.toHost) →
    WithinLimit limit .initial chunks →
    streamEvents runtime limit chunks = (frames.filterMap SseFrame.item, none)

def streamText (frames : List SseFrame) : Text :=
  frames.flatMap fun frame => joined (frame.lines runtime) ++ ['\n', '\n']

variable {runtime}

theorem bytes_eq {frame : SseFrame} (h : ∀ n, frame = .notification n → Published n) :
    frame.bytes runtime.toHost = encode (joined (frame.lines runtime) ++ ['\n', '\n']) := by
  obtain ⟨-, -, hfields⟩ := SseFrame.lines_eq h
  have hdata : frame.data runtime.toHost =
      utf16Text (joined (frame.lines runtime) ++ ['\n', '\n']) := by
    rw [SseFrame.data, ← hfields, utf16Text_append]
    rfl
  rw [SseFrame.bytes, hdata, JsString.utf8, JsString.chars_utf16Text]

theorem stream_eq {frames : List SseFrame} (h : ∀ n, .notification n ∈ frames → Published n) :
    frames.flatMap (SseFrame.bytes runtime.toHost) = encode (streamText runtime frames) := by
  induction frames with
  | nil => rfl
  | cons frame frames ih =>
    rw [List.flatMap_cons, ih fun n hn => h n (List.mem_cons_of_mem _ hn),
      bytes_eq fun n hn => h n (hn ▸ List.mem_cons_self), ← encode_append]
    rfl

theorem splitFrames_stream {frames : List SseFrame}
    (h : ∀ n, .notification n ∈ frames → Published n) :
    splitFrames (streamText runtime frames) =
      (frames.map fun frame => joined (frame.lines runtime), []) := by
  induction frames with
  | nil => rfl
  | cons frame frames ih =>
    obtain ⟨hne, hlines, -⟩ := SseFrame.lines_eq
      fun n hn => h n (hn ▸ List.mem_cons_self)
    have hrest := ih fun n hn => h n (List.mem_cons_of_mem _ hn)
    rw [streamText, List.flatMap_cons, List.append_assoc]
    refine (splitFrames_joined hne hlines (streamText runtime frames)).trans ?_
    rw [hrest, List.map_cons]

theorem pendingWith_stream (frames : List SseFrame) :
    pendingWith .initial (streamText runtime frames) = streamText runtime frames := by
  rcases withoutMark_eq true (streamText runtime frames) with heq | ⟨-, heq⟩
  · exact heq
  · -- No frame starts with the mark.
    have hhead := congrArg List.head? heq
    cases frames with
    | nil => cases hhead
    | cons frame frames =>
      cases frame with
      | _ => exact absurd (Option.some.inj hhead) (by decide)

theorem streamEvents_within {frames : List SseFrame}
    (h : ∀ n, .notification n ∈ frames → Published n) {limit : JsNumber}
    {chunks : List (List Byte)}
    (hchunks : chunks.flatten = frames.flatMap (SseFrame.bytes runtime.toHost))
    (hwithin : WithinLimit limit .initial chunks) :
    streamEvents runtime limit chunks =
      drainFrames runtime (frames.map fun frame => joined (frame.lines runtime)) := by
  have hdecode : decode StreamState.initial.held chunks.flatten =
      some (streamText runtime frames, []) := by
    rw [hchunks, stream_eq h]
    exact decode_encode _
  rw [streamEvents, streamFrom_within ready_initial hdecode hwithin, settled, next,
    pendingWith_stream, splitFrames_stream h]
  cases drainFrames runtime (frames.map fun frame => joined (frame.lines runtime)) with
  | mk items failure => cases failure <;> rfl

theorem itemOf_lines {frame : SseFrame} (h : ∀ n, frame = .notification n → Published n)
    (hnames : ∀ n, frame = .notification n → NamesSubject n.subjectRef) :
    frameItem runtime (joined (frame.lines runtime)) = .ok frame.item := by
  cases frame with
  | gap => exact frameItem_gap
  | heartbeat => exact frameItem_heartbeat
  | notification n =>
    obtain ⟨plain, subject, hchecked⟩ := (h n rfl).checked
    obtain ⟨version, hrestored, hversion⟩ := value_restored hchecked.version
    obtain ⟨w, hw, hitem⟩ := frameItem_notification (h n rfl)
    rw [hrestored, Option.some.injEq] at hw
    subst hw
    have hvalid := (isNotification_received hchecked hversion runtime.toHost).mpr (hnames n rfl)
    rw [hitem, if_pos hvalid, SseFrame.item, hrestored]
    rfl

theorem names_of_isOk {n : ControlNotification} (h : Published n)
    (hok : (frameItem runtime (joined ((SseFrame.notification n).lines runtime))).isOk = true) :
    NamesSubject n.subjectRef := by
  obtain ⟨plain, subject, hchecked⟩ := h.checked
  obtain ⟨version, hrestored, hversion⟩ := value_restored hchecked.version
  obtain ⟨w, hw, hitem⟩ := frameItem_notification h
  rw [hrestored, Option.some.injEq] at hw
  subst hw
  refine (isNotification_received hchecked hversion runtime.toHost).mp ?_
  by_contra hinvalid
  rw [hitem, if_neg hinvalid] at hok
  cases hok

theorem delivered_iff_names_subjects {frames : List SseFrame}
    (h : ∀ n, .notification n ∈ frames → Published n) :
    Delivered runtime frames ↔ ∀ n, .notification n ∈ frames → NamesSubject n.subjectRef := by
  constructor
  · intro hdelivered n hn
    have hbytes : frames.flatMap (SseFrame.bytes runtime.toHost) ≠ [] := by
      intro hnil
      have hframe := List.flatMap_eq_nil_iff.mp hnil _ hn
      rw [bytes_eq fun m hm => SseFrame.notification.inj hm ▸ h n hn, encode_append] at hframe
      exact absurd (List.append_eq_nil_iff.mp hframe).2 (by decide)
    have hwithin : WithinLimit (.infinity false) .initial
        [frames.flatMap (SseFrame.bytes runtime.toHost)] := by
      rw [WithinLimit]
      split
      · trivial
      · exact ⟨rfl, trivial⟩
    have hall := hdelivered (.infinity false) [frames.flatMap (SseFrame.bytes runtime.toHost)]
      (by simpa using hbytes.symm) (by simp) hwithin
    rw [streamEvents_within h (by simp) hwithin] at hall
    obtain ⟨processed, -, hok, -, hend⟩ := drainFrames_prefix
      (frames.map fun frame => joined (frame.lines runtime))
    rw [hend (congrArg Prod.snd hall)] at hok
    exact names_of_isOk (h n hn) (hok _ (List.mem_map_of_mem hn))
  · intro hnames limit chunks _ hchunks hwithin
    rw [streamEvents_within h hchunks hwithin]
    have hitems (frame : SseFrame) (hframe : frame ∈ frames) :
        frameItem runtime (joined (frame.lines runtime)) = .ok frame.item :=
      itemOf_lines (fun n hn => h n (hn ▸ hframe)) fun n hn => hnames n (hn ▸ hframe)
    rw [drainFrames_ok, List.filterMap_map]
    · refine congrArg (·, none) (List.filterMap_congr fun frame hframe => ?_)
      rw [Function.comp_apply, itemOf, hitems frame hframe]
    · intro text htext
      obtain ⟨frame, hframe, rfl⟩ := List.mem_map.mp htext
      rw [hitems frame hframe]
      rfl

end Delivery

section Samples

def sampleInstant : DateTime.UtcInstant where
  year := 2026
  month := 1
  day := 31
  hour := 23
  minute := 59
  second := 59
  millisecond := 999
  year_le := by decide
  month_le := by decide
  day_le := by decide
  hour_le := by decide
  minute_le := by decide
  second_le := by decide
  millisecond_le := by decide

def runtimeStatus (subject : Props) : JsValue :=
  .record [(js "kind", .string (js "RUNTIME_STATUS")), (js "subjectRef", .object true subject),
    (js "projectionVersion", .number (.ofInt 0 zero_exact)),
    (js "resourceUri", .string (js "/v1/status"))]

def statusNotification (subject : Props) : ControlNotification where
  notificationId := js "00000000-0000-7000-8000-000000000000"
  kind := js "RUNTIME_STATUS"
  subjectRef := Props.spread subject
  projectionVersion := .ofInt 0 zero_exact
  occurredAt := DateTime.toISOString sampleInstant
  resourceUri := js "/v1/status"

theorem statusNotification_published {subject : Props}
    (hvalid : validSubjectRef (.object true subject) = true)
    (hwellFormed : (JsValue.object true subject).WellFormed)
    (hserializable : propsSerializable (Props.spread subject) = true) :
    Published (statusNotification subject) := by
  refine ⟨⟨runtimeStatus subject, ?_, ?_⟩, ⟨0, fun _ => 0, ?_⟩, ⟨_, rfl⟩, hserializable⟩
  · have hkeys : ([.text (js "kind"), .text (js "subjectRef"), .text (js "projectionVersion"),
        .text (js "resourceUri")] : List PropertyKey).Nodup := by decide
    refine ⟨hkeys, ?_⟩
    simp only [List.map_cons, List.map_nil, PropsWellFormed, and_true]
    exact ⟨trivial, hwellFormed, trivial, trivial⟩
  · have hversion : (runtimeStatus subject).property (js "projectionVersion") =
        .number (.ofInt 0 zero_exact) := rfl
    have hsubject : (runtimeStatus subject).property (js "subjectRef") = .object true subject := rfl
    have hkind : (runtimeStatus subject).property (js "kind") = .string (js "RUNTIME_STATUS") := rfl
    have huri : (runtimeStatus subject).property (js "resourceUri") = .string (js "/v1/status") :=
      rfl
    have hnumber : nonNegativeInteger (.number (.ofInt 0 zero_exact)) = true := by decide
    rw [publishNotification, hversion, hsubject, hkind, huri]
    simp only [hvalid, hnumber]
    rfl
  · change Identity.createUuidV7 0 (fun _ => 0) = some (js "00000000-0000-7000-8000-000000000000")
    decide

def sampleSubject : Props :=
  [(.own (js "subjectType"), .string (js "Runtime")), (.own (js "subjectId"), .string (js "main"))]

theorem sample_delivered :
    Delivered sampleRuntime [.gap, .heartbeat, .notification (statusNotification sampleSubject)] := by
  refine (delivered_iff_names_subjects fun n hn => ?_).mpr fun n hn => ?_
  · obtain rfl : n = statusNotification sampleSubject := by simpa using hn
    exact statusNotification_published (by decide) ⟨by decide, trivial, trivial, trivial⟩ rfl
  · obtain rfl : n = statusNotification sampleSubject := by simpa using hn
    exact .inl (.refl _)

def hiddenSubject : Props :=
  [(.own (js "label"), .string (js "main")), (.own (js "shard"), .string (js "1")),
    (⟨.text (js "subjectType"), .hidden⟩, .string (js "Runtime")),
    (⟨.text (js "subjectId"), .hidden⟩, .string (js "main"))]

theorem hidden_subject_not_delivered :
    Published (statusNotification hiddenSubject) ∧
      ¬ Delivered sampleRuntime [.notification (statusNotification hiddenSubject)] := by
  refine ⟨statusNotification_published (by decide)
    ⟨by decide, trivial, trivial, trivial, trivial, trivial⟩ rfl, fun hdelivered => ?_⟩
  have hbytes : (SseFrame.notification (statusNotification hiddenSubject)).bytes
      sampleRuntime.toHost ≠ [] := by decide
  have hrejected : (streamEvents sampleRuntime (.infinity false)
      [(SseFrame.notification (statusNotification hiddenSubject)).bytes sampleRuntime.toHost]).2 =
      some .notificationInvalid := by decide +kernel
  generalize hframe : SseFrame.notification (statusNotification hiddenSubject) = frame
    at hbytes hrejected hdelivered
  have hwithin : WithinLimit (.infinity false) .initial [frame.bytes sampleRuntime.toHost] := by
    rw [WithinLimit]
    split
    · trivial
    · exact ⟨rfl, trivial⟩
  have hyields := hdelivered (.infinity false) [frame.bytes sampleRuntime.toHost]
    (by simpa using hbytes.symm) (by simp) hwithin
  rw [hyields] at hrejected
  cases hrejected

end Samples

end EventStream

end Aseos
