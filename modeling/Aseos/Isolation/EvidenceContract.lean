import Aseos.Isolation.Evidence
import Aseos.Policy.Contract

namespace Aseos.Isolation

open Schema

section Numbers

variable {formats : Format → JsString → Bool} {reading : IntegerReading}

theorem accepts_integerFrom {minimum : ℤ} {x : Double} (hden : x.value.den = 1)
    (hmin : (minimum : ℚ) ≤ x.value) :
    accepts formats (integerFrom minimum) (.number (.finite x)) = true := by
  refine accepts_all.mpr ?_
  simp only [List.forall_mem_cons]
  exact ⟨by simp [accepts, hasType, hden], by simpa [accepts, onNumber, atLeast] using hmin,
    by simp⟩

theorem accepts_integerBetween {minimum maximum : ℤ} {x : Double} (hden : x.value.den = 1)
    (hmin : (minimum : ℚ) ≤ x.value) (hmax : x.value ≤ (maximum : ℚ)) :
    accepts formats (integerBetween minimum maximum) (.number (.finite x)) = true := by
  refine accepts_all.mpr ?_
  simp only [List.forall_mem_cons]
  exact ⟨by simp [accepts, hasType, hden], by simpa [accepts, onNumber, atLeast] using hmin,
    by simpa [accepts, onNumber, atMost] using hmax, by simp⟩

theorem safeInteger_value {v : JsValue} {n : ℤ} (h : safeInteger v = some n) :
    ∃ x : Double, v = .number (.finite x) ∧ x.value.den = 1 ∧ x.value = n := by
  cases v with
  | number number =>
    cases number with
    | finite x =>
      simp only [safeInteger] at h
      split at h
      · rename_i hsafe
        obtain ⟨hden, -⟩ := Bool.and_eq_true_iff.mp hsafe
        have hden : x.value.den = 1 := beq_iff_eq.mp hden
        obtain rfl := Option.some.inj h
        exact ⟨x, rfl, hden, (Rat.den_eq_one_iff x.value).mp hden |>.symm⟩
      · cases h
    | _ => cases h
  | _ => cases h

theorem safeInteger_from {v : JsValue} {n minimum : ℤ} (h : safeInteger v = some n)
    (hmin : minimum ≤ n) : accepts formats (integerFrom minimum) v = true := by
  obtain ⟨x, rfl, hden, hvalue⟩ := safeInteger_value h
  exact accepts_integerFrom hden (hvalue ▸ Int.cast_le.mpr hmin)

theorem safeInteger_between {v : JsValue} {n minimum maximum : ℤ} (h : safeInteger v = some n)
    (hmin : minimum ≤ n) (hmax : n ≤ maximum) :
    accepts formats (integerBetween minimum maximum) v = true := by
  obtain ⟨x, rfl, hden, hvalue⟩ := safeInteger_value h
  exact accepts_integerBetween hden (hvalue ▸ Int.cast_le.mpr hmin)
    (hvalue ▸ Int.cast_le.mpr hmax)

theorem accepts_count (n : ℕ) (h : n < 2 ^ 53) :
    accepts formats (integerFrom 0) (countValue n h) = true :=
  accepts_integerFrom (Rat.den_intCast n) (by simp [Double.ofInt])

theorem toInt_range {w : ℕ} (hw : w ≤ 64) (b : BitVec w) : |b.toInt| < 2 ^ 64 := by
  have hle : (2 : ℤ) ^ w ≤ 2 ^ 64 := pow_le_pow_right₀ (by decide) hw
  have hpos : (0 : ℤ) < 2 ^ w := by positivity
  have hupper := b.two_mul_toInt_lt
  have hlower := b.le_two_mul_toInt
  rw [abs_lt]
  constructor <;> linarith

theorem accepts_read {w : ℕ} (hw : w ≤ 64) {b : BitVec w} (hnonneg : 0 ≤ b.toInt) :
    accepts formats (integerFrom 0) (readInteger reading b.toInt) = true :=
  accepts_integerFrom (reading.integral b.toInt (toInt_range hw b))
    (by simpa using reading.nonneg b.toInt hnonneg)

end Numbers

section Request

variable {formats : Format → JsString → Bool}

theorem mem_of_hasExactKeys {plain : Bool} {props : Props} {expected : List String}
    (h : hasExactKeys (.object plain props) expected = true) :
    ∀ key, key ∈ props.keys ↔ key ∈ expected.map js := by
  intro key
  have hsorted : JsString.sort props.keys = JsString.sort (expected.map js) := beq_iff_eq.mp h
  rw [← (JsString.sort_perm props.keys).mem_iff, hsorted, (JsString.sort_perm _).mem_iff]

theorem length_of_hasExactKeys {plain : Bool} {props : Props} {expected : List String}
    (h : hasExactKeys (.object plain props) expected = true) :
    props.keys.length = expected.length := by
  have hsorted : JsString.sort props.keys = JsString.sort (expected.map js) := beq_iff_eq.mp h
  rw [← (JsString.sort_perm props.keys).length_eq, hsorted, (JsString.sort_perm _).length_eq,
    List.length_map]

theorem safeInteger_defined {v : JsValue} {n : ℤ} (h : safeInteger v = some n) :
    v ≠ .undefined := by
  rintro rfl
  cases h

theorem budgets_accepted {limits : JsValue} {r : RequestedLimits}
    (hkeys : hasExactKeys limits budgetKeys = true) (h : AdmittedLimits limits r) :
    accepts formats resourceBudgets limits = true := by
  cases limits with
  | object plain props =>
    rw [resourceBudgets]
    refine accepts_objectOf (fun key hkey => ?_) fun schema hschema => .inr ?_
    · obtain ⟨name, hname, rfl⟩ := List.mem_map.mp ((mem_of_hasExactKeys hkeys key).mp hkey)
      have hnames : budgetKeys ⊆ ["maxCpuTimeMs", "maxMemoryBytes", "maxProcessCount",
        "maxWallClockMs", "maxStdoutBytes", "maxStderrBytes"] := by decide
      exact List.mem_map_of_mem (hnames hname)
    · simp only [List.mem_cons, List.not_mem_nil, or_false] at hschema
      obtain rfl | rfl | rfl | rfl | rfl | rfl := hschema
      · exact ⟨safeInteger_defined h.cpuTime, safeInteger_from h.cpuTime h.cpuTime_pos⟩
      · exact ⟨safeInteger_defined h.memory, safeInteger_from h.memory h.memory_least⟩
      · exact ⟨safeInteger_defined h.processCount,
          safeInteger_between h.processCount h.processCount_range.1 h.processCount_range.2⟩
      · exact ⟨safeInteger_defined h.wallClock,
          safeInteger_between h.wallClock h.wallClock_range.1 h.wallClock_range.2⟩
      · exact ⟨safeInteger_defined h.stdout, safeInteger_from h.stdout h.stdout_nonneg⟩
      · exact ⟨safeInteger_defined h.stderr, safeInteger_from h.stderr h.stderr_nonneg⟩
  | _ => cases hkeys

structure SubjectRef where
  subjectType : JsString
  subjectId : JsString
  subjectVersion : Option JsString

def SubjectRef.canonicalText (ref : SubjectRef) : JsString :=
  ref.subjectType ++ 0 :: (ref.subjectId ++ 0 :: ref.subjectVersion.getD [])

structure Referenced (v : JsValue) (ref : SubjectRef) : Prop where
  subjectType : v.property (js "subjectType") = .string ref.subjectType
  subjectId : v.property (js "subjectId") = .string ref.subjectId
  subjectVersion :
    v.property (js "subjectVersion") = (ref.subjectVersion.map .string).getD .undefined
  keys : hasExactKeys v (referenceKeys (v.property (js "subjectVersion"))) = true
  typeName : Pattern.canonicalTypeName.test ref.subjectType = true
  id_length : 1 ≤ ref.subjectId.length ∧ ref.subjectId.length ≤ 256
  version_length : ∀ version ∈ ref.subjectVersion, 1 ≤ version.length ∧ version.length ≤ 128

-- A record whose members are strings, as their declared types say.
structure TextualReference (ref : JsValue) : Prop where
  record : isRecordValue ref = true
  subjectType : isText (ref.property (js "subjectType")) = true
  subjectId : isText (ref.property (js "subjectId")) = true
  subjectVersion : ref.property (js "subjectVersion") = .undefined ∨
    isText (ref.property (js "subjectVersion")) = true

structure TextualContext (context : JsValue) : Prop where
  requirementId : isText (context.property (js "requirementId")) = true
  taskId : isText (context.property (js "taskId")) = true
  executionId : isText (context.property (js "executionId")) = true
  evidenceRefs : ∀ slots extra, context.property (js "evidenceRefs") = .array slots extra →
    ∀ slot ∈ slots, TextualReference (Slots.value slot)

theorem isText_iff {v : JsValue} : isText v = true ↔ ∃ s, v = .string s := by
  cases v <;> simp [isText]

theorem lengthOutside_string {runtime : AdapterRuntime} {least most : ℕ} {s : JsString}
    (h : lengthOutside runtime least most (.string s) = .ok false) :
    least ≤ s.length ∧ s.length ≤ most := by
  have hbounds := Except.ok.inj h
  simpa using hbounds

theorem referenced {runtime : AdapterRuntime} {v : JsValue} {text : JsString}
    (htextual : TextualReference v) (htext : canonicalEvidenceRef runtime v = .ok text)
    (hchecked : refusesReference runtime v = .ok false) :
    ∃ ref, Referenced v ref ∧ ref.canonicalText = text := by
  cases v with
  | object plain props =>
    obtain ⟨subjectType, htype⟩ := isText_iff.mp htextual.subjectType
    obtain ⟨subjectId, hid⟩ := isText_iff.mp htextual.subjectId
    simp only [JsValue.property] at htype hid
    simp only [refusesReference, member, htype, hid, Except.ok_bind] at hchecked
    have hall := Except.anyM_eq_false hchecked
    simp only [List.forall_mem_cons, id] at hall
    obtain ⟨hkeys, hname, hlength, hversion, -⟩ := hall
    simp only [canonicalEvidenceRef, member, htype, hid, Except.ok_bind, toText] at htext
    have hkeys : hasExactKeys (.object plain props)
        (referenceKeys (Props.get props (js "subjectVersion"))) = true := by
      simpa [hasExactKeys, ownKeys] using Except.ok.inj hkeys
    have hname : Pattern.canonicalTypeName.test subjectType = true := by
      simpa [toText, Except.ok_bind] using Except.ok.inj hname
    obtain hnone | hsome := htextual.subjectVersion
    · simp only [JsValue.property] at hnone
      refine ⟨⟨subjectType, subjectId, none⟩, ⟨htype, hid, hnone, hkeys, hname,
        lengthOutside_string hlength, by simp⟩, ?_⟩
      rw [hnone] at htext
      exact Except.ok.inj htext
    · obtain ⟨version, hsome⟩ := isText_iff.mp hsome
      simp only [JsValue.property] at hsome
      rw [hsome] at hversion htext
      have hversion : lengthOutside runtime 1 128 (.string version) = .ok false := hversion
      refine ⟨⟨subjectType, subjectId, some version⟩, ⟨htype, hid, hsome, hkeys, hname,
        lengthOutside_string hlength, ?_⟩, Except.ok.inj htext⟩
      rintro _ ⟨⟩
      exact lengthOutside_string hversion
  | _ => cases htextual.record

theorem accepts_bounded {s : JsString} {least most : ℕ} (hleast : 1 ≤ s.length)
    (hmost : s.length ≤ most) (h : least ≤ 1) :
    accepts formats (boundedString least most) (.string s) = true :=
  accepts_boundedString.mpr ⟨h.trans (JsString.codePoints_pos hleast),
    (JsString.codePoints_le_length s).trans hmost⟩

theorem reference_accepted {v : JsValue} {ref : SubjectRef} (h : Referenced v ref) :
    accepts formats subjectRef v = true := by
  have htype := h.subjectType
  have hid := h.subjectId
  have hversion := h.subjectVersion
  have hkeys := h.keys
  cases v with
  | object plain props =>
    change accepts formats (closedObject [("subjectType", canonicalTypeName),
      ("subjectId", boundedString 1 256), ("subjectVersion", boundedString 1 128)]
      ["subjectVersion"]) _ = true
    refine accepts_objectOf (fun key hkey => ?_) fun schema hschema => ?_
    · obtain ⟨name, hname, rfl⟩ := List.mem_map.mp ((mem_of_hasExactKeys hkeys key).mp hkey)
      have hnames : name ∈ ["subjectType", "subjectId", "subjectVersion"] := by
        rw [referenceKeys] at hname
        split at hname <;> revert name <;> grind
      exact List.mem_map_of_mem hnames
    · simp only [List.mem_cons, List.not_mem_nil, or_false] at hschema
      obtain rfl | rfl | rfl := hschema
      · rw [show Props.get props (js "subjectType") = _ from htype]
        exact .inr ⟨by rintro ⟨⟩, accepts_pattern.mpr h.typeName⟩
      · rw [show Props.get props (js "subjectId") = _ from hid]
        exact .inr ⟨by rintro ⟨⟩, accepts_bounded h.id_length.1 h.id_length.2 le_rfl⟩
      · cases hsome : ref.subjectVersion with
        | none => exact .inl ⟨List.mem_singleton_self _, by rwa [hsome] at hversion⟩
        | some version =>
          obtain ⟨hleast, hmost⟩ := h.version_length version hsome
          rw [hsome] at hversion
          rw [show Props.get props (js "subjectVersion") = _ from hversion]
          exact .inr ⟨by rintro ⟨⟩, accepts_bounded hleast hmost le_rfl⟩
  | _ => cases htype

theorem propsEqual_get {props other : Props} {key s : JsString}
    (h : JsValue.propsEqual props other = true) (hget : props.get key = .string s) :
    other.get key = .string s := by
  induction props with
  | nil => cases hget
  | cons p props ih =>
    obtain ⟨field, v⟩ := p
    rw [Props.get_cons] at hget
    simp only [JsValue.propsEqual, Bool.and_eq_true] at h
    split at hget
    · rename_i hkey
      have hname : field.name? = some key := by simp [Field.name?, hkey]
      rw [hname, hget] at h
      obtain ⟨-, hequal⟩ := Bool.and_eq_true_iff.mp h.1
      cases hother : other.get key with
      | string t =>
        rw [hother, JsValue.deepEqual] at hequal
        rw [beq_iff_eq.mp hequal]
      | _ => simp [hother, JsValue.deepEqual] at hequal
    · exact ih h.2 hget

theorem equal_references {v w : JsValue} {ref other : SubjectRef} (hv : Referenced v ref)
    (hw : Referenced w other) (hequal : v.deepEqual w = true) :
    ref.canonicalText = other.canonicalText := by
  have htype := hv.subjectType
  have htype' := hw.subjectType
  have hversion := hv.subjectVersion
  have hversion' := hw.subjectVersion
  have hkeys := hv.keys
  have hkeys' := hw.keys
  cases v with
  | object plain props =>
    cases w with
    | object plain' props' =>
      rw [JsValue.deepEqual] at hequal
      obtain ⟨hlength, hprops⟩ := Bool.and_eq_true_iff.mp hequal
      have hlength := beq_iff_eq.mp hlength
      have hsame : ref.subjectVersion = other.subjectVersion := by
        cases hsome : ref.subjectVersion with
        | some version =>
          rw [hsome] at hversion
          have hget := hversion'.symm.trans (propsEqual_get hprops hversion)
          cases hother : other.subjectVersion with
          | none => rw [hother] at hget; cases hget
          | some version' => rw [hother] at hget; rw [JsValue.string.inj hget]
        | none =>
          cases hother : other.subjectVersion with
          | none => rfl
          | some version =>
            rw [hversion, hsome] at hkeys
            rw [hversion', hother] at hkeys'
            have htwo := length_of_hasExactKeys hkeys
            have hthree := length_of_hasExactKeys hkeys'
            simp [referenceKeys, JsValue.isDefined] at htwo hthree
            omega
      have htypes := htype'.symm.trans (propsEqual_get hprops htype)
      have hids := hw.subjectId.symm.trans (propsEqual_get hprops hv.subjectId)
      rw [SubjectRef.canonicalText, SubjectRef.canonicalText, JsValue.string.inj htypes,
        JsValue.string.inj hids, hsame]
    | _ => cases htype'
  | _ => cases htype

def Named (v : JsValue) (text : JsString) : Prop :=
  ∃ ref, Referenced v ref ∧ ref.canonicalText = text

theorem references_distinct {values : List JsValue} {texts : List JsString}
    (h : List.Forall₂ Named values texts) (hnodup : texts.Nodup) : distinct values = true := by
  induction h with
  | nil => rfl
  | cons hv hrest ih =>
    rename_i v text values texts
    obtain ⟨hfresh, hnodup⟩ := List.nodup_cons.mp hnodup
    rw [distinct, ih hnodup, Bool.and_true, List.all_eq_true]
    intro w hw
    obtain ⟨ref, hreferenced, rfl⟩ := hv
    obtain ⟨_, hmem, other, hother, rfl⟩ := forall₂_left hrest w hw
    refine Bool.not_eq_true' _ |>.mpr (Bool.eq_false_iff.mpr fun hequal => hfresh ?_)
    rw [equal_references hreferenced hother hequal]
    exact hmem

structure CheckedContext (formats : Format → JsString → Bool) (context : JsValue) : Prop where
  requirementId : accepts formats Schema.uuidV7 (context.property (js "requirementId")) = true
  taskId : accepts formats Schema.uuidV7 (context.property (js "taskId")) = true
  executionId : accepts formats Schema.uuidV7 (context.property (js "executionId")) = true
  evidenceRefs : accepts formats
    (.all [.type .array, .items subjectRef, .minItems 1, .uniqueItems])
    (context.property (js "evidenceRefs")) = true

theorem arraySlots_eq_ok {v : JsValue} {slots : Slots} (h : arraySlots v = .ok slots) :
    ∃ extra, v = .array slots extra := by
  cases v with
  | array slots extra => exact ⟨extra, by rw [Except.ok.inj h]⟩
  | _ => cases h

theorem id_accepted {runtime : AdapterRuntime} {context : JsValue} {name : String}
    (htext : isText (context.property (js name)) = true)
    (h : refusesId runtime context name = .ok false) :
    accepts formats Schema.uuidV7 (context.property (js name)) = true := by
  obtain ⟨s, hs⟩ := isText_iff.mp htext
  simp only [refusesId, hs, toText, Except.ok_bind] at h
  rw [hs]
  refine accepts_pattern.mpr ?_
  simpa using Except.ok.inj h

theorem present_textual {slots : Slots} (h : ∀ slot ∈ slots, TextualReference (Slots.value slot)) :
    Slots.present slots = slots.map Slots.value := by
  induction slots with
  | nil => rfl
  | cons slot slots ih =>
    obtain ⟨hslot, hslots⟩ := List.forall_mem_cons.mp h
    have hdata : slot.1 ≠ .hole := by
      intro hhole
      have hrecord := hslot.record
      rw [Slots.value, if_pos hhole] at hrecord
      cases hrecord
    rw [List.map_cons, ← ih hslots, Slots.value, if_neg hdata, Slots.present,
      List.filter_cons_of_pos (by simpa using hdata), List.map_cons]
    rfl

theorem validateEvidenceContext_checked {runtime : AdapterRuntime} {context : JsValue}
    (h : validateEvidenceContext runtime context = .ok ()) (htextual : TextualContext context) :
    CheckedContext formats context := by
  simp only [validateEvidenceContext, Except.bind_eq_ok, refuseWhen_eq_ok] at h
  obtain ⟨slots, hslots, texts, htexts, refused, hrefused, rfl⟩ := h
  have hall := Except.anyM_eq_false hrefused
  simp only [List.forall_mem_cons, id] at hall
  obtain ⟨-, hrequirement, htask, hexecution, hsome, hdistinct, hrefs, -⟩ := hall
  obtain ⟨extra, harray⟩ := arraySlots_eq_ok hslots
  have hvalues := htextual.evidenceRefs slots extra harray
  rw [present_textual hvalues] at htexts hrefs
  have hread := Except.mapM_eq_ok.mp htexts
  have hnamed : List.Forall₂ Named (slots.map Slots.value) texts := by
    refine List.forall₂_iff_zip.mpr ⟨hread.length_eq, fun {v text} hpair => ?_⟩
    obtain ⟨slot, hslot, rfl⟩ := List.mem_map.mp (List.of_mem_zip hpair).1
    exact referenced (hvalues slot hslot) ((List.forall₂_iff_zip.mp hread).2 hpair)
      (Except.anyM_eq_false hrefs _ (List.of_mem_zip hpair).1)
  refine ⟨id_accepted htextual.requirementId hrequirement, id_accepted htextual.taskId htask,
    id_accepted htextual.executionId hexecution, ?_⟩
  rw [harray]
  refine accepts_all.mpr ?_
  simp only [List.forall_mem_cons]
  refine ⟨rfl, ?_, ?_, references_distinct hnamed ?_, by simp⟩
  · simp only [accepts, onArray, List.all_eq_true]
    intro v hv
    obtain ⟨_, -, ref, hv, -⟩ := forall₂_left hnamed v hv
    exact reference_accepted hv
  · simp only [accepts, onArray, decide_eq_true_eq, List.length_map]
    refine List.length_pos_iff.mpr fun hnil => ?_
    rw [hnil] at hsome
    cases hsome
  · have hboth := Except.ok.inj hdistinct
    rw [Bool.not_eq_false', Bool.and_eq_true, decide_eq_true_eq] at hboth
    exact hboth.1

end Request

section Response

variable {formats : Format → JsString → Bool} {reading : IntegerReading} {o : RunOutcome}
  {r : Response}

theorem accepts_constBool {b : Bool} : accepts formats (constBool b) (.bool b) = true := by
  simp [constBool, accepts, JsValue.deepEqual]

theorem accepts_constText {text : String} :
    accepts formats (constText text) (.string (js text)) = true :=
  accepts_const.mpr rfl

theorem namedRecord_property {members : List (String × JsValue)} {name : String} {v : JsValue}
    (hnodup : (members.map fun m => js m.1).Nodup) (h : (name, v) ∈ members) :
    (namedRecord members).property (js name) = v := by
  rw [namedRecord, JsValue.property]
  exact @namedProps_get members hnodup (name, v) h

theorem parsedResponse_property {name : String} {v : JsValue}
    (h : (name, v) ∈ responseMembers reading r) :
    (parsedResponse reading r).property (js name) = v := by
  refine namedRecord_property ?_ h
  change (["status", "exitCode", "reason", "stdoutBase64", "stderrBase64", "durationMs", "code",
    "message", "rootProcessId", "cpuTimeMs", "memoryPeakBytes", "processPeakCount",
    "activeProcessCountAfterCompletion", "descendantTerminationVerified"].map js).Nodup
  decide

structure NormalResponse (o : RunOutcome) (r : Response) : Prop where
  status : r.status =
    if (reasonText o.terminationReason).isNone then js "COMPLETED" else js "TERMINATED"
  exitCode : r.exitCode = if (reasonText o.terminationReason).isNone then some o.exitCode else none
  reason : r.reason = reasonText o.terminationReason
  usage : r.durationMs = o.elapsedMilliseconds ∧ r.cpuTimeMs = o.cpuTimeMs ∧
    r.memoryPeakBytes = o.memoryPeakBytes ∧ r.processPeakCount = o.processPeakCount
  rootProcessId : r.rootProcessId = o.processId
  processId_le : o.processId.toNat ≤ 2147483647
  active : r.activeProcessCountAfterCompletion = 0

theorem runResponse_normal (h : runResponse o = some r) : NormalResponse o r := by
  rw [runResponse] at h
  split at h
  · cases h
  · rename_i hnormal
    obtain ⟨hactive, hprocess⟩ := not_or.mp hnormal
    obtain rfl := Option.some.inj h
    exact ⟨rfl, rfl, rfl, ⟨rfl, rfl, rfl, rfl⟩, rfl, Nat.not_lt.mp hprocess, not_not.mp hactive⟩

structure NonNegativeUsage (o : RunOutcome) : Prop where
  elapsed : 0 ≤ o.elapsedMilliseconds.toInt
  cpuTime : 0 ≤ o.cpuTimeMs.toInt
  memoryPeak : 0 ≤ o.memoryPeakBytes.toInt
  processPeak : 0 ≤ o.processPeakCount.toInt

theorem usage_accepted {host : EvidenceHost} (h : NormalResponse o r)
    (husage : NonNegativeUsage o) :
    accepts formats resourceUsage (usage host (parsedResponse reading r)) = true := by
  obtain ⟨helapsed, hcpu, hmemory, hpeak⟩ := h.usage
  refine accepts_closedObject (by decide) ?_
  rw [parsedResponse_property (v := readInteger reading r.cpuTimeMs.toInt)
      (by simp [responseMembers]),
    parsedResponse_property (v := readInteger reading r.memoryPeakBytes.toInt)
      (by simp [responseMembers]),
    parsedResponse_property (v := readInteger reading r.processPeakCount.toInt)
      (by simp [responseMembers]),
    parsedResponse_property (v := readInteger reading r.durationMs.toInt)
      (by simp [responseMembers]), helapsed, hcpu, hmemory, hpeak]
  refine .cons ⟨rfl, nofun, accepts_read (by decide) husage.cpuTime⟩ <|
    .cons ⟨rfl, nofun, accepts_read (by decide) husage.memoryPeak⟩ <|
    .cons ⟨rfl, nofun, accepts_read (by decide) husage.processPeak⟩ <|
    .cons ⟨rfl, nofun, accepts_read (by decide) husage.elapsed⟩ <|
    .cons ⟨rfl, nofun, accepts_count _ host.lengths_lt.1⟩ <|
    .cons ⟨rfl, nofun, accepts_count _ host.lengths_lt.2⟩ .nil

theorem processId_toInt (h : NormalResponse o r) : o.processId.toInt = o.processId.toNat := by
  have hle := h.processId_le
  rw [BitVec.toInt_eq_toNat_of_lt]
  omega

theorem processId_value (h : NormalResponse o r) :
    (reading.double r.rootProcessId.toInt).value = o.processId.toNat := by
  have hle := h.processId_le
  rw [h.rootProcessId, processId_toInt h, reading.exact]
  · rfl
  · rw [abs_of_nonneg (Int.natCast_nonneg _)]
    omega

theorem processId_pos (hprocess : o.processId ≠ 0) : 1 ≤ o.processId.toNat := by
  have hne : o.processId.toNat ≠ 0 := fun hzero => hprocess (BitVec.eq_of_toNat_eq hzero)
  omega

theorem processTree_accepted (h : NormalResponse o r) (hprocess : o.processId ≠ 0) :
    accepts formats Schema.processTree (processTree (parsedResponse reading r)) = true := by
  refine accepts_closedObject (by decide) ?_
  rw [parsedResponse_property (v := readInteger reading r.rootProcessId.toInt)
      (by simp [responseMembers]),
    parsedResponse_property (v := .bool r.descendantTerminationVerified)
      (by simp [responseMembers])]
  refine .cons ⟨rfl, nofun, accepts_integerFrom ?_ ?_⟩ <|
    .cons ⟨rfl, nofun, accepts_constBool⟩ <|
    .cons ⟨rfl, nofun, accepts_constBool⟩ <| .cons ⟨rfl, nofun, rfl⟩ <|
    .cons ⟨rfl, nofun, ?_⟩ .nil
  · exact reading.integral _ (toInt_range (by decide) _)
  · rw [processId_value h]
    exact_mod_cast processId_pos hprocess
  · simp [accepts, countValue, JsValue.deepEqual, JsNumber.same, JsNumber.ofInt, Double.ofInt]

theorem isTextOf_string {text : String} {s : JsString} :
    isTextOf text (.string s) = true ↔ s = js text := by
  simp [isTextOf]

def resultMembers (outcome : JsString) (exitCode : JsValue) (terminationReason : JsString)
    (reasonCodes : JsValue) : List (String × JsValue) :=
  [("outcome", .string outcome), ("exitCode", exitCode),
    ("terminationReason", .string terminationReason), ("processTreeTerminated", .bool true),
    ("reasonCodes", reasonCodes)]

theorem resultMembers_get {outcome reason : JsString} {exitCode codes v : JsValue} {name : String}
    (h : (name, v) ∈ resultMembers outcome exitCode reason codes) :
    (namedProps (resultMembers outcome exitCode reason codes)).get (js name) = v := by
  have hnames : (["outcome", "exitCode", "terminationReason", "processTreeTerminated",
    "reasonCodes"].map js).Nodup := by decide
  exact @namedProps_get (resultMembers outcome exitCode reason codes) hnames (name, v) h

def completedMembers (exitCode : JsValue) : List (String × JsValue) :=
  resultMembers (js (if isNumber 0 exitCode then "SUCCEEDED" else "FAILED")) exitCode (js "EXITED")
    (.ofStrings (if isNumber 0 exitCode then [] else [js "PROCESS_EXITED"]))

theorem evidenceResult_completed (h : NormalResponse o r)
    (hcompleted : reasonText o.terminationReason = none) :
    evidenceResult (parsedResponse reading r) =
      namedRecord (completedMembers (readInteger reading o.exitCode.toInt)) := by
  have hstatus : (parsedResponse reading r).property (js "status") = .string (js "COMPLETED") := by
    rw [parsedResponse_property (v := .string r.status) (by simp [responseMembers]), h.status,
      hcompleted]
    rfl
  have hexit : (parsedResponse reading r).property (js "exitCode") =
      readInteger reading o.exitCode.toInt := by
    rw [parsedResponse_property
      (v := orNull (r.exitCode.map fun n => readInteger reading n.toInt))
      (by simp [responseMembers]), h.exitCode, hcompleted]
    rfl
  have hreason : terminationReason (parsedResponse reading r) = "EXITED" := by
    rw [terminationReason, hstatus, if_pos (isTextOf_string.mpr rfl)]
  rw [evidenceResult, hreason, hstatus, hexit, isTextOf_string.mpr rfl, Bool.true_and]
  rw [exitCodeMember, hexit]
  rfl

theorem evidenceResult_members : ∃ succeeded codes,
    evidenceResult (parsedResponse reading r) = namedRecord
      (resultMembers (js (outcomeText succeeded (terminationReason (parsedResponse reading r))))
        (orNull (r.exitCode.map fun n => readInteger reading n.toInt))
        (js (terminationReason (parsedResponse reading r))) codes) := by
  have hexit : (parsedResponse reading r).property (js "exitCode") =
      orNull (r.exitCode.map fun n => readInteger reading n.toInt) :=
    parsedResponse_property (by simp [responseMembers])
  rw [evidenceResult, exitCodeMember, hexit]
  cases r.exitCode <;> exact ⟨_, _, rfl⟩

theorem evidenceResult_terminated (h : NormalResponse o r) {reason : JsString}
    (hreason : reasonText o.terminationReason = some reason) :
    ∃ members, evidenceResult (parsedResponse reading r) = namedRecord members ∧
      (namedProps members).get (js "exitCode") = .null := by
  obtain ⟨succeeded, codes, hmembers⟩ := @evidenceResult_members reading r
  rw [h.exitCode, hreason] at hmembers
  exact ⟨_, hmembers, resultMembers_get (by simp [resultMembers, orNull])⟩

theorem stableCode_exited : accepts formats stableCode (.string (js "PROCESS_EXITED")) = true := by
  have hpattern : Pattern.stableCode.test (js "PROCESS_EXITED") = true := by decide
  have hlength : (js "PROCESS_EXITED").codePoints = 14 := by decide
  simp [stableCode, accepts, acceptsAll, hasType, onString, hpattern, hlength]

theorem result_accepted (h : NormalResponse o r)
    (hcompleted : reasonText o.terminationReason = none) :
    accepts formats isolationResult (evidenceResult (parsedResponse reading r)) = true := by
  rw [evidenceResult_completed h hcompleted]
  refine accepts_closedObject (by decide) ?_
  refine .cons ⟨rfl, nofun, accepts_enum.mpr ?_⟩ <| .cons ⟨rfl, nofun, ?_⟩ <|
    .cons ⟨rfl, nofun, accepts_enum.mpr (by simp)⟩ <| .cons ⟨rfl, nofun, accepts_constBool⟩ <|
    .cons ⟨rfl, nofun, accepts_uniqueStrings ?_ fun s hs => ?_⟩ .nil
  · split <;> simp
  · simpa [readInteger, accepts, hasType] using
      reading.integral _ (toInt_range (by decide) o.exitCode)
  · split <;> simp
  · split at hs
    · cases hs
    · rw [List.mem_singleton.mp hs]
      exact stableCode_exited

section Conditions

variable {props result : Props} {outcome : JsString}

theorem succeededCondition_iff (hresult : props.get (js "result") = .object true result)
    (houtcome : result.get (js "outcome") = .string outcome) :
    accepts formats succeededCondition (.object true props) = true ↔
      outcome = js "SUCCEEDED" := by
  simp [succeededCondition, accepts, acceptsAll, acceptsProperties, onObject, hresult, houtcome,
    constText, JsValue.isDefined, JsValue.deepEqual]

theorem accepts_result {schema : Schema} (hresult : props.get (js "result") = .object true result)
    (h : accepts formats schema (.object true result) = true) :
    accepts formats (.properties [("result", schema)]) (.object true props) = true := by
  simp [accepts, onObject, acceptsProperties, hresult, h]

theorem clauses_accepted (h : NormalResponse o r)
    (hcompleted : reasonText o.terminationReason = none)
    (hresult : props.get (js "result") = evidenceResult (parsedResponse reading r)) :
    accepts formats (.ifThen succeededCondition succeededConsequence) (.object true props) = true ∧
      accepts formats (.ifElse succeededCondition failedConsequence) (.object true props) =
        true := by
  rw [evidenceResult_completed h hcompleted] at hresult
  set exitCode := readInteger reading o.exitCode.toInt with hexit
  have houtcome : (namedProps (completedMembers exitCode)).get (js "outcome") =
    .string (js (if isNumber 0 exitCode then "SUCCEEDED" else "FAILED")) :=
      resultMembers_get List.mem_cons_self
  have hcode : (namedProps (completedMembers exitCode)).get (js "exitCode") =
    .number (.finite (reading.double o.exitCode.toInt)) :=
      resultMembers_get (by simp [resultMembers, hexit, readInteger])
  have hreason : (namedProps (completedMembers exitCode)).get (js "terminationReason") =
    .string (js "EXITED") := resultMembers_get (by simp [resultMembers])
  have hcodes : (namedProps (completedMembers exitCode)).get (js "reasonCodes") =
    .ofStrings (if isNumber 0 exitCode then [] else [js "PROCESS_EXITED"]) :=
      resultMembers_get (by simp [resultMembers])
  cases hsucceeded : isNumber 0 exitCode with
  | true =>
    rw [hsucceeded, if_pos rfl] at houtcome hcodes
    have hcondition := (@succeededCondition_iff formats props _ _ hresult houtcome).mpr rfl
    refine ⟨accepts_ifThen.mpr fun _ => accepts_result hresult ?_,
      accepts_ifElse.mpr fun hfalse => absurd (hfalse.symm.trans hcondition) Bool.false_ne_true⟩
    have hzero : (reading.double o.exitCode.toInt).value = 0 := by
      simpa [hexit, readInteger, isNumber] using hsucceeded
    simp [accepts, acceptsAll, acceptsProperties, onObject, onArray, hcode, hreason, hcodes,
      JsValue.isDefined, constText, JsValue.deepEqual, JsValue.ofStrings,
      JsNumber.same, JsNumber.ofInt, Double.ofInt, hzero]
  | false =>
    rw [hsucceeded, if_neg Bool.false_ne_true] at houtcome hcodes
    have hcondition : accepts formats succeededCondition (.object true props) ≠ true := by
      rw [ne_eq, succeededCondition_iff hresult houtcome]
      decide
    refine ⟨accepts_ifThen.mpr fun htrue => absurd htrue hcondition,
      accepts_ifElse.mpr fun _ => accepts_result hresult ?_⟩
    simp [accepts, acceptsProperties, onObject, onArray, hcodes, JsValue.ofStrings]

end Conditions

end Response

section Evidence

variable {formats : Policy.ContractFormats} {runtime : AdapterRuntime} {reading : IntegerReading}
  {host : EvidenceHost} {request : Props} {tool : TrustedToolDescriptor}
  {prepared : Except RequestError CanonicalPaths} {paths : CanonicalPaths} {o : RunOutcome}
  {r : Response}

theorem uuid_accepted {check : Format → JsString → Bool} (source : IdentitySource) :
    accepts check Schema.uuidV7 (.string source.next) = true :=
  accepts_pattern.mpr
    (Identity.uuidText_matches (Identity.version_digit (source.random 6))
      (Identity.variant_digit (source.random 8)))

theorem time_accepted (instant : DateTime.UtcInstant) :
    accepts formats.check dateTime (.string (DateTime.toISOString instant)) = true := by
  rw [accepts_dateTime, formats.dateTime, DateTime.validDateTime,
    DateTime.rfc3339DateTime_toISOString, Option.any_some, DateTime.calendarValid_utc,
    Bool.true_and, Bool.or_eq_true, decide_eq_true_eq]
  exact .inl (Nat.lt_succ_of_le instant.second_le)

theorem guarantees_accepted {check : Format → JsString → Bool} (report probe : IdentitySource) :
    accepts check processRestrictedGuarantees
      (capabilityReport .available report probe).guarantees = true := by
  refine accepts_closedObject (by decide) ?_
  exact .cons ⟨rfl, nofun, accepts_constBool⟩ <| .cons ⟨rfl, nofun, accepts_constBool⟩ <|
    .cons ⟨rfl, nofun, accepts_constBool⟩ <| .cons ⟨rfl, nofun, accepts_constBool⟩ <|
    .cons ⟨rfl, nofun, accepts_constBool⟩ <| .cons ⟨rfl, nofun, accepts_constBool⟩ .nil

theorem createEvidence_eq {capability : IsolationCapabilityReport} (h : NormalResponse o r)
    (hprocess : o.processId ≠ 0) :
    createEvidence host request capability (parsedResponse reading r) =
      .ok (namedRecord (evidenceMembers host request capability (parsedResponse reading r))) := by
  have hroot : (parsedResponse reading r).property (js "rootProcessId") =
      readInteger reading r.rootProcessId.toInt :=
    parsedResponse_property (by simp [responseMembers])
  have hactive : (parsedResponse reading r).property
      (js "activeProcessCountAfterCompletion") = readInteger reading 0 := by
    rw [parsedResponse_property
      (v := readInteger reading r.activeProcessCountAfterCompletion.toInt)
      (by simp [responseMembers]), h.active]
    rfl
  have hone : ¬ (reading.double r.rootProcessId.toInt).value < 1 := by
    rw [processId_value h]
    exact_mod_cast Nat.not_lt.mpr (processId_pos hprocess)
  have hzero : (reading.double 0).value = 0 := reading.exact 0 (by decide)
  simp [createEvidence, hroot, hactive, readInteger, JsValue.isDefined, belowOne, isNumber, hone,
    hzero]

theorem members_nodup {capability : IsolationCapabilityReport} {response : JsValue} :
    ((evidenceMembers host request capability response).map fun m => js m.1).Nodup := by
  change (["schemaVersion", "evidenceId", "requirementId", "capabilityReportId", "taskId",
    "executionId", "providerId", "providerVersion", "probeId", "selectedIsolationLevel",
    "downgradeOccurred", "budgets", "usage", "processTree", "guarantees", "result",
    "evidenceRefs", "startedAt", "completedAt"].map js).Nodup
  decide

theorem members_get {capability : IsolationCapabilityReport} {response v : JsValue} {name : String}
    (h : (name, v) ∈ evidenceMembers host request capability response) :
    (namedProps (evidenceMembers host request capability response)).get (js name) = v :=
  @namedProps_get (evidenceMembers host request capability response) members_nodup (name, v) h

theorem validateRequestShape_budgets (h : validateRequestShape runtime request = .ok ()) :
    hasExactKeys (request.get (js "limits")) budgetKeys = true := by
  simp only [validateRequestShape, Except.bind_eq_ok, refuseWhen_eq_ok, Bool.not_eq_false',
    Bool.and_eq_true] at h
  obtain ⟨_, -, ⟨⟨⟨⟨_, hkeys⟩, -⟩, -⟩, -⟩, -⟩ := h
  exact hkeys

theorem completed_accepted {report probe : IdentitySource}
    (hrequest : Validated runtime request paths prepared) (h : NormalResponse o r)
    (htextual : TextualContext (request.get (js "evidenceContext")))
    (husage : NonNegativeUsage o) (hprocess : o.processId ≠ 0)
    (hcompleted : reasonText o.terminationReason = none) :
    accepts formats.check isolationEvidence (namedRecord (evidenceMembers host request
      (capabilityReport .available report probe) (parsedResponse reading r))) = true := by
  obtain ⟨limits, hlimits⟩ := validateLimits_admitted hrequest.limits
  have hbudgets := @budgets_accepted formats.check _ _
    (validateRequestShape_budgets hrequest.shape) hlimits
  have hcontext := @validateEvidenceContext_checked formats.check _ _ hrequest.evidenceContext
    htextual
  have hclauses := @clauses_accepted formats.check reading o r
    (namedProps (evidenceMembers host request (capabilityReport .available report probe)
      (parsedResponse reading r))) h hcompleted (members_get (by simp [evidenceMembers]))
  refine accepts_all.mpr ?_
  simp only [List.forall_mem_cons]
  refine ⟨accepts_closedObject (by decide) ?_, hclauses.1, hclauses.2, by simp⟩
  refine .cons ⟨rfl, (by rintro ⟨⟩), accepts_constText⟩ <|
    .cons ⟨rfl, (by rintro ⟨⟩), uuid_accepted _⟩ <|
    .cons ⟨rfl, defined_of_type hcontext.requirementId, hcontext.requirementId⟩ <|
    .cons ⟨rfl, (by rintro ⟨⟩), uuid_accepted _⟩ <|
    .cons ⟨rfl, defined_of_type hcontext.taskId, hcontext.taskId⟩ <|
    .cons ⟨rfl, defined_of_type hcontext.executionId, hcontext.executionId⟩ <|
    .cons ⟨rfl, (by rintro ⟨⟩), accepts_constText⟩ <|
    .cons ⟨rfl, (by rintro ⟨⟩), accepts_constText⟩ <|
    .cons ⟨rfl, (by rintro ⟨⟩), uuid_accepted _⟩ <|
    .cons ⟨rfl, (by rintro ⟨⟩), accepts_constText⟩ <|
    .cons ⟨rfl, (by rintro ⟨⟩), accepts_constBool⟩ <|
    .cons ⟨rfl, defined_of_type hbudgets, hbudgets⟩ <|
    .cons ⟨rfl, (by rintro ⟨⟩), usage_accepted h husage⟩ <|
    .cons ⟨rfl, (by rintro ⟨⟩), processTree_accepted h hprocess⟩ <|
    .cons ⟨rfl, (by rintro ⟨⟩), guarantees_accepted report probe⟩ <|
    .cons ⟨rfl, (by rintro ⟨⟩), result_accepted h hcompleted⟩ <|
    .cons ⟨rfl, defined_of_type hcontext.evidenceRefs, hcontext.evidenceRefs⟩ <|
    .cons ⟨rfl, (by rintro ⟨⟩), time_accepted _⟩ <|
    .cons ⟨rfl, (by rintro ⟨⟩), time_accepted _⟩ .nil

theorem text_of_accepted {check : Format → JsString → Bool} {keywords : List Schema} {v : JsValue}
    (h : accepts check (.all (.type .string :: keywords)) v = true) : isText v = true := by
  obtain ⟨s, rfl⟩ := accepts_type_string h
  rfl

theorem reference_textual {check : Format → JsString → Bool} {v : JsValue}
    (h : accepts check subjectRef v = true) : TextualReference v := by
  have htype := accepts_all.mp h (.type .object) (by simp)
  cases v with
  | object plain props =>
    change accepts check (closedObject [("subjectType", canonicalTypeName),
      ("subjectId", boundedString 1 256), ("subjectVersion", boundedString 1 128)]
      ["subjectVersion"]) _ = true at h
    refine ⟨rfl, text_of_accepted (closedObject_required List.mem_cons_self (by decide) h),
      text_of_accepted (@closedObject_required _ _ _ _ _ ("subjectId", boundedString 1 256)
        (by simp) (by decide) h), ?_⟩
    exact (@closedObject_property _ _ _ _ _ ("subjectVersion", boundedString 1 128) (by simp)
      h).imp id text_of_accepted
  | _ => cases htype

theorem accepted_textual {capability : IsolationCapabilityReport} {response : JsValue}
    {check : Format → JsString → Bool}
    (h : accepts check isolationEvidence
      (namedRecord (evidenceMembers host request capability response)) = true) :
    TextualContext (request.get (js "evidenceContext")) := by
  have hclosed := accepts_all.mp h _ List.mem_cons_self
  have hmember {name : String} {schema : Schema} (hschema : (name, schema) ∈ _)
      (hv : (name, (request.get (js "evidenceContext")).property (js name)) ∈
        evidenceMembers host request capability response) :
      accepts check schema ((request.get (js "evidenceContext")).property (js name)) = true :=
    members_get hv ▸ closedObject_required hschema List.not_mem_nil hclosed
  have hrequirement := @hmember "requirementId" Schema.uuidV7 (by simp) (by simp [evidenceMembers])
  have htask := @hmember "taskId" Schema.uuidV7 (by simp) (by simp [evidenceMembers])
  have hexecution := @hmember "executionId" Schema.uuidV7 (by simp) (by simp [evidenceMembers])
  have hrefs := @hmember "evidenceRefs"
    (.all [.type .array, .items subjectRef, .minItems 1, .uniqueItems]) (by simp)
    (by simp [evidenceMembers])
  refine ⟨text_of_accepted hrequirement, text_of_accepted htask, text_of_accepted hexecution,
    fun slots extra harray slot hslot => @reference_textual check _ ?_⟩
  rw [harray] at hrefs
  have hitems := accepts_all.mp hrefs (.items subjectRef) (by simp)
  simp only [accepts, onArray, List.all_eq_true] at hitems
  exact hitems _ (List.mem_map_of_mem hslot)

theorem terminated_refused {capability : IsolationCapabilityReport} {reason : JsString}
    {check : Format → JsString → Bool} (h : NormalResponse o r)
    (hreason : reasonText o.terminationReason = some reason) :
    accepts check isolationEvidence (namedRecord (evidenceMembers host request capability
      (parsedResponse reading r))) = false := by
  obtain ⟨members, hmembers, hexit⟩ :=
    @evidenceResult_terminated reading o r h reason hreason
  have hresult := @members_get host request capability (parsedResponse reading r)
    (evidenceResult (parsedResponse reading r)) "result" (by simp [evidenceMembers])
  have hrefused : accepts check isolationResult (.object true (namedProps members)) = false := by
    refine @closedObject_refuses check _ _ _ _ ("exitCode", .type .integer) (by simp) ?_ ?_
    · rw [hexit]
      nofun
    · rw [hexit]
      rfl
  refine Bool.eq_false_iff.mpr fun haccepts => ?_
  have hclosed := accepts_all.mp haccepts _ List.mem_cons_self
  refine Bool.false_ne_true (Eq.trans (Eq.symm ?_) hclosed)
  refine @closedObject_refuses check _ _ _ _ ("result", isolationResult) (by simp) ?_ ?_
  · rw [hresult, hmembers]
    nofun
  · rw [hresult, hmembers]
    exact hrefused

end Evidence

-- The bridge ended the run, for one of its seven reasons.
def Terminated (o : RunOutcome) : Prop := 1 ≤ o.terminationReason ∧ o.terminationReason ≤ 7

theorem reasonText_eq_none_iff {o : RunOutcome} :
    reasonText o.terminationReason = none ↔ ¬ Terminated o := by
  rw [reasonText, Terminated]
  grind

theorem evidence_satisfies_schema (formats : Policy.ContractFormats) (runtime : AdapterRuntime)
    (reading : IntegerReading) (host : EvidenceHost) (request : Props)
    (tool : TrustedToolDescriptor) (prepared : Except RequestError CanonicalPaths)
    (paths : CanonicalPaths) (report probe : IdentitySource) (o : RunOutcome) (r : Response)
    (hrequest : validateRequest runtime request tool prepared = .ok paths)
    (hresponse : runResponse o = some r) (husage : NonNegativeUsage o)
    (hprocess : o.processId ≠ 0) :
    ∃ evidence,
      createEvidence host request (capabilityReport .available report probe)
        (parsedResponse reading r) = .ok evidence ∧
      (accepts formats.check isolationEvidence evidence = true ↔
        ¬ Terminated o ∧ TextualContext (request.get (js "evidenceContext"))) := by
  have h := runResponse_normal hresponse
  have hvalidated := validateRequest_validated hrequest
  refine ⟨_, createEvidence_eq h hprocess, fun haccepts => ⟨fun hterminated => ?_, ?_⟩, ?_⟩
  · obtain ⟨reason, hreason⟩ := Option.ne_none_iff_exists'.mp
      (mt reasonText_eq_none_iff.mp (not_not.mpr hterminated))
    rw [terminated_refused h hreason] at haccepts
    cases haccepts
  · exact accepted_textual haccepts
  · rintro ⟨hcompleted, htextual⟩
    exact completed_accepted hvalidated h htextual husage hprocess
      (reasonText_eq_none_iff.mpr hcompleted)

section Samples

def sampleReading : IntegerReading where
  double n := if h : |n| < 2 ^ 53 then .ofInt n h else .ofInt 0 zero_exact
  integral n _ := by split <;> exact Rat.den_intCast _
  nonneg n hn := by
    split
    · exact Int.cast_nonneg hn
    · exact le_rfl
  exact n hn := by rw [dif_pos hn]; rfl

def sampleSource : IdentitySource := ⟨1752000000000, fun _ => 7⟩

theorem sample_year_le : 2026 ≤ 9999 := by decide

theorem sample_month_le : 1 ≤ 1 ∧ 1 ≤ 12 := by decide

def sampleInstant : DateTime.UtcInstant where
  year := 2026
  month := 1
  day := 15
  hour := 12
  minute := 0
  second := 0
  millisecond := 0
  year_le := sample_year_le
  month_le := sample_month_le
  day_le := by decide
  hour_le := by decide
  minute_le := by decide
  second_le := by decide
  millisecond_le := by decide

def sampleHost : EvidenceHost := ⟨sampleSource, sampleInstant, sampleInstant, 2, 0, by decide⟩

def sampleEvidenceRequest : Props :=
  adapterRequest (sampleRequest (.ofInt 65536 two_pow_sixteen_exact))

def sampleOutcome (terminationReason : ℤ) : RunOutcome where
  terminationReason := terminationReason
  exitCode := 0
  stdoutBase64 := js "b2s="
  stderrBase64 := []
  elapsedMilliseconds := 120
  processId := 4242
  cpuTimeMs := 15
  memoryPeakBytes := 4194304
  processPeakCount := 1
  activeProcessCount := 0

def sampleResponse (terminationReason : ℤ) : Response :=
  (runResponse (sampleOutcome terminationReason)).getD ⟨[], none, none, none, none, 0, none, none,
    0, 0, 0, 0, 0, false⟩

theorem sample_textual : TextualContext (sampleEvidenceRequest.get (js "evidenceContext")) := by
  refine ⟨rfl, rfl, rfl, ?_⟩
  rintro slots extra ⟨⟩
  rw [List.forall_mem_singleton]
  exact ⟨rfl, rfl, rfl, .inl rfl⟩

theorem sample_evidence_satisfies_schema :
    ∃ evidence,
      createEvidence sampleHost sampleEvidenceRequest
        (capabilityReport .available sampleSource sampleSource)
        (parsedResponse sampleReading (sampleResponse 0)) = .ok evidence ∧
      accepts Policy.contractFormats.check isolationEvidence evidence = true := by
  obtain ⟨evidence, hcreated, haccepts⟩ := evidence_satisfies_schema Policy.contractFormats
    sampleAdapter sampleReading sampleHost sampleEvidenceRequest sampleTool (.ok samplePaths)
    samplePaths sampleSource sampleSource (sampleOutcome 0) (sampleResponse 0) (by decide) rfl
    ⟨by decide, by decide, by decide, by decide⟩ (by decide)
  exact ⟨evidence, hcreated, haccepts.mpr ⟨fun h => absurd h.1 (by decide), sample_textual⟩⟩

theorem terminated_run_refused :
    validateRequest sampleAdapter sampleEvidenceRequest sampleTool (.ok samplePaths) =
        .ok samplePaths ∧
      runResponse (sampleOutcome 1) = some (sampleResponse 1) ∧
      NonNegativeUsage (sampleOutcome 1) ∧
      ∃ evidence,
        createEvidence sampleHost sampleEvidenceRequest
          (capabilityReport .available sampleSource sampleSource)
          (parsedResponse sampleReading (sampleResponse 1)) = .ok evidence ∧
        accepts Policy.contractFormats.check isolationEvidence evidence = false := by
  have h : NormalResponse (sampleOutcome 1) (sampleResponse 1) := runResponse_normal rfl
  exact ⟨by decide, rfl, ⟨by decide, by decide, by decide, by decide⟩, _,
    createEvidence_eq h (by decide), @terminated_refused sampleReading sampleHost
      sampleEvidenceRequest (sampleOutcome 1) (sampleResponse 1) _ (js "WALL_CLOCK_LIMIT") _ h rfl⟩

def numericRequest : Props :=
  sampleEvidenceRequest.map fun p =>
    if p.1 = .own (js "evidenceContext") then
      (p.1, .record [(js "requirementId", .string sampleId), (js "taskId", .string sampleId),
        (js "executionId", .string sampleId),
        (js "evidenceRefs", .array [(.data, .record [(js "subjectType", .string (js "Task")),
          (js "subjectId", .number (.ofInt 5 (by decide)))])] [])])
    else p

theorem numeric_subject_refused :
    validateRequest sampleAdapter numericRequest sampleTool (.ok samplePaths) = .ok samplePaths ∧
      ∃ evidence,
        createEvidence sampleHost numericRequest
          (capabilityReport .available sampleSource sampleSource)
          (parsedResponse sampleReading (sampleResponse 0)) = .ok evidence ∧
        accepts Policy.contractFormats.check isolationEvidence evidence = false := by
  have h : NormalResponse (sampleOutcome 0) (sampleResponse 0) := runResponse_normal rfl
  refine ⟨by decide, _, createEvidence_eq h (by decide), Bool.eq_false_iff.mpr fun haccepts => ?_⟩
  have hreference := (accepted_textual haccepts).evidenceRefs _ _ rfl _ List.mem_cons_self
  exact Bool.false_ne_true hreference.subjectId

end Samples

end Aseos.Isolation
