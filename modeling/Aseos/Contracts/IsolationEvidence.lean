import Aseos.Contracts.Common
import Aseos.Js.Rearrangement

namespace Aseos

namespace Schema

def integerFrom (minimum : ℤ) : Schema := .all [.type .integer, .minimum minimum]

def integerBetween (minimum maximum : ℤ) : Schema :=
  .all [.type .integer, .minimum minimum, .maximum maximum]

def constText (text : String) : Schema := .const (.string (js text))

def constBool (b : Bool) : Schema := .const (.bool b)

def closedObject (schemas : List (String × Schema)) (optional : List String) : Schema :=
  .all [.type .object, .closed (schemas.map Prod.fst),
    .required ((schemas.map Prod.fst).filter (· ∉ optional)), .properties schemas]

-- urn:aseos:schema:isolation-evidence:1.0.0#/$defs
def resourceBudgets : Schema :=
  closedObject [("maxCpuTimeMs", integerFrom 1), ("maxMemoryBytes", integerFrom 1048576),
    ("maxProcessCount", integerBetween 1 256), ("maxWallClockMs", integerBetween 1 86400000),
    ("maxStdoutBytes", integerFrom 0), ("maxStderrBytes", integerFrom 0)] []

def processRestrictedGuarantees : Schema :=
  closedObject [("processTreeLifecycleContained", constBool true),
    ("resourceBudgetsEnforced", constBool true), ("networkAccessDenied", constBool false),
    ("filesystemAccessDenied", constBool false), ("registryAccessDenied", constBool false),
    ("securitySandbox", constBool false)] []

def processTree : Schema :=
  closedObject [("rootProcessId", integerFrom 1), ("jobObjectAssigned", constBool true),
    ("killOnJobClose", constBool true), ("descendantTerminationVerified", .type .boolean),
    ("activeProcessCountAfterCompletion", .const (.number (.ofInt 0 zero_exact)))] []

def resourceUsage : Schema :=
  closedObject [("cpuTimeMs", integerFrom 0), ("memoryPeakBytes", integerFrom 0),
    ("processPeakCount", integerFrom 0), ("wallClockMs", integerFrom 0),
    ("stdoutBytes", integerFrom 0), ("stderrBytes", integerFrom 0)] []

def isolationResult : Schema :=
  closedObject [("outcome", .enum [js "SUCCEEDED", js "FAILED", js "CANCELLED", js "TIMED_OUT"]),
    ("exitCode", .type .integer),
    ("terminationReason", .enum [js "EXITED", js "CANCELLED", js "WALL_CLOCK_LIMIT",
      js "CPU_LIMIT", js "MEMORY_LIMIT", js "PROCESS_COUNT_LIMIT", js "OUTPUT_LIMIT"]),
    ("processTreeTerminated", constBool true), ("reasonCodes", uniqueArray stableCode)]
    ["exitCode"]

def succeededCondition : Schema :=
  .all [.properties [("result", .all [.properties [("outcome", constText "SUCCEEDED")],
    .required ["outcome"]])], .required ["result"]]

def succeededConsequence : Schema :=
  .properties [("result", .all [.required ["exitCode"],
    .properties [("exitCode", .const (.number (.ofInt 0 zero_exact))),
      ("terminationReason", constText "EXITED"), ("reasonCodes", .maxItems 0)]])]

def failedConsequence : Schema :=
  .properties [("result", .properties [("reasonCodes", .minItems 1)])]

-- urn:aseos:schema:isolation-evidence:1.0.0
def isolationEvidence : Schema :=
  .all [closedObject [("schemaVersion", constText "1.0.0"), ("evidenceId", uuidV7),
      ("requirementId", uuidV7), ("capabilityReportId", uuidV7), ("taskId", uuidV7),
      ("executionId", uuidV7), ("providerId", constText "aseos.windows-job-object"),
      ("providerVersion", constText "1.0.0"), ("probeId", uuidV7),
      ("selectedIsolationLevel", constText "PROCESS_RESTRICTED"),
      ("downgradeOccurred", constBool false), ("budgets", resourceBudgets),
      ("usage", resourceUsage), ("processTree", processTree),
      ("guarantees", processRestrictedGuarantees), ("result", isolationResult),
      ("evidenceRefs", .all [.type .array, .items subjectRef, .minItems 1, .uniqueItems]),
      ("startedAt", dateTime), ("completedAt", dateTime)] [],
    .ifThen succeededCondition succeededConsequence,
    .ifElse succeededCondition failedConsequence]

end Schema

section Records

open Schema

variable {formats : Format → JsString → Bool} {schemas : List (String × Schema)}
  {members : List (String × JsValue)}

def namedProps (members : List (String × JsValue)) : Props :=
  members.map fun m => (Field.own (js m.1), m.2)

def namedRecord (members : List (String × JsValue)) : JsValue := .object true (namedProps members)

theorem namedProps_get (hnodup : (members.map fun m => js m.1).Nodup) {m : String × JsValue}
    (hm : m ∈ members) : (namedProps members).get (js m.1) = m.2 := by
  induction members with
  | nil => cases hm
  | cons first members ih =>
    obtain ⟨hfirst, hrest⟩ := List.nodup_cons.mp hnodup
    rw [namedProps, List.map_cons, Props.get_cons]
    obtain rfl | hm := List.mem_cons.mp hm
    · exact if_pos rfl
    · rw [if_neg]
      · exact ih hrest hm
      · intro heq
        refine hfirst (List.mem_map.mpr ⟨m, hm, ?_⟩)
        simpa [Field.own] using heq.symm

theorem namedProps_keys : (namedProps members).keys = members.map fun m => js m.1 := by
  induction members with
  | nil => rfl
  | cons m members ih =>
    rw [List.map_cons, ← ih]
    rfl

def Suits (formats : Format → JsString → Bool) (schema : String × Schema)
    (member : String × JsValue) : Prop :=
  schema.1 = member.1 ∧ member.2 ≠ .undefined ∧ accepts formats schema.2 member.2 = true

theorem Suits.keys (h : List.Forall₂ (Suits formats) schemas members) :
    schemas.map Prod.fst = members.map Prod.fst := by
  induction h with
  | nil => rfl
  | cons hsuits _ ih => rw [List.map_cons, List.map_cons, hsuits.1, ih]

theorem Suits.member (h : List.Forall₂ (Suits formats) schemas members)
    {schema : String × Schema} (hschema : schema ∈ schemas) :
    ∃ member ∈ members, Suits formats schema member := by
  induction h with
  | nil => cases hschema
  | cons hsuits _ ih =>
    obtain rfl | hschema := List.mem_cons.mp hschema
    · exact ⟨_, List.mem_cons_self, hsuits⟩
    · obtain ⟨member, hmember, hsuits⟩ := ih hschema
      exact ⟨member, List.mem_cons_of_mem _ hmember, hsuits⟩

theorem accepts_objectOf {optional : List String}
    {plain : Bool} {props : Props}
    (hclosed : ∀ key ∈ props.keys, key ∈ (schemas.map Prod.fst).map js)
    (hmembers : ∀ schema ∈ schemas, (schema.1 ∈ optional ∧ props.get (js schema.1) = .undefined) ∨
      (props.get (js schema.1) ≠ .undefined ∧
        accepts formats schema.2 (props.get (js schema.1)) = true)) :
    accepts formats (closedObject schemas optional) (.object plain props) = true := by
  refine accepts_all.mpr ?_
  simp only [List.forall_mem_cons]
  refine ⟨rfl, ?_, ?_, acceptsProperties_iff.mpr fun schema hschema => ?_, by simp⟩
  · simpa only [accepts, onObject, List.all_eq_true, decide_eq_true_eq] using hclosed
  · simp only [accepts, onObject, List.all_eq_true]
    intro key hkey
    obtain ⟨hkey, hoptional⟩ := List.mem_filter.mp hkey
    obtain ⟨schema, hschema, rfl⟩ := List.mem_map.mp hkey
    obtain ⟨hopt, -⟩ | ⟨hdefined, -⟩ := hmembers schema hschema
    · exact absurd hopt (of_decide_eq_true hoptional)
    · cases hv : props.get (js schema.1) <;> first | exact absurd hv hdefined | rfl
  · obtain ⟨-, hundefined⟩ | ⟨-, haccepts⟩ := hmembers schema hschema
    · exact .inl hundefined
    · exact .inr haccepts

theorem accepts_closedObject {optional : List String}
    (hnodup : (schemas.map fun s => js s.1).Nodup)
    (h : List.Forall₂ (Suits formats) schemas members) :
    accepts formats (closedObject schemas optional) (namedRecord members) = true := by
  have hkeys := Suits.keys h
  have hnames : (schemas.map fun s => js s.1) = members.map fun m => js m.1 := by
    simpa [Function.comp_def] using congrArg (List.map js) hkeys
  refine accepts_objectOf (fun key hkey => ?_) fun schema hschema => .inr ?_
  · rwa [namedProps_keys, ← hnames, ← Function.comp_def js, ← List.map_map] at hkey
  · obtain ⟨member, hmember, hname, hdefined, haccepts⟩ := Suits.member h hschema
    have hget := namedProps_get (hnames ▸ hnodup) hmember
    rw [hname, hget]
    exact ⟨hdefined, haccepts⟩

theorem closedObject_property {optional : List String} {plain : Bool} {props : Props}
    {schema : String × Schema} (hschema : schema ∈ schemas)
    (h : accepts formats (closedObject schemas optional) (.object plain props) = true) :
    props.get (js schema.1) = .undefined ∨
      accepts formats schema.2 (props.get (js schema.1)) = true :=
  acceptsProperties_iff.mp (accepts_all.mp h (.properties schemas) (by simp)) schema hschema

theorem closedObject_required {optional : List String} {plain : Bool} {props : Props}
    {schema : String × Schema} (hschema : schema ∈ schemas) (hrequired : schema.1 ∉ optional)
    (h : accepts formats (closedObject schemas optional) (.object plain props) = true) :
    accepts formats schema.2 (props.get (js schema.1)) = true := by
  have hkeys := accepts_all.mp h (.required ((schemas.map Prod.fst).filter (· ∉ optional)))
    (by simp)
  simp only [accepts, onObject, List.all_eq_true] at hkeys
  have hdefined := hkeys schema.1
    (List.mem_filter.mpr ⟨List.mem_map_of_mem hschema, decide_eq_true hrequired⟩)
  obtain hundefined | haccepts := closedObject_property hschema h
  · rw [hundefined] at hdefined
    cases hdefined
  · exact haccepts

theorem closedObject_refuses {optional : List String} {plain : Bool} {props : Props}
    {schema : String × Schema} (hschema : schema ∈ schemas)
    (hdefined : props.get (js schema.1) ≠ .undefined)
    (hrefused : accepts formats schema.2 (props.get (js schema.1)) = false) :
    accepts formats (closedObject schemas optional) (.object plain props) = false := by
  refine Bool.eq_false_iff.mpr fun haccepts => ?_
  obtain hundefined | htrue := closedObject_property hschema haccepts
  · exact hdefined hundefined
  · exact Bool.false_ne_true (hrefused.symm.trans htrue)

end Records

end Aseos
