import Aseos.Js.Ascii
import Aseos.Policy.Authorization
import Aseos.Policy.Recompile

namespace Aseos.Policy

open JsValue

section Reasons

variable {host : Host} {input : PolicyEvaluationInput} {compiled : CompiledPolicySet}

theorem mem_reasonCodes {snapshot inputProps : Props} {outcome : Outcome}
    {matched invariants reasons : List JsString} {requirements : PolicyRequirements}
    {hash : HexDigest} {reason : JsString} :
    reason ∈ (createDecision snapshot inputProps outcome matched invariants requirements reasons
      hash).reasonCodes ↔ reason ∈ reasons :=
  (JsString.sort_perm _).mem_iff.trans (by simp [mem_addStrings])

theorem matchRules_subset {constants : Props} {rules matched : List CompiledPolicyRule}
    {result : List CompiledPolicyRule}
    (h : matchRules host input constants rules matched = .ok result) :
    ∀ rule ∈ result, rule ∈ matched ∨ rule ∈ rules := by
  induction rules generalizing matched with
  | nil =>
    obtain rfl := Except.ok.inj h
    exact fun rule hrule => .inl hrule
  | cons rule rules ih =>
    intro r hr
    unfold matchRules at h
    split at h
    · simp only at h
      split at h
      · cases h
      · split at h
        · rcases ih h r hr with hmatched | hrest
          · rcases List.mem_append.mp hmatched with hmatched | hsingle
            · exact .inl hmatched
            · obtain rfl := List.mem_singleton.mp hsingle
              exact .inr List.mem_cons_self
          · exact .inr (List.mem_cons_of_mem _ hrest)
        · exact (ih h r hr).imp_right (List.mem_cons_of_mem _)
    · exact (ih h r hr).imp_right (List.mem_cons_of_mem _)

theorem evaluateRules_reasons {snapshot inputProps : Props} {hash : HexDigest} {reason : JsString}
    (h : reason ∈ (evaluateRules host snapshot inputProps input compiled hash).reasonCodes) :
    reason ∈ [js "CONDITION_TYPE_MISMATCH", js "DEFAULT_DENY", js "REQUIREMENTS_CONFLICT"] ∨
      ((evaluateRules host snapshot inputProps input compiled hash).outcome = .deny ∧
        ∃ rule ∈ compiled.rules, rule.reasonCode.value = reason) := by
  unfold evaluateRules at h ⊢
  cases hmatch : matchRules host input compiled.constants compiled.rules [] with
  | error matched =>
    simp only [hmatch, mem_reasonCodes, List.mem_singleton] at h
    exact .inl (by simp [h])
  | ok matched =>
    simp only [hmatch] at h ⊢
    split at h
    · rename_i hdenied
      rw [if_pos hdenied]
      obtain ⟨rule, hrule, rfl⟩ := List.mem_map.mp (mem_reasonCodes.mp h)
      refine .inr ⟨rfl, rule, ?_, rfl⟩
      exact (matchRules_subset hmatch rule (List.mem_filter.mp hrule).1).resolve_left (by simp)
    · split at h
      · exact .inl (by simp [List.mem_singleton.mp (mem_reasonCodes.mp h)])
      · split at h
        · exact .inl (by simp [List.mem_singleton.mp (mem_reasonCodes.mp h)])
        · cases mem_reasonCodes.mp h

end Reasons

section Snapshots

variable {host : Host}

structure MetadataValid (metadata : PolicySnapshotMetadata) : Prop where
  snapshotId : Pattern.uuidV7.test metadata.snapshotId = true
  compilerVersion : Pattern.semver.test metadata.compilerVersion = true
  createdAt : isRfc3339DateTime metadata.createdAt = true

theorem rfc3339_ascii {s : JsString} (h : isRfc3339DateTime s = true) : s.IsAscii := by
  obtain ⟨f, hf, -⟩ := Option.any_eq_true _ _ |>.mp h
  exact DateTime.rfc3339DateTime_ascii hf

def snapshotMembers (policy : CompiledPolicySet) (metadata : PolicySnapshotMetadata)
    (policyHash : HexDigest) : List (JsString × JsValue) :=
  [(js "schemaVersion", .string (js "1.0.0")),
    (js "snapshotId", .string metadata.snapshotId),
    (js "policySetId", .string policy.policySetId.value),
    (js "policyVersion", .string policy.version.value),
    (js "policyHash", .string policyHash.text),
    (js "compiledPolicySet", policy.toValue),
    (js "compilerVersion", .string metadata.compilerVersion),
    (js "createdAt", .string metadata.createdAt)]

theorem createPolicySnapshot_eq {v : JsValue} {s : CompileSuccess}
    (hs : compilePolicySet host v = .ok s) {metadata : PolicySnapshotMetadata}
    (hmetadata : MetadataValid metadata) :
    createPolicySnapshot host s.value metadata =
      .ok (.record (snapshotMembers s.value metadata s.sha256)) := by
  obtain ⟨-, -, hvalue, htext, hhash⟩ := compilePolicySet_eq_ok.mp hs
  have hdigest : hashPolicyValue host s.value.toValue = .ok s.sha256 := by
    rw [hashPolicyValue_ok hvalue, canonicalJsonSha256, htext, ← hhash]
    rfl
  unfold createPolicySnapshot
  rw [if_neg (by simp [hmetadata.snapshotId, hmetadata.compilerVersion, hmetadata.createdAt])]
  exact Except.bind_eq_ok.mpr ⟨s.sha256, hdigest, rfl⟩

theorem snapshot_acceptable {v : JsValue} {s : CompileSuccess}
    (hs : compilePolicySet host v = .ok s) {metadata : PolicySnapshotMetadata}
    (hmetadata : MetadataValid metadata) :
    Acceptable (.record (snapshotMembers s.value metadata s.sha256)) := by
  obtain ⟨-, -, hvalue, -, -⟩ := compilePolicySet_eq_ok.mp hs
  have hmembers := acceptable_record.mp hvalue
  simp only [List.forall_mem_cons] at hmembers
  obtain ⟨-, hid, hversion, -⟩ := hmembers
  have hmember (key : String) (hkey : js key ∉ protectedKeys) (hunicode : (js key).wellFormed = true)
      {value : JsValue} (hvalue : Acceptable value) :
      AcceptableMember (Field.own (js key), value) := ⟨⟨js key, rfl, hkey, hunicode⟩, hvalue⟩
  have htext {t : JsString} (ht : t.IsAscii) : Acceptable (.string t) :=
    acceptable_string.mpr ht.wellFormed
  refine acceptable_record.mpr ?_
  simp only [snapshotMembers, List.forall_mem_cons]
  refine ⟨hmember _ (by decide) (by decide) (htext (JsString.asciiText_isAscii (by decide))),
    hmember _ (by decide) (by decide) (htext (Pattern.uuidV7_ascii hmetadata.snapshotId)),
    hmember _ (by decide) (by decide) hid.value, hmember _ (by decide) (by decide) hversion.value,
    hmember _ (by decide) (by decide) (htext (Pattern.sha256_ascii s.sha256.hex)),
    hmember _ (by decide) (by decide) hvalue,
    hmember _ (by decide) (by decide) (htext (Pattern.semver_ascii hmetadata.compilerVersion)),
    hmember _ (by decide) (by decide) (htext (rfc3339_ascii hmetadata.createdAt)), by simp⟩

theorem snapshot_record (policy : CompiledPolicySet) (metadata : PolicySnapshotMetadata)
    (policyHash : HexDigest) : ∃ props : Props,
    props = members (snapshotMembers policy metadata policyHash) ∧
    hasExactKeys props ["schemaVersion", "snapshotId", "policySetId", "policyVersion", "policyHash",
      "compiledPolicySet", "compilerVersion", "createdAt"] = true ∧
    props.get (js "schemaVersion") = .string (js "1.0.0") ∧
    props.get (js "snapshotId") = .string metadata.snapshotId ∧
    props.get (js "policySetId") = .string policy.policySetId.value ∧
    props.get (js "policyVersion") = .string policy.version.value ∧
    props.get (js "policyHash") = .string policyHash.text ∧
    props.get (js "compilerVersion") = .string metadata.compilerVersion ∧
    props.get (js "createdAt") = .string metadata.createdAt :=
  ⟨_, rfl, rfl, rfl, rfl, rfl, rfl, rfl, rfl, rfl⟩

theorem snapshot_valid {v : JsValue} {s : CompileSuccess}
    (hs : compilePolicySet host v = .ok s) {metadata : PolicySnapshotMetadata}
    (hmetadata : MetadataValid metadata) {i : PolicyEvaluationInput}
    (hi : i.policySnapshotId = metadata.snapshotId) :
    SnapshotValid host (.record (snapshotMembers s.value metadata s.sha256)) i s.value := by
  refine ⟨snapshot_acceptable hs hmetadata, members (snapshotMembers s.value metadata s.sha256), s,
    rfl, compilePolicySet_toValue hs, rfl, ?_⟩
  have hid := s.value.policySetId.matching Pattern.uuidV7 rfl
  have hversion := s.value.version.matching Pattern.semver rfl
  obtain ⟨props, hprops, hkeys, hschema, hsnapshotId, hsetId, hpolicyVersion, hpolicyHash,
    hcompiler, hcreated⟩ := snapshot_record s.value metadata s.sha256
  rw [← hprops]
  simp only [validateSnapshot, hkeys, hschema, hsnapshotId, hsetId, hpolicyVersion, hpolicyHash,
    hcompiler, hcreated, isString, Option.any_some, hmetadata.snapshotId, hmetadata.compilerVersion,
    hmetadata.createdAt, hid, hversion, s.sha256.hex, hi, decide_true, Bool.and_self]

theorem snapshot_accepted {v input : JsValue} {s : CompileSuccess}
    (hs : compilePolicySet host v = .ok s) {metadata : PolicySnapshotMetadata}
    (hmetadata : MetadataValid metadata) {i : PolicyEvaluationInput} (hi : InputValid host input i)
    (hname : i.policySnapshotId = metadata.snapshotId)
    (h : js "INVALID_POLICY_SNAPSHOT" ∈ (evaluatePolicy host
      (.record (snapshotMembers s.value metadata s.sha256)) input).reasonCodes) :
    (evaluatePolicy host (.record (snapshotMembers s.value metadata s.sha256)) input).outcome =
      .deny ∧ ∃ rule ∈ s.value.rules, rule.reasonCode.value = js "INVALID_POLICY_SNAPSHOT" := by
  obtain ⟨props, inputProps, hash, hdecision⟩ :=
    evaluatePolicy_valid hi (snapshot_valid hs hmetadata hname)
  rw [hdecision] at h ⊢
  split at h
  · have hmem := mem_reasonCodes.mp h
    exact absurd hmem (by decide)
  · rename_i hviolates
    rw [if_neg hviolates]
    exact (evaluateRules_reasons h).resolve_left (by decide)

-- The own keys of a JavaScript object are distinct, which is what `WellFormed` says.
theorem compilation_canonical (host : Host) {v : JsValue} {s : CompileSuccess}
    (hv : v.WellFormed) (hs : compilePolicySet host v = .ok s) :
    (∃ s', compilePolicySet host s.value.toValue = .ok s' ∧
      s'.canonicalJson = s.canonicalJson ∧ s'.sha256 = s.sha256) ∧
    (∀ v', Relation.ReflTransGen Rearranged v v' → ∃ s', compilePolicySet host v' = .ok s' ∧
      s'.canonicalJson = s.canonicalJson ∧ s'.sha256 = s.sha256) ∧
    ∀ metadata, MetadataValid metadata → ∃ snapshot,
      createPolicySnapshot host s.value metadata = .ok snapshot ∧
      ∀ input i, InputValid host input i → i.policySnapshotId = metadata.snapshotId →
        js "INVALID_POLICY_SNAPSHOT" ∈ (evaluatePolicy host snapshot input).reasonCodes →
        (evaluatePolicy host snapshot input).outcome = .deny ∧
          ∃ rule ∈ s.value.rules, rule.reasonCode.value = js "INVALID_POLICY_SNAPSHOT" := by
  obtain ⟨hacceptable, -⟩ := compilePolicySet_eq_ok.mp hs
  refine ⟨⟨s, compilePolicySet_toValue hs, rfl, rfl⟩, fun v' hrearranged => ?_,
    fun metadata hmetadata => ?_⟩
  · exact (rearranged_sameOutput host hrearranged ⟨hv, hacceptable⟩).2 s hs
  · refine ⟨_, createPolicySnapshot_eq hs hmetadata, fun input i hi hname hreason => ?_⟩
    exact snapshot_accepted hs hmetadata hi hname hreason

end Snapshots

section Sample

def sampleHost : Host where
  numberText _ := js "0"
  sha256 _ := ⟨List.replicate 64 48, zeros_hex⟩

def singleton (s : String) (h : 1 ≤ (js s).length ∧ (js s).length ≤ 256) : StringSet where
  strings := [js s]
  holes := 0
  sorted := List.pairwise_singleton _ _
  nodup := List.nodup_singleton _
  bounded _ ht := List.mem_singleton.mp ht ▸ h
  holes_le := Nat.zero_le 1

def sampleRule : CompiledPolicyRule where
  ruleId := ⟨js "allow-read", by decide, by decide, by decide⟩
  domain := ⟨js "workspace", by decide, by decide, by simp⟩
  subjectTypes := singleton "USER" (by decide)
  action := ⟨js "READ", by decide, by decide, by simp⟩
  resourceTypes := singleton "FILE" (by decide)
  when := .leaf .exists (js "input.action") none
  ruleEffect := .allow
  requirements := .none
  reasonCode := ⟨js "READ_ALLOWED", by decide, by decide, by decide⟩
  metadata := []

def samplePolicy : CompiledPolicySet where
  policySetId := ⟨js "01890a5d-ac96-774b-bcce-b302099a8057", by decide, by simp, by decide⟩
  version := ⟨js "1.0.0", by decide, by simp, by decide⟩
  description := ⟨js "Reads", by decide, by decide, by simp⟩
  sourceKind := .user
  sourceRef := ⟨js "policy.yaml", by decide, by decide, by simp⟩
  constants := []
  rules := [sampleRule]
  holes := 0

def sampleText : JsString := (canonicalJson sampleHost samplePolicy.toValue).toOption.getD []

theorem samplePolicy_text : canonicalJson sampleHost samplePolicy.toValue = .ok sampleText := rfl

theorem samplePolicy_compiles : compilePolicySet sampleHost samplePolicy.toValue =
    .ok ⟨samplePolicy, sampleText, sampleHost.sha256 sampleText⟩ := by
  have hacceptable : Acceptable samplePolicy.toValue := rfl
  have hrule : CompiledRule [] sampleRule :=
    ⟨.leaf (by decide) (fun _ => rfl) (fun _ => rfl), rfl⟩
  have hcompiled : CompiledSet samplePolicy :=
    ⟨⟨[], fun _ => rfl, by simpa [samplePolicy] using hrule⟩, by simp [samplePolicy], rfl, rfl, rfl,
      by decide⟩
  exact compilePolicySet_eq_ok.mpr ⟨hacceptable,
    compileSource_toValue hcompiled ⟨sampleText, samplePolicy_text⟩, hacceptable, samplePolicy_text,
    rfl⟩

def sampleProps : Props := samplePolicy.toValue.isRecord.getD []

theorem sample_canonical : ∃ s, compilePolicySet sampleHost (.object true sampleProps.reverse) =
    .ok s ∧ s.canonicalJson = sampleText := by
  have hempty : KeyEquivalent (.object true []) (.object true []) :=
    .refl ⟨⟨List.nodup_nil, trivial⟩, rfl⟩
  have hsame : SameSet KeyEquivalent samplePolicy samplePolicy :=
    ⟨rfl, hempty, .cons ⟨rfl, .leaf, hempty⟩ .nil⟩
  have hwellFormed : samplePolicy.toValue.WellFormed := (hsame.toValue rfl).left.wellFormed
  have hreversed : Relation.ReflTransGen Rearranged samplePolicy.toValue
      (.object true sampleProps.reverse) :=
    .single (.keys (.here (List.reverse_perm sampleProps).symm))
  obtain ⟨-, hrearranged, -⟩ :=
    compilation_canonical sampleHost hwellFormed samplePolicy_compiles
  obtain ⟨s, hs, htext, -⟩ := hrearranged _ hreversed
  exact ⟨s, hs, htext⟩

end Sample

end Aseos.Policy
