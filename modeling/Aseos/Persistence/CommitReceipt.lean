import Aseos.Persistence.BatchAcceptance

namespace Aseos.Persistence

open Execution JsValue Kernel StreamLog

section Receipts

variable {runtime : JsonRuntime} {formats : Format → JsString → Bool} {batch receipt : JsValue}
  {version : ℕ}

theorem receiptOf_eq_ok : receiptOf runtime batch version = .ok receipt ↔
    ∃ digest, canonicalJsonSha256 runtime.toHost (.record (receiptBase batch version)) =
        .ok digest ∧
      receipt = .record (receiptBase batch version ++
        [(js "receiptHash", .string digest.text)]) := by
  rw [receiptOf]
  constructor
  · intro h
    obtain ⟨digest, hdigest, h⟩ := Except.bind_eq_ok.mp h
    exact ⟨digest, foreign_eq_ok.mp hdigest, (Except.ok.inj h).symm⟩
  · rintro ⟨digest, hdigest, rfl⟩
    exact Except.bind_eq_ok.mpr ⟨digest, foreign_eq_ok.mpr hdigest, rfl⟩

theorem elements_nonempty {maxItems : ℕ} {schema : Schema} {v : JsValue} {key : String}
    (h : (Schema.arrayBetween 1 maxItems schema).accepts formats (v.property (js key)) = true) :
    elements v key ≠ [] := by
  have htype := accepts_all.mp h (.type .array) (by simp)
  have hlength := accepts_all.mp h (.minItems 1) (by simp)
  rw [elements]
  cases hproperty : v.property (js key) with
  | array slots extra =>
    rw [hproperty] at hlength
    intro hnone
    obtain rfl := List.map_eq_nil_iff.mp hnone
    cases hlength
  | _ =>
    rw [hproperty] at htype
    cases htype

theorem members_ids {envelopes : List JsValue} {key : String}
    (h : ∀ envelope ∈ envelopes,
      Schema.uuidV7.accepts formats (envelope.property (js key)) = true) :
    members envelopes key = .ofStrings (envelopes.map (text · key)) ∧
      ∀ id ∈ envelopes.map (text · key), Schema.uuidV7.accepts formats (.string id) = true := by
  have hstring : ∀ envelope ∈ envelopes,
      envelope.property (js key) = .string (text envelope key) := by
    intro envelope henvelope
    obtain ⟨s, hs⟩ := accepts_type_string (h envelope henvelope)
    rw [text, hs]
    rfl
  refine ⟨?_, List.forall_mem_map.mpr fun envelope henvelope =>
    hstring envelope henvelope ▸ h envelope henvelope⟩
  rw [members, JsValue.ofStrings, List.map_map]
  refine congrArg (JsValue.array · []) (List.map_congr_left fun envelope henvelope => ?_)
  rw [hstring envelope henvelope]
  rfl

theorem ids_accepted {strings : List JsString} (hnodup : strings.Nodup)
    (h : ∀ s ∈ strings, Schema.uuidV7.accepts formats (.string s) = true) :
    Schema.accepts formats (.all [.type .array, .uniqueItems, .items .uuidV7])
      (.ofStrings strings) = true ∧
    (strings ≠ [] → Schema.accepts formats
      (.all [.type .array, .minItems 1, .uniqueItems, .items .uuidV7]) (.ofStrings strings) =
        true) := by
  have hdistinct : Schema.accepts formats .uniqueItems (.ofStrings strings) = true := by
    simp only [Schema.accepts, Schema.onArray, JsValue.ofStrings, List.map_map]
    exact Schema.distinct_strings hnodup
  have hitems := Schema.accepts_items_strings h
  refine ⟨accepts_all.mpr ?_, fun hsome => accepts_all.mpr ?_⟩
  · simp only [List.forall_mem_cons]
    exact ⟨rfl, hdistinct, hitems, List.forall_mem_nil _⟩
  · have hlength : Schema.accepts formats (.minItems 1) (.ofStrings strings) = true := by
      simp only [Schema.accepts, Schema.onArray, JsValue.ofStrings, List.length_map]
      exact decide_eq_true (List.length_pos_iff.mpr hsome)
    simp only [List.forall_mem_cons]
    exact ⟨rfl, hlength, hdistinct, hitems, List.forall_mem_nil _⟩

theorem integer_accepted (hfirst : 1 ≤ version) (hversion : (version : ℤ) ≤ maxSafeInteger) :
    Schema.accepts formats (Schema.integerBetween 1 9007199254740991)
      (.number (integer version)) = true := by
  have hexact : |(version : ℤ)| < 2 ^ 53 := by
    rw [abs_of_nonneg (Int.natCast_nonneg version)]
    exact lt_of_le_of_lt hversion (by decide)
  rw [maxSafeInteger] at hversion
  rw [integer_eq hexact]
  refine accepts_all.mpr ?_
  simp only [List.forall_mem_cons]
  refine ⟨?_, ?_, ?_, List.forall_mem_nil _⟩
  · simp [Schema.accepts, Schema.hasType, JsNumber.ofInt, Double.ofInt]
  · simp only [Schema.accepts, Schema.onNumber, JsNumber.ofInt, Double.ofInt, Schema.atLeast]
    exact decide_eq_true (by exact_mod_cast hfirst)
  · simp only [Schema.accepts, Schema.onNumber, JsNumber.ofInt, Double.ofInt, Schema.atMost]
    exact decide_eq_true (by exact_mod_cast hversion)

theorem receipt_accepted (h : Accepted formats batch) (hfirst : 1 ≤ version)
    (hversion : (version : ℤ) ≤ maxSafeInteger)
    (hevents : ((elements batch "events").map (text · "eventId")).Nodup)
    (htasks : ((elements batch "outbox").map (text · "taskId")).Nodup)
    (haudits : ((elements batch "audit").map (text · "auditId")).Nodup)
    (hreceipt : receiptOf runtime batch version = .ok receipt) :
    Schema.persistenceCommitReceipt.accepts formats receipt = true := by
  obtain ⟨digest, -, rfl⟩ := receiptOf_eq_ok.mp hreceipt
  have hbatch (key : String) (schema : Schema) (hschema : (key, schema) ∈ _) :=
    (h.member key schema hschema).2
  have hstream (key : String) (schema : Schema) (hschema : (key, schema) ∈ _) :=
    Schema.closedObject_member h.stream.2 hschema List.not_mem_nil
  have htransaction := hbatch "transactionId" Schema.uuidV7 (by simp)
  have hcommand := hbatch "commandId" Schema.uuidV7 (by simp)
  have hcaptured := hbatch "capturedAt" Schema.dateTime (by simp)
  have htype := hstream "aggregateType" Schema.canonicalTypeName (by simp)
  have hid := hstream "aggregateId" (Schema.boundedString 1 256) (by simp)
  obtain ⟨heventIds, hevent⟩ := @members_ids formats _ "eventId" fun event hevent =>
    (envelope_member (h.events event hevent).2 (by decide)
      (by simp [Schema.domainEventEnvelopeMembers] : ("eventId", Schema.uuidV7) ∈ _)).1
  obtain ⟨htaskIds, htask⟩ := @members_ids formats _ "taskId" fun task htask =>
    Schema.closedObject_member (h.tasks task htask).2
      (by simp : ("taskId", Schema.uuidV7) ∈ _) (by decide)
  obtain ⟨hauditIds, haudit⟩ := @members_ids formats _ "auditId" fun audit haudit =>
    Schema.closedObject_member (h.audits audit haudit).2
      (by simp : ("auditId", Schema.uuidV7) ∈ _) List.not_mem_nil
  have hsomeEvent := elements_nonempty
    (hbatch "events" (Schema.arrayBetween 1 1000 Schema.domainEventEnvelope) (by simp))
  have hsomeAudit := elements_nonempty
    (hbatch "audit" (Schema.arrayBetween 1 1000 Schema.auditEntry) (by simp))
  have heventList := (ids_accepted hevents hevent).2 (List.map_eq_nil_iff.not.mpr hsomeEvent)
  have htaskList := (ids_accepted htasks htask).1
  have hauditList := (ids_accepted haudits haudit).2 (List.map_eq_nil_iff.not.mpr hsomeAudit)
  rw [← heventIds] at heventList
  rw [← htaskIds] at htaskList
  rw [← hauditIds] at hauditList
  have hinteger := @integer_accepted formats version hfirst hversion
  have hhash : Schema.accepts formats .sha256 (.string digest.text) = true :=
    accepts_pattern.mpr digest.hex
  change Schema.accepts formats (Schema.closedObject _ []) (namedRecord [
    ("schemaVersion", .string (js "1.0.0")),
    ("transactionId", batch.property (js "transactionId")),
    ("commandId", batch.property (js "commandId")),
    ("aggregateType", (stream batch).property (js "aggregateType")),
    ("aggregateId", (stream batch).property (js "aggregateId")),
    ("committedVersion", .number (integer version)),
    ("eventIds", members (elements batch "events") "eventId"),
    ("outboxTaskIds", members (elements batch "outbox") "taskId"),
    ("auditIds", members (elements batch "audit") "auditId"),
    ("committedAt", batch.property (js "capturedAt")),
    ("receiptHash", .string digest.text)]) = true
  refine accepts_closedObject (by decide) ?_
  exact .cons ⟨rfl, by simp, accepts_const.mpr rfl⟩
    (.cons ⟨rfl, defined_of_type htransaction, htransaction⟩
    (.cons ⟨rfl, defined_of_type hcommand, hcommand⟩
    (.cons ⟨rfl, defined_of_type htype, htype⟩ (.cons ⟨rfl, defined_of_type hid, hid⟩
    (.cons ⟨rfl, by simp, hinteger⟩ (.cons ⟨rfl, defined_of_type heventList, heventList⟩
    (.cons ⟨rfl, defined_of_type htaskList, htaskList⟩
    (.cons ⟨rfl, defined_of_type hauditList, hauditList⟩
    (.cons ⟨rfl, defined_of_type hcaptured, hcaptured⟩
    (.cons ⟨rfl, by simp, hhash⟩ .nil))))))))))

end Receipts

end Aseos.Persistence
