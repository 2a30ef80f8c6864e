import Aseos.Contracts.IsolationEvidence
import Aseos.Contracts.Spread

namespace Aseos.Schema

-- urn:aseos:schema:inbox-record:1.0.0
def inboxRecord : Schema :=
  closedObject [("schemaVersion", constText "1.0.0"), ("resultId", uuidV7), ("taskId", uuidV7),
    ("payloadHash", sha256), ("status", .enum [js "ACCEPTED", js "DUPLICATE", js "REJECTED"]),
    ("receivedAt", dateTime)] []

def sequenceNumber : Schema := integerBetween 0 9007199254740991

-- urn:aseos:schema:projection-checkpoint:1.0.0
def projectionCheckpoint : Schema :=
  closedObject [("schemaVersion", constText "1.0.0"), ("projectionName", boundedString 1 128),
    ("projectionVersion", semanticVersion), ("sourceSequence", sequenceNumber),
    ("rebuiltFromSequence", .all [.oneOf [.type .integer, .type .null], .minimum 0,
      .maximum 9007199254740991]), ("updatedAt", dateTime)] []

-- urn:aseos:schema:persistence-commit-receipt:1.0.0
def persistenceCommitReceipt : Schema :=
  closedObject [("schemaVersion", constText "1.0.0"), ("transactionId", uuidV7),
    ("commandId", uuidV7), ("aggregateType", canonicalTypeName),
    ("aggregateId", boundedString 1 256), ("committedVersion", integerBetween 1 9007199254740991),
    ("eventIds", .all [.type .array, .minItems 1, .uniqueItems, .items uuidV7]),
    ("outboxTaskIds", .all [.type .array, .uniqueItems, .items uuidV7]),
    ("auditIds", .all [.type .array, .minItems 1, .uniqueItems, .items uuidV7]),
    ("committedAt", dateTime), ("receiptHash", sha256)] []

section Members

variable {formats : Format → JsString → Bool}

theorem object_of_closedObject {schemas : List (String × Schema)} {optional : List String}
    {v : JsValue} (h : accepts formats (closedObject schemas optional) v = true) :
    ∃ plain props, v = .object plain props := by
  have htype := accepts_all.mp h (.type .object) List.mem_cons_self
  cases v with
  | object plain props => exact ⟨plain, props, rfl⟩
  | _ => cases htype

theorem closedObject_member {schemas : List (String × Schema)} {optional : List String}
    {v : JsValue} (h : accepts formats (closedObject schemas optional) v = true) {key : String}
    {schema : Schema} (hschema : (key, schema) ∈ schemas) (hrequired : key ∉ optional) :
    accepts formats schema (v.property (js key)) = true := by
  obtain ⟨plain, props, rfl⟩ := object_of_closedObject h
  have hkey : key ∈ (schemas.map Prod.fst).filter (· ∉ optional) :=
    List.mem_filter.mpr ⟨List.mem_map.mpr ⟨_, hschema, rfl⟩, by simpa using hrequired⟩
  exact (accepts_member h hkey hschema).1

theorem string_of_pattern {r : Regex CodeUnit} {v : JsValue}
    (h : accepts formats (.all [.type .string, .pattern r]) v = true) :
    ∃ s, v = .string s ∧ r.test s = true := by
  obtain ⟨s, rfl⟩ := accepts_type_string h
  exact ⟨s, rfl, accepts_pattern.mp h⟩

theorem string_of_enum {values : List JsString} {v : JsValue}
    (h : accepts formats (.enum values) v = true) : ∃ s, v = .string s ∧ s ∈ values := by
  rw [accepts, List.any_eq_true] at h
  obtain ⟨s, hs, hequal⟩ := h
  cases v with
  | string t =>
    rw [JsValue.deepEqual, beq_iff_eq] at hequal
    exact ⟨t, rfl, hequal ▸ hs⟩
  | _ => simp [JsValue.deepEqual] at hequal

theorem integer_of_between {minimum maximum : ℤ} {v : JsValue}
    (h : accepts formats (integerBetween minimum maximum) v = true) :
    ∃ x : Double, v = .number (.finite x) ∧ x.value.den = 1 ∧ (minimum : ℚ) ≤ x.value := by
  have hkeywords := accepts_all.mp h
  have htype := hkeywords (.type .integer) (.head _)
  have hmin := hkeywords (.minimum minimum) (.tail _ (.head _))
  cases v with
  | number number =>
    cases number with
    | finite x => exact ⟨x, rfl, beq_iff_eq.mp htype, of_decide_eq_true hmin⟩
    | _ => cases htype
  | _ => cases htype

end Members

end Aseos.Schema
