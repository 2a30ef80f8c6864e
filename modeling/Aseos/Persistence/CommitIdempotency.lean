import Aseos.Contracts.CommandEnvelope
import Aseos.Persistence.Journal
import Aseos.Persistence.StoredJson

namespace Aseos

namespace Pattern

open Regex

theorem inRange_printable {first last : Char} {c : CodeUnit} (hfirst : 0 < first.toNat)
    (hlast : last.toNat < 128) (h : CodeUnit.inRange first last c = true) :
    c.isPrintable = true := by
  rw [CodeUnit.inRange, Bool.and_eq_true, decide_eq_true_eq, decide_eq_true_eq] at h
  exact CodeUnit.isPrintable_iff.mpr ⟨Nat.lt_of_lt_of_le hfirst h.1, Nat.lt_of_le_of_lt h.2 hlast⟩

theorem idempotencyKey_printable {s : JsString} (h : idempotencyKey.test s = true) :
    ∀ c ∈ s, CodeUnit.isPrintable c = true := by
  have hother : (js "._:/+-").all CodeUnit.isPrintable = true := by decide
  have hunit : (one fun c : CodeUnit => c.isUpper || c.isLower || c.isDigit ||
      c.isAny "._:/+-").Letters fun c => c.isPrintable = true := by
    intro c hc
    simp only [Bool.or_eq_true] at hc
    obtain ((hc | hc) | hc) | hc := hc
    · exact inRange_printable (by decide) (by decide) hc
    · exact inRange_printable (by decide) (by decide) hc
    · exact inRange_printable (by decide) (by decide) hc
    · exact List.all_eq_true.mp hother c (List.elem_iff.mp hc)
  have hplus : idempotencyKey.Letters fun c => c.isPrintable = true := And.intro hunit hunit
  exact Letters.all_mem hplus ((test_iff _ _).mp h)

end Pattern

namespace Persistence

open Execution Kernel TransitionSystem

structure CommandIdentity.Readable (identity : CommandIdentity) : Prop where
  commandId : Legible identity.commandId
  idempotencyKey : Legible identity.idempotencyKey
  effectScope : Legible identity.effectScope
  payloadHash : Legible identity.payloadHash

-- The schema bounds the length of the scope only.
def ValidBatch (formats : Format → JsString → Bool) (batch : JsValue) : Prop :=
  Schema.accepts formats Schema.journalAppendBatch batch = true ∧
    Legible (text batch "effectScope")

theorem ValidBatch.readable {formats : Format → JsString → Bool} {batch : JsValue}
    (h : ValidBatch formats batch) : (CommandIdentity.ofBatch batch).Readable := by
  have hmember {key : String} {schema : Schema} (hschema : (key, schema) ∈ _) :=
    Schema.closedObject_member h.1 hschema List.not_mem_nil
  obtain ⟨commandId, hcommand, hcommandId⟩ := Schema.string_of_pattern
    (hmember (.tail _ (.tail _ (.head _))) : Schema.accepts formats .uuidV7 _ = true)
  have hkeySchema := hmember (.tail _ (.tail _ (.tail _ (.head _))))
  obtain ⟨key, hkey⟩ := accepts_type_string hkeySchema
  have hkeyPattern := accepts_all.mp hkeySchema (.pattern Pattern.idempotencyKey)
    (.tail _ (.tail _ (.tail _ (.head _))))
  obtain ⟨payloadHash, hhash, hpayload⟩ := Schema.string_of_pattern
    (hmember (.tail _ (.tail _ (.tail _ (.tail _ (.tail _ (.head _)))))) :
      Schema.accepts formats .sha256 _ = true)
  refine ⟨?_, ?_, h.2, ?_⟩
  · change Legible (text batch "commandId")
    rw [text, hcommand]
    exact legible_uuidV7 hcommandId
  · change Legible (text batch "idempotencyKey")
    rw [text, hkey]
    rw [hkey] at hkeyPattern
    exact legible_of_printable (Pattern.idempotencyKey_printable hkeyPattern)
  · change Legible (text batch "payloadHash")
    rw [text, hhash]
    exact legible_sha256 hpayload

def CommandIdentity.Clashes (identity other : CommandIdentity) : Prop :=
  (identity.commandId = other.commandId ∨ identity.idempotencyKey = other.idempotencyKey ∧
    identity.effectScope = other.effectScope) ∧ identity ≠ other

def lookupPayload (identity : CommandIdentity) : JsValue :=
  .record [(js "commandId", .string identity.commandId),
    (js "idempotencyKey", .string identity.idempotencyKey),
    (js "effectScope", .string identity.effectScope),
    (js "payloadHash", .string identity.payloadHash)]

section Finding

variable {driver : Driver} {identity : CommandIdentity} {batch receipt : JsValue}
  {receiptJson : JsString} {s t : Session}

theorem identity_receiptRow (h : (CommandIdentity.ofBatch batch).Readable) :
    (receiptRow batch receipt receiptJson).identity driver = .ofBatch batch :=
  congr (congr (congrArg₂ CommandIdentity.mk (columnText_bound driver h.commandId)
    (columnText_bound driver h.idempotencyKey)) (columnText_bound driver h.effectScope))
    (columnText_bound driver h.payloadHash)

theorem query_calm {α : Type} {c : Database} (hopen : c.opened = true) (run : Tables → α) :
    Sql.query run ⟨c, .none⟩ = (.ok (run c.tables), ⟨c, .none⟩) := by
  rw [Sql.query, Sql.statement, Sql.guarded_open hopen]
  exact congrArg (fun d => (Except.ok (run c.tables), Session.mk d .none)) c.written_tables

theorem filter_same {tables : Tables} (hkeyed : tables.Keyed) {row : CommandReceiptRow}
    (hrow : row ∈ tables.commandReceipts) (hcommand : row.commandId = bound identity.commandId)
    (hkey : row.idempotencyKey = bound identity.idempotencyKey)
    (hscope : row.effectScope = bound identity.effectScope) :
    tables.commandReceipts.filter (fun r => r.matches identity) = [row] := by
  have honly : ∀ r ∈ tables.commandReceipts, decide (r.matches identity) = decide (r = row) := by
    intro r hr
    refine decide_eq_decide.mpr ⟨fun hmatches => ?_, fun hsame => hsame ▸ .inl hcommand⟩
    obtain hsame | ⟨hsameKey, hsameScope⟩ := hmatches
    · exact List.inj_on_of_nodup_map hkeyed.commands hr hrow (hsame.trans hcommand.symm)
    · exact List.inj_on_of_nodup_map hkeyed.effects hr hrow
        (Prod.ext (hsameKey.trans hkey.symm) (hsameScope.trans hscope.symm))
  rw [List.filter_congr honly, List.filter_eq,
    List.count_eq_one_of_mem hkeyed.commands.of_map hrow]
  rfl

section Calm

variable (driver) {c : Database} (hopen : c.opened = true)
  (hrow : receiptRow batch receipt receiptJson ∈ c.tables.commandReceipts)
  (hreadable : (CommandIdentity.ofBatch batch).Readable)

include hopen hrow hreadable

theorem find_same (hkeyed : c.tables.Keyed) :
    findCommandDuplicate driver (.ofBatch batch) ⟨c, .none⟩ =
      (.ok (some (receiptRow batch receipt receiptJson)), ⟨c, .none⟩) := by
  unfold findCommandDuplicate
  rw [bind_of_ok (query_calm hopen _), filter_same hkeyed hrow rfl rfl rfl]
  dsimp only
  rw [if_pos (identity_receiptRow hreadable)]
  rfl

theorem find_clash (hclash : identity.Clashes (.ofBatch batch)) :
    findCommandDuplicate driver identity ⟨c, .none⟩ = (.error identityReused, ⟨c, .none⟩) := by
  have hmatches : (receiptRow batch receipt receiptJson).matches identity := by
    obtain hcommand | ⟨hkey, hscope⟩ := hclash.1
    · exact .inl (congrArg bound hcommand.symm)
    · exact .inr ⟨congrArg bound hkey.symm, congrArg bound hscope.symm⟩
  have hmem := List.mem_filter (p := fun r => decide (r.matches identity)).mpr
    ⟨hrow, decide_eq_true hmatches⟩
  unfold findCommandDuplicate
  rw [bind_of_ok (query_calm hopen _)]
  generalize List.filter _ _ = rows at hmem
  cases rows with
  | nil => exact absurd hmem List.not_mem_nil
  | cons row others =>
    cases others with
    | nil =>
      obtain rfl := List.mem_singleton.mp hmem
      dsimp only
      rw [identity_receiptRow hreadable, if_neg hclash.2.symm]
      rfl
    | cons other others => rfl

end Calm

theorem find_calm {c : Database} (hopen : c.opened = true) :
    (findCommandDuplicate driver identity ⟨c, .none⟩).2 = ⟨c, .none⟩ := by
  unfold findCommandDuplicate
  rw [bind_of_ok (query_calm hopen _)]
  generalize List.filter _ _ = rows
  cases rows with
  | nil => rfl
  | cons row others =>
    cases others with
    | nil =>
      dsimp only
      split
      · rfl
      · rfl
    | cons other others => rfl

theorem find_unaffected {found : Option CommandReceiptRow}
    (h : findCommandDuplicate driver identity s = (.ok found, t)) :
    s.connection.opened = true ∧
      findCommandDuplicate driver identity ⟨s.connection, .none⟩ =
        (.ok found, ⟨s.connection, .none⟩) := by
  have hopen : s.connection.opened = true := by
    obtain ⟨_, _, hquery, -⟩ := bind_eq_ok.mp h
    exact (Sql.guarded_eq_ok.mp hquery).1
  have hcalm := (findCommandDuplicate_reads driver identity).unaffected _ _ _ h
  refine ⟨hopen, Prod.ext (congrArg Prod.fst hcalm :) (find_calm hopen)⟩

theorem find_found {row : CommandReceiptRow}
    (h : findCommandDuplicate driver identity s = (.ok (some row), t)) :
    row ∈ s.connection.tables.commandReceipts ∧ row.identity driver = identity := by
  obtain ⟨hopen, h⟩ := find_unaffected h
  unfold findCommandDuplicate at h
  rw [bind_of_ok (query_calm hopen _)] at h
  generalize hrows : List.filter _ _ = rows at h
  cases rows with
  | nil => cases h
  | cons first others =>
    cases others with
    | nil =>
      dsimp only at h
      split at h
      · rename_i hidentity
        obtain ⟨hsome, -⟩ := Prod.mk.inj h
        obtain rfl := Option.some.inj (Except.ok.inj hsome)
        exact ⟨(List.mem_filter.mp (hrows ▸ List.mem_singleton_self first)).1, hidentity⟩
      · cases h
    | cons other others => cases h

end Finding

def replyOf : Except Failure Phase → Option (Except Failure JsValue)
  | .ok (.replied reply) => some (.ok reply)
  | .ok (.waits _) => none
  | .error e => some (.error e)

section Reads

variable {runtime : JsonRuntime} {driver : Driver} {host : WorkerHost} {batch reply : JsValue}
  {identity : CommandIdentity} {s t : Session} {result : Except Failure Phase}

theorem replyOf_ok : replyOf result = some (.ok reply) ↔ result = .ok (.replied reply) := by
  cases result with
  | ok phase =>
    cases phase with
    | replied value => simp [replyOf]
    | waits pending => simp [replyOf]
  | error e => simp [replyOf]

theorem commit_found
    (h : handleReads runtime driver host ⟨.commit, batch⟩ s = (.ok (.replied reply), t)) :
    ∃ row u, findCommandDuplicate driver (.ofBatch batch) s = (.ok (some row), u) ∧
      receiptOfRow runtime driver row = .ok reply := by
  obtain ⟨_, u, hrecord, hrest⟩ := bind_eq_ok.mp h
  obtain ⟨-, rfl⟩ := Prod.mk.inj hrecord
  obtain ⟨receipt, v, hlookup, hresult⟩ := bind_eq_ok.mp hrest
  obtain ⟨found, w, hfind, hanswer⟩ := bind_eq_ok.mp hlookup
  cases found with
  | none =>
    obtain ⟨_, _, -, hnone⟩ := bind_eq_ok.mp hanswer
    obtain rfl := Except.ok.inj (Prod.mk.inj hnone).1
    cases hresult
  | some row =>
    obtain ⟨value, _, hreceipt, hsome⟩ := bind_eq_ok.mp hanswer
    obtain rfl := Except.ok.inj (Prod.mk.inj hsome).1
    obtain rfl := Phase.replied.inj (Except.ok.inj (Prod.mk.inj hresult).1)
    exact ⟨row, w, hfind, (Prod.mk.inj hreceipt).1⟩

theorem lookupCommandReceipt_eq (runtime : JsonRuntime) (driver : Driver)
    (identity : CommandIdentity) :
    lookupCommandReceipt runtime driver (lookupPayload identity) = (do
      match ← findCommandDuplicate driver identity with
      | some row => lift (receiptOfRow runtime driver row)
      | none => return .null : Sql JsValue) := rfl

theorem receipt_found
    (h : handleReads runtime driver host ⟨.lookupCommandReceipt, lookupPayload identity⟩ s =
      (.ok (.replied reply), t)) :
    ∃ found u, findCommandDuplicate driver identity s = (.ok found, u) ∧
      (found = none → reply = .null) ∧
      ∀ row, found = some row → receiptOfRow runtime driver row = .ok reply := by
  obtain ⟨_, u, hrecord, hrest⟩ := bind_eq_ok.mp h
  obtain ⟨-, rfl⟩ := Prod.mk.inj hrecord
  obtain ⟨value, v, hhandle, hresult⟩ := bind_eq_ok.mp hrest
  obtain rfl := Phase.replied.inj (Except.ok.inj (Prod.mk.inj hresult).1)
  obtain ⟨_, u, hrecord₂, hlookup⟩ := bind_eq_ok.mp hhandle
  obtain ⟨-, rfl⟩ := Prod.mk.inj hrecord₂
  replace hlookup : lookupCommandReceipt runtime driver (lookupPayload identity) s =
    (.ok value, v) := hlookup
  rw [lookupCommandReceipt_eq] at hlookup
  obtain ⟨found, w, hfind, hanswer⟩ := bind_eq_ok.mp hlookup
  refine ⟨found, w, hfind, ?_, ?_⟩
  · rintro rfl
    exact (Except.ok.inj (Prod.mk.inj hanswer).1).symm
  · rintro row rfl
    exact (Prod.mk.inj hanswer).1


section Answers

variable (runtime host)

theorem handleReads_commit_found {plain : Bool} {props : Props} {row : CommandReceiptRow}
    (hfind : findCommandDuplicate driver (.ofBatch (.object plain props)) s = (.ok (some row), s))
    (hreceipt : receiptOfRow runtime driver row = .ok reply) :
    handleReads runtime driver host ⟨.commit, .object plain props⟩ s =
      (.ok (.replied reply), s) := by
  have hlookup : commitLookup runtime driver (.object plain props) s = (.ok (some reply), s) := by
    unfold commitLookup
    rw [bind_of_ok hfind]
    dsimp only
    rw [hreceipt]
    rfl
  exact bind_of_ok hlookup

theorem handleReads_commit_refused {plain : Bool} {props : Props} {e : Failure}
    (hfind : findCommandDuplicate driver (.ofBatch (.object plain props)) s = (.error e, s)) :
    handleReads runtime driver host ⟨.commit, .object plain props⟩ s = (.error e, s) := by
  have hlookup : commitLookup runtime driver (.object plain props) s = (.error e, s) :=
    bind_of_error hfind
  exact (bind_of_ok rfl).trans (bind_of_error hlookup)

theorem handleReads_receipt_found {row : CommandReceiptRow}
    (hfind : findCommandDuplicate driver identity s = (.ok (some row), s))
    (hreceipt : receiptOfRow runtime driver row = .ok reply) :
    handleReads runtime driver host ⟨.lookupCommandReceipt, lookupPayload identity⟩ s =
      (.ok (.replied reply), s) := by
  have hlookup : lookupCommandReceipt runtime driver (lookupPayload identity) s =
      (.ok reply, s) := by
    rw [lookupCommandReceipt_eq, bind_of_ok hfind]
    dsimp only
    rw [hreceipt]
    rfl
  exact bind_of_ok hlookup

theorem handleReads_receipt_refused {e : Failure}
    (hfind : findCommandDuplicate driver identity s = (.error e, s)) :
    handleReads runtime driver host ⟨.lookupCommandReceipt, lookupPayload identity⟩ s =
      (.error e, s) := by
  have hlookup : lookupCommandReceipt runtime driver (lookupPayload identity) s =
      (.error e, s) := by
    rw [lookupCommandReceipt_eq]
    exact bind_of_error hfind
  exact (bind_of_ok rfl).trans (bind_of_error hlookup)

end Answers

theorem handleReads_waits {request : WorkerRequest}
    (h : handleReads runtime driver host request s = (.ok (.waits (.commit batch)), t)) :
    request = ⟨.commit, batch⟩ := by
  obtain ⟨kind, payload⟩ := request
  obtain ⟨_, u, hrecord, hrest⟩ := bind_eq_ok.mp h
  cases kind with
  | commit =>
    obtain ⟨receipt, v, -, hresult⟩ := bind_eq_ok.mp hrest
    cases receipt with
    | some receipt => cases hresult
    | none =>
      obtain rfl := Pending.commit.inj (Phase.waits.inj (Except.ok.inj (Prod.mk.inj hresult).1))
      rfl
  | armCrash =>
    obtain ⟨event, v, -, hresult⟩ := bind_eq_ok.mp hrest
    cases hresult
  | _ =>
    obtain ⟨value, v, -, hresult⟩ := bind_eq_ok.mp hrest
    cases hresult

end Reads

section Stored

variable {runtime : JsonRuntime} {driver : Driver} {identity other : CommandIdentity}
  {receipt : JsValue} {tables after : Tables}

inductive Stored (runtime : JsonRuntime) (tables : Tables) :
    CommandIdentity → JsValue → Prop
  | row {batch receipt receiptJson} : (CommandIdentity.ofBatch batch).Readable →
      canonicalJson runtime.toHost receipt = .ok receiptJson →
      receiptRow batch receipt receiptJson ∈ tables.commandReceipts →
      Stored runtime tables (.ofBatch batch) receipt

def Finds (driver : Driver) (tables : Tables) (identity : CommandIdentity)
    (found : Option CommandReceiptRow) : Prop :=
  ∃ c : Database, c.opened = true ∧ c.tables = tables ∧
    findCommandDuplicate driver identity ⟨c, .none⟩ = (.ok found, ⟨c, .none⟩)

theorem Stored.mono (h : Stored runtime tables identity receipt)
    (hgrown : tables.commandReceipts <+: after.commandReceipts) :
    Stored runtime after identity receipt := by
  obtain ⟨hreadable, hjson, hrow⟩ := h
  exact .row hreadable hjson (hgrown.subset hrow)

theorem Stored.finds (h : Stored runtime tables identity receipt) (hkeyed : tables.Keyed)
    {found : Option CommandReceiptRow} (hfinds : Finds driver tables identity found) :
    ∃ row, found = some row ∧ receiptOfRow runtime driver row = .ok receipt.readBack := by
  obtain ⟨hreadable, hjson, hrow⟩ := h
  obtain ⟨c, hopen, rfl, hfind⟩ := hfinds
  have hsame := (find_same driver hopen hrow hreadable hkeyed).symm.trans hfind
  exact ⟨_, (Except.ok.inj (Prod.mk.inj hsame).1).symm, parseJson_canonicalJson driver _ hjson⟩

theorem Stored.not_finds (h : Stored runtime tables identity receipt)
    (hclash : other.Clashes identity) {found : Option CommandReceiptRow} :
    ¬Finds driver tables other found := by
  rintro ⟨c, hopen, rfl, hfind⟩
  obtain ⟨hreadable, hjson, hrow⟩ := h
  have hsame := (find_clash driver hopen hrow hreadable hclash).symm.trans hfind
  cases hsame

theorem finds_of_find {s t : Session} {found : Option CommandReceiptRow}
    (h : findCommandDuplicate driver identity s = (.ok found, t)) :
    Finds driver s.connection.tables identity found := by
  obtain ⟨hopen, hcalm⟩ := find_unaffected h
  exact ⟨s.connection, hopen, rfl, hcalm⟩

end Stored

section Steps

variable {ι : Type} [DecidableEq ι] {runtime : JsonRuntime} {driver : Driver} {host : WorkerHost}
  {formats : Format → JsString → Bool} {a b : Authority ι} {event : AuthorityEvent ι}
  {log : List Entry} {identity : CommandIdentity} {answer : Except Failure JsValue}

-- A worker that has a transaction open reads what it has not committed.
inductive Asks (a : Authority ι) (identity : CommandIdentity) :
    AuthorityEvent ι → Except Failure JsValue → Prop
  | commit {worker batch faults result answer} : (a.workers worker).transaction = none →
      CommandIdentity.ofBatch batch = identity → replyOf result = some answer →
      Asks a identity (.request worker ⟨.commit, batch⟩ faults result) answer
  | receipt {worker faults result answer} : (a.workers worker).transaction = none →
      replyOf result = some answer →
      Asks a identity (.request worker ⟨.lookupCommandReceipt, lookupPayload identity⟩ faults
        result) answer
  | transaction {worker batch faults answer} : CommandIdentity.ofBatch batch = identity →
      Asks a identity (.finish worker (.commit batch) faults answer) answer

def AuthorityEvent.Served : AuthorityEvent ι → Prop
  | .request _ ⟨_, payload⟩ faults _ =>
    faults = .none ∧ ∃ plain props, payload = .object plain props
  | _ => False

omit [DecidableEq ι] in
theorem database_tables {worker : ι} {locked : Bool} (h : (a.workers worker).transaction = none) :
    (a.database worker locked).tables = a.committed := by
  rw [Database.tables, Authority.database, h]
  rfl

theorem Step.found (h : Step runtime driver host a event b) (hlog : Journal runtime log a.committed)
    {reply : JsValue} (hasks : Asks a identity event (.ok reply)) :
    ∃ found, Finds driver a.committed identity found ∧
      (∀ row, found = some row →
        receiptOfRow runtime driver row = .ok reply ∧ b.committed = a.committed) ∧
      (found = none → reply = .null ∨ ∃ e worker faults,
        CommandIdentity.ofBatch e.batch = identity ∧ e.receipt = reply ∧
        event = .finish worker (.commit e.batch) faults (.ok reply) ∧
        Journal runtime (log ++ [e]) b.committed) := by
  have hcommitted := h.committed
  cases hasks with
  | @commit worker batch faults result _ hnone hidentity hreply =>
    obtain rfl := replyOf_ok.mp hreply
    obtain rfl := hidentity
    cases h with
    | request _ _ _ hresult =>
      obtain ⟨row, u, hfind, hreceipt⟩ := commit_found hresult
      have hfinds := finds_of_find hfind
      rw [database_tables hnone] at hfinds
      exact ⟨some row, hfinds, fun _ hrow => Option.some.inj hrow ▸ ⟨hreceipt, hcommitted⟩, nofun⟩
  | @receipt worker faults result _ hnone hreply =>
    obtain rfl := replyOf_ok.mp hreply
    cases h with
    | request _ _ _ hresult =>
      obtain ⟨found, u, hfind, hnull, hreceipt⟩ := receipt_found hresult
      have hfinds := finds_of_find hfind
      rw [database_tables hnone] at hfinds
      exact ⟨found, hfinds, fun row hrow => ⟨hreceipt row hrow, hcommitted⟩,
        fun hfound => .inl (hnull hfound)⟩
  | @transaction worker batch faults _ hidentity =>
    obtain rfl := hidentity
    obtain ⟨c, hopen, haction⟩ := hcommitted
    obtain ⟨row, hfind, hreceipt, hsame⟩ | ⟨hfind, e, rfl, rfl, hversion, hwritten, hsequences,
        hafter, hkeyed⟩ := commitTransaction_working hopen hlog.keyed haction
    · refine ⟨some row, finds_of_find hfind, fun _ hrow => Option.some.inj hrow ▸
        ⟨hreceipt, working_inj hsame⟩, nofun⟩
    · refine ⟨none, finds_of_find hfind, nofun, fun _ =>
        .inr ⟨e, worker, faults, rfl, rfl, rfl, ?_⟩⟩
      rw [working_inj hafter]
      exact hlog.extend hversion hwritten hsequences hkeyed

theorem Step.refused (h : Step runtime driver host a event b) {failure : Failure}
    (hasks : Asks a identity event (.error failure)) : b.committed = a.committed := by
  have hcommitted := h.committed
  cases hasks with
  | @commit worker batch faults result _ hnone hidentity hreply =>
    cases result with
    | ok phase => cases phase <;> simp [replyOf] at hreply
    | error e => exact hcommitted
  | @receipt worker faults result _ hnone hreply => exact hcommitted
  | @transaction worker batch faults _ hidentity => exact hcommitted

variable (driver host) in
omit [DecidableEq ι] in
theorem Stored.answers {worker : ι} (locked : Bool) {plain : Bool} {props : Props}
    {receipt : JsValue} (h : Stored runtime a.committed identity receipt)
    (hkeyed : a.committed.Keyed)
    (hopened : (a.workers worker).opened = true) (hnone : (a.workers worker).transaction = none)
    (hidentity : CommandIdentity.ofBatch (.object plain props) = identity) :
    handleReads runtime driver host ⟨.commit, .object plain props⟩
        ⟨a.database worker locked, .none⟩ =
      (.ok (.replied receipt.readBack), ⟨a.database worker locked, .none⟩) := by
  obtain ⟨hreadable, hjson, hrow⟩ := h
  have htables : (a.database worker locked).tables = a.committed := database_tables hnone
  rw [← htables] at hrow hkeyed
  have hfind := find_same driver hopened hrow hreadable hkeyed
  rw [← hidentity] at hfind
  exact handleReads_commit_found runtime host hfind (parseJson_canonicalJson driver _ hjson)

theorem Step.served (h : Step runtime driver host a event b) (hkeyed : a.committed.Keyed)
    {other : CommandIdentity} {receipt : JsValue}
    (hstored : Stored runtime a.committed identity receipt) (hasks : Asks a other event answer)
    (hserved : event.Served) :
    (other = identity → answer = .ok receipt.readBack) ∧
      (other.Clashes identity → answer = .error identityReused) := by
  have hanswers := hstored
  obtain ⟨hreadable, hjson, hrow⟩ := hstored
  cases hasks with
  | @commit worker batch faults result _ hnone hidentity hreply =>
    obtain ⟨rfl, plain, props, rfl⟩ := hserved
    cases h with
    | @request _ locked _ _ _ _ hopened _ _ hresult =>
      have htables : (a.database worker locked).tables = a.committed := database_tables hnone
      refine ⟨fun hsame => ?_, fun hclash => ?_⟩
      · have hanswer := hanswers.answers driver host locked hkeyed hopened hnone
          (hidentity.trans hsame)
        obtain ⟨rfl, -⟩ := Prod.mk.inj (hanswer.symm.trans hresult)
        exact (Option.some.inj hreply).symm
      · rw [← htables] at hrow
        have hfind := find_clash driver hopened hrow hreadable hclash
        rw [← hidentity] at hfind
        have hanswer := handleReads_commit_refused runtime host hfind
        obtain ⟨rfl, -⟩ := Prod.mk.inj (hanswer.symm.trans hresult)
        exact (Option.some.inj hreply).symm
  | @receipt worker faults result _ hnone hreply =>
    obtain ⟨rfl, -⟩ := hserved
    cases h with
    | @request _ locked _ _ _ _ hopened _ _ hresult =>
      have htables : (a.database worker locked).tables = a.committed := database_tables hnone
      rw [← htables] at hrow hkeyed
      refine ⟨fun hsame => ?_, fun hclash => ?_⟩
      · have hfind := find_same driver hopened hrow hreadable hkeyed
        rw [← hsame] at hfind
        have hanswer := handleReads_receipt_found runtime host hfind
          (parseJson_canonicalJson driver _ hjson)
        obtain ⟨rfl, -⟩ := Prod.mk.inj (hanswer.symm.trans hresult)
        exact (Option.some.inj hreply).symm
      · have hfind := find_clash driver hopened hrow hreadable hclash
        have hanswer := handleReads_receipt_refused runtime host hfind
        obtain ⟨rfl, -⟩ := Prod.mk.inj (hanswer.symm.trans hresult)
        exact (Option.some.inj hreply).symm
  | transaction => exact hserved.elim

def AuthorityEvent.CommitsValid (formats : Format → JsString → Bool) : AuthorityEvent ι → Prop
  | .request _ ⟨.commit, batch⟩ _ _ => ValidBatch formats batch
  | _ => True

structure Traced (a : Authority ι) (log : List Entry) : Prop where
  logged : ∀ e ∈ log, (CommandIdentity.ofBatch e.batch).Readable
  pending : ∀ worker batch, (a.workers worker).pending = some (.commit batch) →
    (CommandIdentity.ofBatch batch).Readable

theorem Step.finished {worker : ι} {batch : JsValue} {faults : Faults}
    {result : Except Failure JsValue}
    (h : Step runtime driver host a (.finish worker (.commit batch) faults result) b) :
    (a.workers worker).pending = some (.commit batch) := by
  cases h with
  | finish hpending => exact hpending

theorem Step.traced (h : Step runtime driver host a event b) (hvalid : event.CommitsValid formats)
    (ha : Traced a log) {added : List Entry} (hadds : Adds event added) :
    Traced b (log ++ added) := by
  have hupdate {worker : ι} {state : WorkerState}
      (hworkers : b.workers = Function.update a.workers worker state)
      (hstate : ∀ batch, state.pending = some (.commit batch) →
        (CommandIdentity.ofBatch batch).Readable) (other : ι) (batch : JsValue)
      (hpending : (b.workers other).pending = some (.commit batch)) :
      (CommandIdentity.ofBatch batch).Readable := by
    rw [hworkers] at hpending
    obtain rfl | hother := Classical.em (other = worker)
    · rw [Function.update_self] at hpending
      exact hstate batch hpending
    · rw [Function.update_of_ne hother] at hpending
      exact ha.pending other batch hpending
  constructor
  · refine List.forall_mem_append.mpr ⟨ha.logged, ?_⟩
    obtain rfl | ⟨e, worker, faults, rfl, rfl⟩ := hadds
    · exact List.forall_mem_nil _
    · exact List.forall_mem_singleton.mpr (ha.pending worker e.batch h.finished)
  · cases h with
    | start => exact hupdate rfl nofun
    | terminate => exact hupdate rfl nofun
    | finish => exact hupdate rfl nofun
    | @request worker locked request faults result s _ _ _ hresult =>
      refine hupdate rfl fun batch hpending => ?_
      cases result with
      | error e => cases hpending
      | ok phase =>
        cases phase with
        | replied reply => cases hpending
        | waits pending =>
          obtain rfl := Option.some.inj hpending
          obtain rfl := handleReads_waits hresult
          exact ValidBatch.readable hvalid

theorem traced_of_run {events : List (AuthorityEvent ι)} (hfresh : a.Fresh)
    (hrun : Run (Step runtime driver host) a events b)
    (hvalid : ∀ e ∈ events, e.CommitsValid formats) :
    ∃ log, Journal runtime log b.committed ∧ Traced b log := by
  induction hrun with
  | nil =>
    refine ⟨[], hfresh.journal, List.forall_mem_nil _, fun worker batch hpending => ?_⟩
    rw [hfresh.workers worker] at hpending
    cases hpending
  | snoc _ hlast ih =>
    obtain ⟨hbefore, hlabel⟩ := List.forall_mem_append.mp hvalid
    obtain ⟨log, hlog, htraced⟩ := ih hbefore
    obtain ⟨added, hadds, hjournal⟩ := hlast.committed.journal hlog
    exact ⟨_, hjournal, hlast.traced (List.forall_mem_singleton.mp hlabel) htraced hadds⟩

theorem stored_of_log {tables : Tables} (hlog : Journal runtime log tables) {e : Entry}
    (he : e ∈ log) (hreadable : (CommandIdentity.ofBatch e.batch).Readable) :
    Stored runtime tables (.ofBatch e.batch) e.receipt := by
  obtain ⟨receiptJson, hjson, hrow⟩ := (hlog.written e he).receiptRow
  refine .row hreadable hjson ?_
  rw [hlog.receipts, ← hrow]
  exact List.mem_map_of_mem he

theorem Step.stored (h : Step runtime driver host a event b)
    (hlog : Journal runtime log a.committed) (htraced : Traced a log) {reply : JsValue}
    (hasks : Asks a identity event (.ok reply)) (hnull : reply ≠ .null) :
    ∃ receipt, Stored runtime b.committed identity receipt ∧
      (reply = receipt ∨ reply = receipt.readBack) := by
  obtain ⟨found, hfinds, hsome, hnone⟩ := h.found hlog hasks
  cases found with
  | none =>
    obtain hreply | ⟨e, worker, faults, rfl, rfl, rfl, hjournal⟩ := hnone rfl
    · exact absurd hreply hnull
    · exact ⟨e.receipt, stored_of_log hjournal (List.mem_append_right _ (List.mem_singleton_self e))
        (htraced.pending worker e.batch h.finished), .inl rfl⟩
  | some row =>
    obtain ⟨hreceipt, hsame⟩ := hsome row rfl
    obtain ⟨c, hopen, htables, hfind⟩ := hfinds
    obtain ⟨hrow, hidentity⟩ := find_found hfind
    change row ∈ c.tables.commandReceipts at hrow
    rw [htables, hlog.receipts] at hrow
    obtain ⟨e, he, rfl⟩ := List.mem_map.mp hrow
    have hreadable := htraced.logged e he
    obtain ⟨receiptJson, hjson, hrow⟩ := (hlog.written e he).receiptRow
    rw [hrow] at hidentity hreceipt
    rw [identity_receiptRow hreadable] at hidentity
    obtain rfl := hidentity
    have hread := (parseJson_canonicalJson driver "command receipt" hjson).symm.trans hreceipt
    exact ⟨e.receipt, hsame ▸ stored_of_log hlog he hreadable, .inr (Except.ok.inj hread).symm⟩

theorem Journal.receipts_prefix {more : List Entry} {before after : Tables}
    (hbefore : Journal runtime log before) (hafter : Journal runtime (log ++ more) after) :
    before.commandReceipts <+: after.commandReceipts := by
  rw [hbefore.receipts, hafter.receipts, List.map_append]
  exact List.prefix_append _ _

theorem commit_idempotent {a₁ a₂ a₃ a₄ : Authority ι} {before later : List (AuthorityEvent ι)}
    {first second : AuthorityEvent ι} {other : CommandIdentity} {reply : JsValue}
    (hfresh : a.Fresh) (hbefore : Run (Step runtime driver host) a before a₁)
    (hfirst : Step runtime driver host a₁ first a₂)
    (hlater : Run (Step runtime driver host) a₂ later a₃)
    (hsecond : Step runtime driver host a₃ second a₄)
    (hvalid : ∀ e ∈ before, e.CommitsValid formats)
    (hasked : Asks a₁ identity first (.ok reply)) (hnull : reply ≠ .null)
    (hasks : Asks a₃ other second answer) :
    ∃ receipt, (reply = receipt ∨ reply = receipt.readBack) ∧
      (other = identity → a₄.committed = a₃.committed ∧
        ∀ reply', answer = .ok reply' → reply' = receipt.readBack) ∧
      (other.Clashes identity → a₄.committed = a₃.committed ∧ ∃ e, answer = .error e) ∧
      (second.Served → (other = identity → answer = .ok receipt.readBack) ∧
        (other.Clashes identity → answer = .error identityReused)) := by
  obtain ⟨log, hlog, htraced⟩ := traced_of_run hfresh hbefore hvalid
  obtain ⟨receipt, hstored, hreply⟩ := hfirst.stored hlog htraced hasked hnull
  obtain ⟨added, -, hlog₂⟩ := hfirst.committed.journal hlog
  obtain ⟨more, hlog₃⟩ := journal_of_run hlog₂ hlater
  have hstored₃ := hstored.mono (hlog₂.receipts_prefix hlog₃)
  refine ⟨receipt, hreply, ?_, fun hclash => ?_, hsecond.served hlog₃.keyed hstored₃ hasks⟩
  · rintro rfl
    cases answer with
    | error e => exact ⟨hsecond.refused hasks, nofun⟩
    | ok reply' =>
      obtain ⟨found, hfinds, hsome, -⟩ := hsecond.found hlog₃ hasks
      obtain ⟨row, rfl, hread⟩ := hstored₃.finds hlog₃.keyed hfinds
      obtain ⟨hreceipt, hsame⟩ := hsome row rfl
      refine ⟨hsame, fun _ hanswer => ?_⟩
      rw [← Except.ok.inj hanswer]
      exact Except.ok.inj (hreceipt.symm.trans hread)
  · cases answer with
    | error e => exact ⟨hsecond.refused hasks, e, rfl⟩
    | ok reply' =>
      obtain ⟨found, hfinds, -⟩ := hsecond.found hlog₃ hasks
      exact absurd hfinds (hstored₃.not_finds hclash)

end Steps

section Samples

def anyFormat : Format → JsString → Bool := fun _ _ => true

theorem validBatch_sample : ValidBatch anyFormat sampleBatch :=
  ⟨by decide +kernel, by decide, by decide⟩

theorem sample_idempotent : ∃ (b c : Authority Unit) (receipt : JsValue),
    Step sampleRuntime sampleDriver sampleHost b
        (.request () ⟨.commit, sampleBatch⟩ .none (.ok (.replied receipt.readBack))) c ∧
      c.committed = b.committed := by
  obtain ⟨a, hrun, reply, b, hstep, hnull, hopened, hpending, htransaction⟩ := requestedCommit_run
  have hvalid : ∀ e ∈ [.start (), requestedCommit], e.CommitsValid anyFormat :=
    List.forall_mem_cons.mpr ⟨trivial, List.forall_mem_singleton.mpr validBatch_sample⟩
  have hasked : Asks a (.ofBatch sampleBatch)
      (.finish () (.commit sampleBatch) .none (.ok reply)) (.ok reply) := .transaction rfl
  obtain ⟨log, hlog, htraced⟩ := traced_of_run ⟨rfl, fun _ => rfl⟩ hrun hvalid
  obtain ⟨receipt, hstored, -⟩ := hstep.stored hlog htraced hasked hnull
  obtain ⟨added, -, hjournal⟩ := hstep.committed.journal hlog
  have hobject : ∃ plain props, sampleBatch = .object plain props := ⟨_, _, rfl⟩
  obtain ⟨plain, props, hobject⟩ := hobject
  have hanswer := hstored.answers sampleDriver sampleHost false
    hjournal.keyed hopened htransaction (congrArg CommandIdentity.ofBatch hobject.symm)
  rw [← hobject] at hanswer
  have hsecond := Step.request hopened hpending (unlocked_alone b) hanswer
  obtain ⟨_, -, hsame, -⟩ := commit_idempotent ⟨rfl, fun _ => rfl⟩ hrun hstep (.nil b) hsecond
    hvalid hasked hnull (.commit htransaction rfl rfl)
  exact ⟨b, _, receipt, hsecond, (hsame rfl).1⟩

end Samples

end Persistence

end Aseos
