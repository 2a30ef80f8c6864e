import Aseos.Kernel.PreparedBatch
import Aseos.Persistence.CommitIdempotency

namespace Aseos.Persistence

open Execution Kernel StreamLog TransitionSystem

def defaultReadLimit : JsNumber := integer 10000

def readPayload (aggregateType aggregateId : JsString) (limit : JsNumber) : JsValue :=
  .record [(js "aggregateType", .string aggregateType), (js "aggregateId", .string aggregateId),
    (js "limit", .number limit)]

-- The request that `readEvents` of the client posts.
def readEventsRequest (aggregateType aggregateId : JsString) (limit : JsNumber) :
    Except Failure WorkerRequest :=
  if limit.isSafeInteger = false ∨ limit.lt (integer 1) ∨ (integer 100000).lt limit then
    reject .contractInvalid "readEvents limit must be between 1 and 100000"
  else .ok ⟨.readEvents, readPayload aggregateType aggregateId limit⟩

section Streams

variable {runtime : JsonRuntime} {log : List Entry} {tables : Tables}

def committedEvents (log : List Entry) (key : Text × Text) : List JsValue :=
  (log.filter fun e => streamKey e.batch = key).flatMap fun e => elements e.batch "events"

theorem streamRows_eq (h : Journal runtime log tables) (key : Text × Text) :
    streamRows tables key.1 key.2 = ofStream EventRow.stream key tables.eventJournal := by
  have hsame : tables.eventJournal.filter (·.inStream key.1 key.2) =
      ofStream EventRow.stream key tables.eventJournal :=
    List.filter_congr fun row _ => decide_eq_decide.mpr
      (Prod.ext_iff (x := row.stream) (y := key)).symm
  rw [streamRows, hsame]
  exact sortBy_eq_self (h.contiguous.pairwise key)

theorem Journal.journaled (h : Journal runtime log tables) (key : Text × Text) :
    List.Forall₂ (Journaled runtime) (committedEvents log key)
      (ofStream EventRow.stream key tables.eventJournal) := by
  rw [h.events, ofStream_flatMap fun e he => (h.written e he).stream, committedEvents]
  have hwritten : ∀ e ∈ log.filter fun e => streamKey e.batch = key, e.Written runtime :=
    fun e he => h.written e (List.mem_filter.mp he).1
  generalize log.filter _ = own at hwritten ⊢
  induction own with
  | nil => exact .nil
  | cons e own ih =>
    obtain ⟨hfirst, hrest⟩ := List.forall_mem_cons.mp hwritten
    exact List.rel_append hfirst.events (ih hrest)

theorem journaled_versions {events : List JsValue} {rows : List EventRow}
    (h : List.Forall₂ (Journaled runtime) events rows) :
    events.map (natural · "aggregateVersion") = rows.map (·.aggregateVersion) := by
  induction h with
  | nil => rfl
  | cons hrow _ ih => rw [List.map_cons, List.map_cons, ih, (Journaled.fields hrow).2.1]

theorem Journal.versions (h : Journal runtime log tables) (key : Text × Text) :
    (committedEvents log key).map (natural · "aggregateVersion") =
      List.range' 1 (committedEvents log key).length := by
  have hjournaled := h.journaled key
  rw [journaled_versions hjournaled, h.contiguous key, hjournaled.length_eq]

theorem Journaled.parseJson {event : JsValue} {row : EventRow} (driver : Driver)
    (h : Journaled runtime event row) :
    parseJson runtime driver row.eventJson "event journal" = .ok event.readBack := by
  unfold Journaled eventRow at h
  obtain ⟨payloadJson, -, h⟩ := Except.bind_eq_ok.mp h
  obtain ⟨eventJson, hjson, h⟩ := Except.bind_eq_ok.mp h
  have heventJson := congrArg EventRow.eventJson (Except.ok.inj h)
  change bound eventJson = row.eventJson at heventJson
  rw [← heventJson]
  exact parseJson_canonicalJson driver _ (foreign_eq_ok.mp hjson)

def firstEvents (log : List Entry) (key : Text × Text) (count : ℕ) : JsValue :=
  Json.arrayOf (((committedEvents log key).take count).map JsValue.readBack)

theorem Journal.parseRows (h : Journal runtime log tables) (driver : Driver) (key : Text × Text)
    (count : ℕ) :
    ((streamRows tables key.1 key.2).take count).mapM
        (fun row => parseJson runtime driver row.eventJson "event journal") =
      .ok (((committedEvents log key).take count).map JsValue.readBack) := by
  rw [streamRows_eq h]
  have hjournaled := List.forall₂_take count (h.journaled key)
  exact Except.mapM_eq_ok.mpr (List.forall₂_map_right_iff.mpr
    (hjournaled.flip.imp fun _ _ hrow => Journaled.parseJson driver hrow))

end Streams

section Limits

variable {aggregateType aggregateId : JsString} {limit : JsNumber} {request : WorkerRequest}

def ReadLimit (limit : JsNumber) (most : ℕ) : Prop :=
  1 ≤ most ∧ most ≤ 100000 ∧ ∃ x : Double, limit = .finite x ∧ x.value = most

theorem isSafeInteger_natCast {x : Double} {n : ℕ} (hvalue : x.value = n) (hsmall : n ≤ 100000) :
    x.isSafeInteger = true ∧ x.value.num = n := by
  have hden : x.value.den = 1 := by rw [hvalue, Rat.den_natCast]
  have hnum : x.value.num = n := by rw [hvalue, Rat.num_natCast]
  refine ⟨?_, hnum⟩
  rw [Double.isSafeInteger, hden, hnum, maxSafeInteger]
  simp only [beq_self_eq_true, Bool.true_and, decide_eq_true_eq]
  rw [abs_of_nonneg (Int.natCast_nonneg n)]
  omega

theorem requiredSafeInteger_limit {most : ℕ} {context : String} (h : ReadLimit limit most) :
    requiredSafeInteger (readPayload aggregateType aggregateId limit) "limit" context =
      .ok most := by
  obtain ⟨-, hmost, x, rfl, hvalue⟩ := h
  obtain ⟨hsafe, hnum⟩ := isSafeInteger_natCast hvalue hmost
  change (if x.isSafeInteger then Except.ok x.value.num else _) = _
  rw [if_pos hsafe, hnum]

theorem integer_eq {n : ℕ} (h : |(n : ℤ)| < 2 ^ 53) : integer n = .ofInt n h := dif_pos h

theorem lt_integer {x : Double} {n : ℕ} (h : n ≤ 100000) :
    ((JsNumber.finite x).lt (integer n) = true ↔ x.value < n) ∧
      ((integer n).lt (.finite x) = true ↔ (n : ℚ) < x.value) := by
  have hexact : |(n : ℤ)| < 2 ^ 53 := by
    rw [abs_of_nonneg (Int.natCast_nonneg n)]
    omega
  rw [integer_eq hexact]
  simp [JsNumber.ofInt, JsNumber.lt, Double.lt, Double.ofInt]

theorem readEventsRequest_eq_ok :
    readEventsRequest aggregateType aggregateId limit = .ok request ↔
      request = ⟨.readEvents, readPayload aggregateType aggregateId limit⟩ ∧
        ∃ most, ReadLimit limit most := by
  rw [readEventsRequest]
  constructor
  · intro h
    split at h
    · cases h
    · rename_i hbounds
      simp only [not_or, Bool.not_eq_false, Bool.not_eq_true] at hbounds
      obtain ⟨hsafe, hone, hmost⟩ := hbounds
      refine ⟨(Except.ok.inj h).symm, ?_⟩
      cases limit with
      | finite x =>
        have hone := (lt_integer (x := x) (n := 1) (by decide)).1.not.mp (by simp [hone])
        have hmost := (lt_integer (x := x) (n := 100000) le_rfl).2.not.mp (by simp [hmost])
        have hden := eq_of_beq (Bool.and_eq_true_iff.mp hsafe).1
        have hnum := (Rat.den_eq_one_iff x.value).mp hden
        rw [← hnum, not_lt] at hone hmost
        have hone : 1 ≤ x.value.num := by exact_mod_cast hone
        have hmost : x.value.num ≤ 100000 := by exact_mod_cast hmost
        refine ⟨x.value.num.toNat, by omega, by omega, x, rfl, ?_⟩
        calc x.value = x.value.num := hnum.symm
          _ = ((x.value.num.toNat : ℤ) : ℚ) := by rw [Int.toNat_of_nonneg (by omega)]
          _ = x.value.num.toNat := Int.cast_natCast _
      | _ => cases hsafe
  · rintro ⟨rfl, most, hone, hmost, x, rfl, hvalue⟩
    obtain ⟨hsafe, -⟩ := isSafeInteger_natCast hvalue hmost
    refine if_neg ?_
    rintro (hrefused | hlow | hhigh)
    · exact absurd (hsafe.symm.trans hrefused) (by decide)
    · have hlow := (lt_integer (n := 1) (by decide)).1.mp hlow
      rw [hvalue] at hlow
      exact absurd (Nat.cast_lt.mp hlow) (by omega)
    · have hhigh := (lt_integer (n := 100000) le_rfl).2.mp hhigh
      rw [hvalue] at hhigh
      exact absurd (Nat.cast_lt.mp hhigh) (by omega)

theorem ReadLimit.unique {most most' : ℕ} (h : ReadLimit limit most) (h' : ReadLimit limit most') :
    most = most' := by
  obtain ⟨-, -, x, rfl, hvalue⟩ := h
  obtain ⟨-, -, y, hsame, hvalue'⟩ := h'
  obtain rfl := JsNumber.finite.inj hsame
  exact Nat.cast_inj.mp (hvalue.symm.trans hvalue')

theorem ten_thousand_exact : |((10000 : ℕ) : ℤ)| < 2 ^ 53 := by decide

theorem readLimit_default : ReadLimit defaultReadLimit 10000 :=
  ⟨by decide, by decide, .ofInt 10000 ten_thousand_exact, integer_eq ten_thousand_exact, rfl⟩

end Limits

section Reading

variable {runtime : JsonRuntime} {driver : Driver} {host : WorkerHost}
  {aggregateType aggregateId : JsString} {limit : JsNumber} {most : ℕ} {s t : Session}
  {log : List Entry} {reply : JsValue}

theorem query_eq_ok {α : Type} {run : Tables → α} {a : α} (h : Sql.query run s = (.ok a, t)) :
    s.connection.opened = true ∧ a = run s.connection.tables := by
  have hopen := (Sql.guarded_eq_ok.mp h).1
  have hcalm := Sql.statement_unaffected (fun tables => .ok (run tables, tables)) _ _ _ h
  have hsame := (query_calm hopen run).symm.trans hcalm
  exact ⟨hopen, (Except.ok.inj (Prod.mk.inj hsame).1).symm⟩

theorem readEvents_eq (h : ReadLimit limit most) :
    readEvents runtime driver (readPayload aggregateType aggregateId limit) = (do
      let rows ← Sql.query fun tables =>
        (streamRows tables (bound aggregateType) (bound aggregateId)).take most
      let events ← lift (rows.mapM fun row =>
        parseJson runtime driver row.eventJson "event journal")
      return Json.arrayOf events : Sql JsValue) := by
  have hlimited {α : Type} (rows : List α) : limited (most : ℤ) rows = rows.take most :=
    if_neg (by omega)
  unfold readEvents
  rw [requiredSafeInteger_limit h]
  change Sql.query (fun tables =>
    limited (most : ℤ) (streamRows tables (bound aggregateType) (bound aggregateId))) >>= _ = _
  simp only [hlimited]
  rfl

theorem reading_answered (hlimit : ReadLimit limit most)
    (hlog : Journal runtime log s.connection.tables)
    (h : handleReads runtime driver host
      ⟨.readEvents, readPayload aggregateType aggregateId limit⟩ s = (.ok (.replied reply), t)) :
    reply = firstEvents log (bound aggregateType, bound aggregateId) most := by
  obtain ⟨_, u, hrecord, hrest⟩ := bind_eq_ok.mp h
  obtain ⟨-, rfl⟩ := Prod.mk.inj hrecord
  obtain ⟨value, v, hhandle, hresult⟩ := bind_eq_ok.mp hrest
  obtain rfl := Phase.replied.inj (Except.ok.inj (Prod.mk.inj hresult).1)
  obtain ⟨_, u, hrecord₂, hread⟩ := bind_eq_ok.mp hhandle
  obtain ⟨-, rfl⟩ := Prod.mk.inj hrecord₂
  dsimp only at hread
  rw [readEvents_eq hlimit] at hread
  obtain ⟨rows, w, hquery, hread⟩ := bind_eq_ok.mp hread
  obtain ⟨-, rfl⟩ := query_eq_ok hquery
  obtain ⟨events, x, hparse, hread⟩ := bind_eq_ok.mp hread
  have hevents := (hlog.parseRows driver (bound aggregateType, bound aggregateId) most).symm.trans
    (Prod.mk.inj hparse).1
  obtain rfl := Except.ok.inj hevents
  exact (Except.ok.inj (Prod.mk.inj hread).1).symm

theorem reading_served {c : Database} (hlimit : ReadLimit limit most) (hopen : c.opened = true)
    (hlog : Journal runtime log c.tables) :
    handleReads runtime driver host
        ⟨.readEvents, readPayload aggregateType aggregateId limit⟩ ⟨c, .none⟩ =
      (.ok (.replied (firstEvents log (bound aggregateType, bound aggregateId) most)),
        ⟨c, .none⟩) := by
  have hread : readEvents runtime driver (readPayload aggregateType aggregateId limit)
      ⟨c, .none⟩ = (.ok (firstEvents log (bound aggregateType, bound aggregateId) most),
        ⟨c, .none⟩) := by
    rw [readEvents_eq hlimit, bind_of_ok (query_calm hopen _),
      hlog.parseRows driver (bound aggregateType, bound aggregateId) most]
    rfl
  exact bind_of_ok hread

end Reading

section Runs

variable {ι : Type} [DecidableEq ι] {runtime : JsonRuntime} {driver : Driver} {host : WorkerHost}
  {a b : Authority ι} {log : List Entry}

omit [DecidableEq ι] in
theorem exists_locked (a : Authority ι) (worker : ι) :
    ∃ locked, locked = true ↔ a.LockedElsewhere worker := by
  classical
  exact ⟨decide (a.LockedElsewhere worker), decide_eq_true_iff⟩

theorem firstEvents_complete {key : Text × Text} {most : ℕ} :
    firstEvents log key most = Json.arrayOf ((committedEvents log key).map JsValue.readBack) ↔
      (committedEvents log key).length ≤ most := by
  constructor
  · intro h
    have hlength := congrArg List.length (arrayOf_injective h)
    rw [List.length_map, List.length_map, List.length_take] at hlength
    exact min_eq_right_iff.mp hlength
  · intro h
    rw [firstEvents, List.take_of_length_le h]

theorem stream_reading {State : Type} {events : List (AuthorityEvent ι)}
    (formats : Format → JsString → Bool) (registry : CommandRegistry)
    (domain : AggregateDefinition State) (hfresh : a.Fresh)
    (hrun : Run (Step runtime driver host) a events b) :
    ∃ log, Journal runtime log b.committed ∧
      ∀ aggregateType aggregateId limit request,
        readEventsRequest aggregateType aggregateId limit = .ok request →
        ∃ most, ReadLimit limit most ∧ ∀ key, key = (bound aggregateType, bound aggregateId) →
          ((committedEvents log key).map (natural · "aggregateVersion") =
            List.range' 1 (committedEvents log key).length) ∧
          (firstEvents log key most =
              Json.arrayOf ((committedEvents log key).map JsValue.readBack) ↔
            (committedEvents log key).length ≤ most) ∧
          (∀ worker, (b.workers worker).transaction = none →
            (∀ faults reply c, Step runtime driver host b
                (.request worker request faults (.ok (.replied reply))) c →
              reply = firstEvents log key most ∧ c.committed = b.committed) ∧
            ((b.workers worker).opened = true → (b.workers worker).pending = none →
              ∃ c, Step runtime driver host b
                (.request worker request .none (.ok (.replied (firstEvents log key most)))) c)) ∧
          ∀ given context transition, prepare runtime formats registry domain given
              (firstEvents log key most) context = .ok transition →
            natural (stream transition.batch) "expectedVersion" =
              min most (committedEvents log key).length := by
  obtain ⟨log, hlog⟩ := journal_of_run hfresh.journal hrun
  refine ⟨log, hlog, fun aggregateType aggregateId limit request hrequest => ?_⟩
  obtain ⟨rfl, most, hlimit⟩ := readEventsRequest_eq_ok.mp hrequest
  refine ⟨most, hlimit, ?_⟩
  rintro key rfl
  refine ⟨hlog.versions _, firstEvents_complete, fun worker hnone => ⟨?_, ?_⟩, ?_⟩
  · intro faults reply c hstep
    refine ⟨?_, hstep.committed⟩
    cases hstep with
    | request _ _ _ hresult =>
      exact reading_answered hlimit ((database_tables hnone).symm ▸ hlog) hresult
  · intro hopened hpending
    obtain ⟨locked, hlocked⟩ := exists_locked b worker
    have htables : (b.database worker locked).tables = b.committed := database_tables hnone
    exact ⟨_, .request hopened hpending hlocked
      (reading_served hlimit hopened (htables.symm ▸ hlog))⟩
  · intro given context transition hprepare
    have hversion := prepared_version hprepare
    rwa [List.length_map, List.length_take] at hversion

end Runs

section Samples

theorem sample_reading : ∃ (log : List Entry) (a b : Authority Unit),
    Journal sampleRuntime log a.committed ∧
      Step sampleRuntime sampleDriver sampleHost a (.request ()
        ⟨.readEvents, readPayload (js "Counter") (js "run") defaultReadLimit⟩ .none
        (.ok (.replied (firstEvents log (bound (js "Counter"), bound (js "run")) 10000)))) b := by
  obtain ⟨a, hrun, receipt, b, hstep, -, hopened, hpending, htransaction⟩ := requestedCommit_run
  obtain ⟨log, hlog, hreads⟩ := stream_reading anyFormat sampleCommandRegistry sampleDomain
    ⟨rfl, fun _ => rfl⟩ (hrun.snoc hstep)
  obtain ⟨most, hlimit, hread⟩ := hreads (js "Counter") (js "run") defaultReadLimit _
    (readEventsRequest_eq_ok.mpr ⟨rfl, 10000, readLimit_default⟩)
  obtain ⟨-, -, hanswers, -⟩ := hread _ rfl
  obtain ⟨c, hserved⟩ := (hanswers () htransaction).2 hopened hpending
  rw [hlimit.unique readLimit_default] at hserved
  exact ⟨log, b, c, hlog, hserved⟩

end Samples

end Aseos.Persistence
