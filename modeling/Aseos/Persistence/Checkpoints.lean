import Aseos.Contracts.PersistenceRecords
import Aseos.Library.LastWriter
import Aseos.Library.Outcome
import Aseos.Persistence.Authority
import Aseos.Persistence.StoredText

namespace Aseos.Persistence

open Execution Kernel LastWriter TransitionSystem

-- What the client checks before it sends the request.
def ValidCheckpoint (formats : Format → JsString → Bool) (checkpoint : JsValue) : Prop :=
  Schema.accepts formats Schema.projectionCheckpoint checkpoint = true

def checkpointRow (checkpoint : JsValue) : CheckpointRow where
  projectionName := bound (text checkpoint "projectionName")
  projectionVersion := bound (text checkpoint "projectionVersion")
  sourceSequence := natural checkpoint "sourceSequence"
  rebuiltFromSequence :=
    match checkpoint.property (js "rebuiltFromSequence") with
    | .number _ => some (natural checkpoint "rebuiltFromSequence")
    | _ => none
  updatedAt := bound (text checkpoint "updatedAt")

def Tables.checkpoint (tables : Tables) (projectionName : Text) : Option CheckpointRow :=
  lookup CheckpointRow.projectionName tables.projectionCheckpoints projectionName

section Records

variable {formats : Format → JsString → Bool} {checkpoint : JsValue}

theorem natural_of_integer {value : JsValue} {key : String} {x : Double}
    (hproperty : value.property (js key) = .number (.finite x)) (hinteger : x.value.den = 1)
    (hnonneg : 0 ≤ x.value) : (natural value key : ℚ) = x.value := by
  have hnum : 0 ≤ x.value.num := Rat.num_nonneg.mpr hnonneg
  rw [natural, hproperty]
  dsimp only
  rw [if_pos hinteger, ← Int.cast_natCast, Int.toNat_of_nonneg hnum]
  exact (Rat.den_eq_one_iff x.value).mp hinteger

theorem ValidCheckpoint.sourceSequence (h : ValidCheckpoint formats checkpoint) :
    ∃ x : Double, checkpoint.property (js "sourceSequence") = .number (.finite x) ∧
      x.value = natural checkpoint "sourceSequence" := by
  have hmember : Schema.accepts formats Schema.sequenceNumber _ = true :=
    Schema.closedObject_member h (.tail _ (.tail _ (.tail _ (.head _)))) List.not_mem_nil
  obtain ⟨x, hx, hinteger, hmin⟩ := Schema.integer_of_between hmember
  exact ⟨x, hx, (natural_of_integer hx hinteger (by simpa using hmin)).symm⟩

end Records

section Transaction

variable {checkpoint reply : JsValue} {c : Database} {before after : Tables}

theorem safeColumn_eq_ok {n m : ℕ} {context key : String} :
    safeColumn n context key = .ok m ↔ (n : ℤ) ≤ Aseos.maxSafeInteger ∧ m = n := by
  unfold safeColumn
  split
  · rename_i hsafe
    rw [Except.ok.injEq]
    exact ⟨fun h => ⟨hsafe, h.symm⟩, fun h => h.2.symm⟩
  · rename_i hunsafe
    exact ⟨nofun, fun h => absurd h.1 hunsafe⟩

theorem verifyForward_eq_ok {existing : Option CheckpointRow}
    (h : verifyForward existing checkpoint = .ok ()) :
    ∀ row, existing = some row → row.sourceSequence ≤ natural checkpoint "sourceSequence" := by
  rintro row rfl
  obtain ⟨n, hcolumn, hforward⟩ := Except.bind_eq_ok.mp h
  obtain ⟨-, rfl⟩ := safeColumn_eq_ok.mp hcolumn
  split at hforward
  · cases hforward
  · rename_i hback
    exact Nat.le_of_not_lt hback

theorem checkpointTransaction_ok (hopen : c.opened = true)
    (h : checkpointTransaction checkpoint (working c before) = (.ok reply, working c after)) :
    after.projectionCheckpoints = upsert CheckpointRow.projectionName
        before.projectionCheckpoints (checkpointRow checkpoint) ∧
      ∀ row, before.checkpoint (checkpointRow checkpoint).projectionName = some row →
        row.sourceSequence ≤ (checkpointRow checkpoint).sourceSequence := by
  unfold checkpointTransaction at h
  rw [bind_of_ok (query_working hopen _)] at h
  obtain ⟨_, s, hlift, h⟩ := bind_eq_ok.mp h
  obtain ⟨hforward, rfl⟩ := Prod.mk.inj hlift
  obtain ⟨_, s, hinsert, hreturn⟩ := bind_eq_ok.mp h
  obtain ⟨-, rfl⟩ := Prod.mk.inj hreturn
  have hrow := (insert_working hopen (by rfl)).symm.trans hinsert
  refine ⟨?_, verifyForward_eq_ok hforward⟩
  rw [← working_inj (Prod.mk.inj hrow).2]
  rfl

end Transaction

section Runs

variable {ι : Type}

namespace AuthorityEvent

def CheckpointsValid (formats : Format → JsString → Bool) : AuthorityEvent ι → Prop
  | .request _ ⟨.saveCheckpoint, checkpoint⟩ _ _ => ValidCheckpoint formats checkpoint
  | _ => True

def save : AuthorityEvent ι → Option JsValue
  | .request _ ⟨.saveCheckpoint, checkpoint⟩ _ (.ok (.replied _)) => some checkpoint
  | _ => none

end AuthorityEvent

def saves (events : List (AuthorityEvent ι)) : List JsValue := events.filterMap AuthorityEvent.save

theorem valid_of_mem_saves {formats : Format → JsString → Bool} {events : List (AuthorityEvent ι)}
    (h : ∀ e ∈ events, e.CheckpointsValid formats) {checkpoint : JsValue}
    (hcheckpoint : checkpoint ∈ saves events) : ValidCheckpoint formats checkpoint := by
  obtain ⟨event, hevent, hsave⟩ := List.mem_filterMap.mp hcheckpoint
  have hvalid := h event hevent
  unfold AuthorityEvent.save at hsave
  split at hsave
  · obtain rfl := Option.some.inj hsave
    exact hvalid
  · cases hsave

theorem saves_snoc (events : List (AuthorityEvent ι)) (event : AuthorityEvent ι) :
    saves (events ++ [event]) = saves events ++ event.save.toList := by
  rw [saves, List.filterMap_append, List.filterMap_cons, List.filterMap_nil]
  cases event.save with
  | none => rfl
  | some checkpoint => rfl

def Distinguished (accepted : List JsValue) : Prop :=
  ∀ p ∈ accepted, ∀ q ∈ accepted,
    bound (text p "projectionName") = bound (text q "projectionName") →
      text p "projectionName" = text q "projectionName"

theorem distinguished_of_wellFormed {accepted : List JsValue}
    (h : ∀ p ∈ accepted, (text p "projectionName").wellFormed = true) : Distinguished accepted :=
  fun p hp q hq => JsString.chars_injective (h p hp) (h q hq)

def LastAccepted (accepted : List JsValue) (projectionName : JsString) (tables : Tables) : Prop :=
  ∃ last, (accepted.filter (text · "projectionName" = projectionName)).getLast? = some last ∧
    tables.checkpoint (bound projectionName) = some (checkpointRow last) ∧
    IsGreatest ((natural · "sourceSequence") '' {p | p ∈ accepted ∧
      text p "projectionName" = projectionName}) (natural last "sourceSequence")

def CheckpointsKept (tables : Tables) (accepted : List JsValue) : Prop :=
  Tracks CheckpointRow.projectionName CheckpointRow.sourceSequence tables.projectionCheckpoints
    (accepted.map checkpointRow)

theorem CheckpointsKept.lastAccepted {tables : Tables} {accepted : List JsValue}
    (h : CheckpointsKept tables accepted) (hdistinct : Distinguished accepted)
    {checkpoint : JsValue} (hcheckpoint : checkpoint ∈ accepted) :
    LastAccepted accepted (text checkpoint "projectionName") tables := by
  have hown : (accepted.map checkpointRow).filter
        (·.projectionName = bound (text checkpoint "projectionName")) =
      (accepted.filter (text · "projectionName" = text checkpoint "projectionName")).map
        checkpointRow := by
    rw [List.filter_map]
    refine congrArg _ (List.filter_congr fun p hp => decide_eq_decide.mpr ?_)
    exact ⟨hdistinct p hp checkpoint hcheckpoint, congrArg bound⟩
  have hmem : checkpoint ∈
      accepted.filter (text · "projectionName" = text checkpoint "projectionName") :=
    List.mem_filter.mpr ⟨hcheckpoint, decide_eq_true rfl⟩
  obtain ⟨last, hlast⟩ := Option.isSome_iff_exists.mp
    (List.getLast?_isSome.mpr (List.ne_nil_of_mem hmem))
  have hrow : tables.checkpoint (bound (text checkpoint "projectionName")) =
      some (checkpointRow last) := by
    rw [Tables.checkpoint, h.latest, latest, hown, List.getLast?_map, hlast]
    rfl
  obtain ⟨hwritten, hname⟩ := List.mem_filter.mp (List.mem_of_getLast? hlast)
  refine ⟨last, hlast, hrow, ⟨last, ⟨hwritten, of_decide_eq_true hname⟩, rfl⟩, ?_⟩
  rintro _ ⟨p, ⟨hp, hsame⟩, rfl⟩
  exact (h.greatest hrow).2 ⟨checkpointRow p,
    ⟨List.mem_map_of_mem hp, congrArg bound hsame⟩, rfl⟩

section Steps

variable {runtime : JsonRuntime} {driver : Driver} {host : WorkerHost}

theorem save_none {event : AuthorityEvent ι} (h : event.transaction runtime driver = none) :
    event.save = none := by
  unfold AuthorityEvent.save
  split
  · cases h
  · rfl

def Advances (before after : Tables) : Prop :=
  ∀ name row, before.checkpoint name = some row →
    ∃ row', after.checkpoint name = some row' ∧ row.sourceSequence ≤ row'.sourceSequence

theorem Advances.of_eq {before after : Tables}
    (h : after.projectionCheckpoints = before.projectionCheckpoints) : Advances before after := by
  intro name row hrow
  refine ⟨row, ?_, le_rfl⟩
  rw [Tables.checkpoint, h]
  exact hrow

theorem Committed.checkpoints {event : AuthorityEvent ι} {before after : Tables}
    {accepted : List JsValue} (h : Committed runtime driver event before after)
    (hkept : CheckpointsKept before accepted) :
    CheckpointsKept after (accepted ++ event.save.toList) ∧ Advances before after := by
  have hsame (hsave : event.save = none)
      (hrows : after.projectionCheckpoints = before.projectionCheckpoints) :
      CheckpointsKept after (accepted ++ event.save.toList) ∧ Advances before after := by
    rw [hsave, Option.toList_none, List.append_nil, CheckpointsKept, hrows]
    exact ⟨hkept, .of_eq hrows⟩
  obtain ⟨hnone, rfl⟩ | ⟨_, record, _, _, rfl, h⟩ | ⟨_, checkpoint, _, _, rfl, h⟩ |
    ⟨_, batch, _, _, rfl, h⟩ := committed_cases h
  · exact hsame (save_none hnone) rfl
  · have houtside := h.keeps (inboxTransaction_statements driver record)
    exact hsame rfl (congrArg Tables.projectionCheckpoints houtside :)
  · obtain ⟨c, hopen, haction⟩ := h
    obtain ⟨hrows, hforward⟩ := checkpointTransaction_ok hopen haction
    refine ⟨?_, fun name row hrow => ?_⟩
    · change Tracks _ _ _ ((accepted ++ [checkpoint]).map checkpointRow)
      rw [List.map_append, List.map_singleton, hrows]
      exact Tracks.upsert hkept hforward
    · have hlookup := @lookup_upsert _ _ _ CheckpointRow.projectionName name
        before.projectionCheckpoints (checkpointRow checkpoint)
      rw [← hrows] at hlookup
      by_cases hname : (checkpointRow checkpoint).projectionName = name
      · subst hname
        rw [if_pos rfl] at hlookup
        exact ⟨_, hlookup, hforward row hrow⟩
      · rw [if_neg hname] at hlookup
        exact ⟨row, hlookup.trans hrow, le_rfl⟩
  · have houtside := h.keeps (commitTransaction_statements runtime driver batch)
    exact hsame rfl (congrArg Prod.snd houtside :)

variable [DecidableEq ι] {a b c : Authority ι} {event : AuthorityEvent ι}

theorem checkpoints_kept {events : List (AuthorityEvent ι)} (hfresh : a.Fresh)
    (hrun : Run (Step runtime driver host) a events b) :
    CheckpointsKept b.committed (saves events) := by
  induction hrun with
  | nil =>
    rw [hfresh.committed]
    exact .empty
  | snoc _ hlast ih =>
    have hsaves := (hlast.committed.checkpoints ih).1
    rw [saves_snoc]
    exact hsaves

theorem Step.rejected {worker : ι} {checkpoint : JsValue} {faults : Faults} {e : Failure}
    (h : Step runtime driver host a
      (.request worker ⟨.saveCheckpoint, checkpoint⟩ faults (.error e)) b) :
    b.committed = a.committed :=
  h.committed

theorem checkpoints_advance {formats : Format → JsString → Bool}
    {events : List (AuthorityEvent ι)} (hfresh : a.Fresh)
    (hrun : Run (Step runtime driver host) a events b) (hstep : Step runtime driver host b event c)
    (hvalid : ∀ e ∈ events ++ [event], e.CheckpointsValid formats)
    (hdistinct : Distinguished (saves (events ++ [event]))) :
    (∀ checkpoint ∈ saves (events ++ [event]),
      (∃ x : Double, checkpoint.property (js "sourceSequence") = .number (.finite x) ∧
        x.value = natural checkpoint "sourceSequence") ∧
      LastAccepted (saves (events ++ [event])) (text checkpoint "projectionName") c.committed) ∧
    (∀ row ∈ c.committed.projectionCheckpoints, ∃ checkpoint ∈ saves (events ++ [event]),
      c.committed.checkpoint (bound (text checkpoint "projectionName")) = some row) ∧
    Advances b.committed c.committed ∧
    ∀ worker checkpoint faults e,
      event = .request worker ⟨.saveCheckpoint, checkpoint⟩ faults (.error e) →
        c.committed = b.committed := by
  have hkept := checkpoints_kept hfresh (hrun.snoc hstep)
  refine ⟨fun checkpoint hcheckpoint => ⟨?_, hkept.lastAccepted hdistinct hcheckpoint⟩, ?_,
    (hstep.committed.checkpoints (checkpoints_kept hfresh hrun)).2, ?_⟩
  · exact (valid_of_mem_saves hvalid hcheckpoint).sourceSequence
  · intro row hrow
    have hlookup := lookup_of_mem hkept.distinct hrow
    obtain ⟨hwritten, -⟩ := latest_mem ((hkept.latest _).symm.trans hlookup)
    obtain ⟨checkpoint, hcheckpoint, rfl⟩ := List.mem_map.mp hwritten
    exact ⟨checkpoint, hcheckpoint, hlookup⟩
  · rintro worker checkpoint faults e rfl
    exact hstep.rejected

end Steps

section Samples

def sampleCheckpoint (projectionName : JsString) (sourceSequence : JsNumber) : JsValue :=
  namedRecord [("schemaVersion", .string (js "1.0.0")), ("projectionName", .string projectionName),
    ("projectionVersion", .string (js "1.0.0")), ("sourceSequence", .number sourceSequence),
    ("rebuiltFromSequence", .null), ("updatedAt", .string (js "2026-08-31T00:00:00.000Z"))]

def sampleSaving (checkpoint : JsValue) : AuthorityEvent Unit :=
  .request () ⟨.saveCheckpoint, checkpoint⟩ .none (.ok (.replied checkpoint))

noncomputable def afterSaving (a : Authority Unit) (checkpoint : JsValue) : Authority Unit :=
  a.after () (handleReads sampleRuntime sampleDriver sampleHost ⟨.saveCheckpoint, checkpoint⟩
    ⟨a.database () false, .none⟩).2.connection none

theorem saving_step {a : Authority Unit} {checkpoint : JsValue}
    (hopened : (a.workers ()).opened = true) (hpending : (a.workers ()).pending = none)
    (hsaved : (handleReads sampleRuntime sampleDriver sampleHost ⟨.saveCheckpoint, checkpoint⟩
      ⟨a.database () false, .none⟩).1 = .ok (.replied checkpoint)) :
    Step sampleRuntime sampleDriver sampleHost a (sampleSaving checkpoint)
      (afterSaving a checkpoint) :=
  .request hopened hpending (unlocked_alone a) (Prod.ext hsaved rfl)

-- A lone surrogate is stored as U+FFFD, and so is U+FFFD.
theorem unpaired_name_overwritten :
    let first := sampleCheckpoint [0xD800] (.ofInt 5 (by decide))
    let second := sampleCheckpoint [0xFFFD] (.ofInt 7 (by decide))
    let events := [.start (), sampleSaving first, sampleSaving second]
    ValidCheckpoint (fun _ _ => true) first ∧ ValidCheckpoint (fun _ _ => true) second ∧
      first ∈ saves events ∧
      ∃ b, Run (Step sampleRuntime sampleDriver sampleHost) noAuthority events b ∧
        ¬LastAccepted (saves events) [0xD800] b.committed := by
  intro first second events
  refine ⟨?_, ?_, .head _, _, (openAuthority_run.snoc (saving_step rfl rfl rfl)).snoc
    (saving_step rfl rfl rfl), ?_⟩
  · unfold ValidCheckpoint
    decide +kernel
  · unfold ValidCheckpoint
    decide +kernel
  · rintro ⟨last, hlast, hrow, -⟩
    have hfirst : (saves events).filter (text · "projectionName" = [0xD800]) = [first] := rfl
    rw [hfirst] at hlast
    obtain rfl := Option.some.inj hlast
    have hstored : some (checkpointRow second) = some (checkpointRow first) := hrow
    exact absurd (congrArg CheckpointRow.sourceSequence (Option.some.inj hstored)) (by decide)

theorem sample_checkpoints :
    let first := sampleCheckpoint (js "qualification") (.ofInt 5 (by decide))
    let second := sampleCheckpoint (js "qualification") (.ofInt 7 (by decide))
    let saved := afterSaving openAuthority first
    LastAccepted [first, second] (js "qualification") (afterSaving saved second).committed ∧
      Advances saved.committed (afterSaving saved second).committed := by
  intro first second saved
  have hfirst : ValidCheckpoint (fun _ _ => true) first := by
    unfold ValidCheckpoint
    decide +kernel
  have hsecond : ValidCheckpoint (fun _ _ => true) second := by
    unfold ValidCheckpoint
    decide +kernel
  have hvalid : ∀ e ∈ [.start (), sampleSaving first] ++ [sampleSaving second],
      e.CheckpointsValid fun _ _ => true := by
    rw [List.forall_mem_append, List.forall_mem_cons, List.forall_mem_singleton,
      List.forall_mem_singleton]
    exact ⟨⟨trivial, hfirst⟩, hsecond⟩
  have hdistinct : Distinguished [first, second] := by
    have hwellFormed : (js "qualification").wellFormed = true := by decide
    refine distinguished_of_wellFormed fun p hp => ?_
    obtain hp | hp := List.mem_cons.mp hp
    · rw [hp]
      exact hwellFormed
    · rw [List.mem_singleton.mp hp]
      exact hwellFormed
  obtain ⟨hlast, -, hadvances, -⟩ := checkpoints_advance ⟨rfl, fun _ => rfl⟩
    (openAuthority_run.snoc (saving_step rfl rfl rfl)) (saving_step rfl rfl rfl) hvalid hdistinct
  exact ⟨(hlast first (.head _)).2, hadvances⟩

end Samples

end Runs

end Aseos.Persistence
