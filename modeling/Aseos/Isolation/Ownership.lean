import Aseos.Isolation.Cancellation
import Aseos.Isolation.EvidenceContract

namespace Aseos.Isolation

open TransitionSystem

section Reasons

variable {limits : Limits} {usage : Usage} {reason value : ℤ}

theorem compareExchange_eq {n : ℤ} (h : compareExchange reason value = n) :
    reason = n ∨ value = n := by
  rw [compareExchange] at h
  split at h
  · exact .inr h
  · exact .inl h

theorem pollReason_cancelled {hostExited cancellationExists : Bool}
    (h : pollReason limits hostExited cancellationExists usage reason = 4) :
    reason = 4 ∨ hostExited = true ∨ cancellationExists = true := by
  have hother {n : ℤ} (hn : n ≠ 4) (h : compareExchange reason n = 4) : reason = 4 :=
    (compareExchange_eq h).resolve_right hn
  rw [pollReason] at h
  split at h
  · rename_i hcause
    exact .inr (Bool.or_eq_true_iff.mp hcause)
  · refine .inl ?_
    split at h
    · exact hother (by decide) h
    · split at h
      · exact hother (by decide) h
      · split at h
        · exact hother (by decide) h
        · split at h
          · exact hother (by decide) h
          · exact h

theorem closingReason_cancelled (h : closingReason limits usage reason = 4) : reason = 4 := by
  rw [closingReason] at h
  split at h
  · cases h
  · split at h
    · cases h
    · exact h

theorem ResourceNotification.reason_ne (notification : ResourceNotification) :
    notification.reason ≠ 4 := by
  cases notification <;> decide

theorem OutputStream.reason_ne (stream : OutputStream) : stream.reason ≠ 4 := by
  cases stream <;> decide

end Reasons

section Invariant

variable {Entry : Type} {marker : Entry}

def Cancellable (s : RunState Entry) : Prop := s.aborted = true ∨ s.hostExited = true

structure Owned (marker : Entry) (s : RunState Entry) : Prop where
  file : marker ∈ s.files → s.aborted = true
  pending : s.markerPending = true → s.aborted = true
  cancelled : s.cancelled = true → s.aborted = true
  reason : s.terminationReason = 4 → Cancellable s
  outcome : ∀ o, s.phase = .ended (some o) → o.terminationReason = 4 → Cancellable s

theorem Owned.initial {files : List Entry} (h : marker ∉ files) : Owned marker { files := files } :=
  ⟨fun hmem => absurd hmem h, nofun, nofun, nofun, nofun⟩

variable {s t : RunState Entry}

theorem Owned.withFiles (h : Owned marker s) {files : List Entry}
    (hfiles : marker ∈ files → s.aborted = true) : Owned marker { s with files := files } :=
  ⟨hfiles, h.pending, h.cancelled, h.reason, h.outcome⟩

theorem Owned.withReason (h : Owned marker s) {reason : ℤ} (hreason : reason = 4 → Cancellable s) :
    Owned marker { s with terminationReason := reason } :=
  ⟨h.file, h.pending, h.cancelled, hreason, h.outcome⟩

theorem Owned.withPhase (h : Owned marker s) {phase : Phase}
    (hphase : ∀ o, phase = .ended (some o) → o.terminationReason = 4 → Cancellable s) :
    Owned marker { s with phase := phase } :=
  ⟨h.file, h.pending, h.cancelled, h.reason, hphase⟩

theorem Owned.compareExchange (h : Owned marker s) {value : ℤ} (hvalue : value ≠ 4) :
    Owned marker { s with
      terminationReason := Isolation.compareExchange s.terminationReason value } :=
  h.withReason fun hreason => h.reason ((compareExchange_eq hreason).resolve_right hvalue)

variable [DecidableEq Entry] {limits : Limits} {event : RunEvent Entry}

theorem Owned.poll (h : Owned marker s) (usage : Usage) {phase : Phase}
    (hphase : ∀ o, phase ≠ .ended (some o)) :
    Owned marker { s with
      terminationReason := pollReason limits s.hostExited (marker ∈ s.files) usage
        s.terminationReason
      phase := phase } := by
  have hreason (hcancelled : pollReason limits s.hostExited (marker ∈ s.files) usage
      s.terminationReason = 4) : Cancellable s := by
    obtain hold | hhost | hfile := pollReason_cancelled hcancelled
    · exact h.reason hold
    · exact .inr hhost
    · exact .inl (h.file (of_decide_eq_true hfile))
  exact (h.withReason hreason).withPhase fun o ho => absurd ho (hphase o)

omit [DecidableEq Entry] in
theorem Owned.finish (h : Owned marker s) {usage : Usage} {outcome : RunOutcome}
    (houtcome : outcome.terminationReason = closingReason limits usage s.terminationReason) :
    Owned marker { s with
      terminationReason := closingReason limits usage s.terminationReason
      phase := .ended (some outcome) } := by
  refine (h.withReason fun hreason => h.reason (closingReason_cancelled hreason)).withPhase
    fun o ho hreason => ?_
  cases ho
  exact h.reason (closingReason_cancelled (houtcome.symm.trans hreason))

theorem runStep_owned (h : runStep limits marker s event = some t)
    (hevent : event ≠ .childCreates marker) (hs : Owned marker s) : Owned marker t := by
  unfold runStep at h
  split at h
  · cases h
  cases event with
  | abort =>
    obtain rfl := Option.some.inj h
    exact ⟨fun _ => rfl, fun _ => rfl, fun _ => rfl, fun _ => .inl rfl, fun _ _ _ => .inl rfl⟩
  | writeMarker =>
    dsimp only at h
    split at h
    · cases h
    rename_i hpending
    have haborted := hs.pending (by simpa using hpending)
    split at h <;> obtain rfl := Option.some.inj h
    · exact ⟨hs.file, nofun, hs.cancelled, hs.reason, nofun⟩
    · exact ⟨fun _ => haborted, nofun, hs.cancelled, hs.reason, hs.outcome⟩
  | hostExit =>
    obtain rfl := Option.some.inj h
    exact ⟨hs.file, hs.pending, hs.cancelled, fun _ => .inr rfl, fun _ _ _ => .inr rfl⟩
  | resume =>
    dsimp only at h
    split at h <;> cases h
    exact hs.withPhase fun o ho => by split at ho <;> cases ho
  | childCreates entry =>
    dsimp only at h
    split at h <;> cases h
    refine hs.withFiles fun hmem => hs.file ((List.mem_cons.mp hmem).resolve_left fun heq => ?_)
    exact hevent (heq ▸ rfl)
  | childRemoves entry =>
    dsimp only at h
    split at h <;> cases h
    exact hs.withFiles fun hmem => hs.file (List.mem_of_mem_filter hmem)
  | overflow stream =>
    dsimp only at h
    split at h <;> cases h
    exact hs.compareExchange stream.reason_ne
  | notify notification =>
    dsimp only at h
    split at h <;> cases h
    exact hs.compareExchange notification.reason_ne
  | poll usage childExited =>
    dsimp only at h
    split at h <;> cases h
    exact hs.poll usage fun o ho => by split at ho <;> cases ho
  | finish usage outcome =>
    dsimp only at h
    split at h
    · split at h <;> cases h
      rename_i houtcome
      exact hs.finish houtcome
    · cases h
  | fail =>
    obtain rfl := Option.some.inj h
    exact hs.withPhase nofun

theorem replay_owned {events : List (RunEvent Entry)}
    (h : replay (runStep limits marker) s events = some t)
    (hevents : ∀ event ∈ events, event ≠ .childCreates marker) (hs : Owned marker s) :
    Owned marker t := by
  induction events generalizing s with
  | nil =>
    obtain rfl := Option.some.inj h
    exact hs
  | cons event events ih =>
    obtain ⟨u, hu, hrest⟩ := Option.bind_eq_some_iff.mp h
    obtain ⟨hevent, hevents⟩ := List.forall_mem_cons.mp hevents
    exact ih hrest hevents (runStep_owned hu hevent hs)

end Invariant

section Staged

variable {runtime : AdapterRuntime} {Entry : Type} [DecidableEq Entry]
  {fs : StagingFiles runtime Entry} {request : Props} {stagingDirectory : JsString}

def InputsSpare (fs : StagingFiles runtime Entry) (request : Props) (stagingDirectory : JsString) :
    Prop :=
  ∀ inputs, relativePaths request = .ok inputs → ∀ relativePath ∈ inputs, ∀ destination,
    safeInputPath runtime stagingDirectory relativePath = .ok destination →
      fs.entry destination ≠ cancellationFile fs stagingDirectory

theorem writeNew_eq {files files' : List Entry} {path : JsString}
    (h : writeNew fs files path = some files') : files' = fs.entry path :: files := by
  rw [writeNew] at h
  split at h
  · cases h
  · exact (Option.some.inj h).symm

theorem stageInputs_spare {inputs : List JsString} {files files' : List Entry}
    (h : inputs.foldlM (stageInput fs stagingDirectory) files = some files')
    (hspare : ∀ relativePath ∈ inputs, ∀ destination,
      safeInputPath runtime stagingDirectory relativePath = .ok destination →
        fs.entry destination ≠ cancellationFile fs stagingDirectory)
    (hfiles : cancellationFile fs stagingDirectory ∉ files) :
    cancellationFile fs stagingDirectory ∉ files' := by
  induction inputs generalizing files with
  | nil =>
    obtain rfl := Option.some.inj h
    exact hfiles
  | cons relativePath inputs ih =>
    obtain ⟨hfirst, hspare⟩ := List.forall_mem_cons.mp hspare
    rw [List.foldlM_cons] at h
    obtain ⟨middle, hmiddle, h⟩ := Option.bind_eq_some_iff.mp h
    obtain ⟨destination, hdestination, hwrite⟩ := Option.bind_eq_some_iff.mp hmiddle
    refine ih h hspare ?_
    rw [writeNew_eq hwrite]
    exact List.not_mem_cons_of_ne_of_not_mem
      (hfirst destination (Except.toOption_eq_some.mp hdestination)).symm hfiles

theorem stagedFiles_spare {files : List Entry}
    (h : stagedFiles fs request stagingDirectory = some files)
    (hspare : InputsSpare fs request stagingDirectory) :
    cancellationFile fs stagingDirectory ∉ files := by
  obtain ⟨staged, hstaged, hwrite⟩ := Option.bind_eq_some_iff.mp h
  obtain ⟨inputs, hinputs, hstaged⟩ := Option.bind_eq_some_iff.mp hstaged
  rw [writeNew_eq hwrite]
  refine List.not_mem_cons_of_ne_of_not_mem (fs.request_ne_cancel stagingDirectory).symm ?_
  exact stageInputs_spare hstaged (hspare inputs (Except.toOption_eq_some.mp hinputs))
    List.not_mem_nil

end Staged

section Reported

variable {reading : IntegerReading} {host : EvidenceHost} {request : Props}
  {capability : IsolationCapabilityReport} {o : RunOutcome} {r : Response}

theorem terminationReason_mem (response : JsValue) :
    terminationReason response ∈ "EXITED" :: "OUTPUT_LIMIT" :: limitReasons := by
  rw [terminationReason]
  split
  · exact List.mem_cons_self
  · cases hfind : limitReasons.find? fun reason =>
      isTextOf reason (response.property (js "reason")) with
    | none => exact List.mem_cons_of_mem _ List.mem_cons_self
    | some reason =>
      exact List.mem_cons_of_mem _ (List.mem_cons_of_mem _ (List.mem_of_find?_eq_some hfind))

theorem terminationReason_cancelled {response : JsValue}
    (h : terminationReason response = "CANCELLED") :
    isTextOf "CANCELLED" (response.property (js "reason")) = true := by
  rw [terminationReason] at h
  split at h
  · exact absurd h (by decide)
  · cases hfind : limitReasons.find? fun reason =>
      isTextOf reason (response.property (js "reason")) with
    | none =>
      rw [hfind] at h
      exact absurd h (by decide)
    | some reason =>
      rw [hfind] at h
      obtain rfl : reason = "CANCELLED" := h
      have hfound := List.find?_some hfind
      exact hfound

theorem cancelled_of_text {response : JsValue}
    (h : js (terminationReason response) = js "CANCELLED") :
    isTextOf "CANCELLED" (response.property (js "reason")) = true := by
  have htexts : ∀ reason ∈ "EXITED" :: "OUTPUT_LIMIT" :: limitReasons,
      js reason = js "CANCELLED" → reason = "CANCELLED" := by decide
  exact terminationReason_cancelled (htexts _ (terminationReason_mem response) h)

theorem cancelled_of_outcome {response : JsValue} {succeeded : Bool}
    (h : js (outcomeText succeeded (terminationReason response)) = js "CANCELLED") :
    isTextOf "CANCELLED" (response.property (js "reason")) = true := by
  rw [outcomeText] at h
  split at h
  · exact absurd h (by decide)
  · split at h
    · rename_i hreason
      exact terminationReason_cancelled hreason
    · split at h <;> exact absurd h (by decide)

theorem cancelledEvidence_reason
    (h : cancelledEvidence (namedRecord (evidenceMembers host request capability
      (parsedResponse reading r))) = true) :
    isTextOf "CANCELLED" ((parsedResponse reading r).property (js "reason")) = true := by
  have hresult := @members_get host request capability (parsedResponse reading r)
    (evidenceResult (parsedResponse reading r)) "result" (by simp [evidenceMembers])
  obtain ⟨succeeded, codes, hmembers⟩ := @evidenceResult_members reading r
  have hproperty : (namedRecord (evidenceMembers host request capability
      (parsedResponse reading r))).property (js "result") = namedRecord _ := hresult.trans hmembers
  have houtcome := @resultMembers_get
    (js (outcomeText succeeded (terminationReason (parsedResponse reading r))))
    (js (terminationReason (parsedResponse reading r)))
    (orNull (r.exitCode.map fun n => readInteger reading n.toInt)) codes _ "outcome"
    List.mem_cons_self
  have hreason := @resultMembers_get
    (js (outcomeText succeeded (terminationReason (parsedResponse reading r))))
    (js (terminationReason (parsedResponse reading r)))
    (orNull (r.exitCode.map fun n => readInteger reading n.toInt)) codes
    (.string (js (terminationReason (parsedResponse reading r)))) "terminationReason"
    (by simp [resultMembers])
  rw [cancelledEvidence, hproperty, namedRecord, JsValue.property, JsValue.property, houtcome,
    hreason, Bool.or_eq_true, isTextOf_string, isTextOf_string] at h
  exact h.elim cancelled_of_outcome cancelled_of_text

theorem reasonText_cancelled (h : reasonText o.terminationReason = some (js "CANCELLED")) :
    o.terminationReason = 4 := by
  have htext (text : String) (hne : js text ≠ js "CANCELLED") :
      some (js text) ≠ some (js "CANCELLED") := fun heq => hne (Option.some.inj heq)
  rw [reasonText] at h
  split at h
  · exact absurd h (htext _ (by decide))
  · split at h
    · exact absurd h (htext _ (by decide))
    · split at h
      · assumption
      · split at h
        · exact absurd h (htext _ (by decide))
        · split at h
          · exact absurd h (htext _ (by decide))
          · split at h
            · exact absurd h (htext _ (by decide))
            · cases h

theorem processResult_cancelled (h : (processResult reading host request capability
    (some o)).isCancelled = true) : o.terminationReason = 4 := by
  rw [processResult, Option.bind_some] at h
  cases hresponse : runResponse o with
  | none => rw [hresponse] at h; cases h
  | some r =>
    have hnormal := runResponse_normal hresponse
    have hproperty : (parsedResponse reading r).property (js "reason") =
        orNull ((reasonText o.terminationReason).map .string) := by
      rw [← hnormal.reason]
      exact parsedResponse_property (by simp [responseMembers])
    have hcancelled : isTextOf "CANCELLED" ((parsedResponse reading r).property (js "reason")) =
        true := by
      simp only [hresponse] at h
      split at h
      · cases h
      · rename_i evidence hevidence
        have hcases := hevidence
        rw [createEvidence] at hcases
        split at hcases
        · cases hcases
        · obtain rfl := Except.ok.inj hcases
          split at h
          · obtain hreason | hevidence := Bool.or_eq_true_iff.mp h
            · cases hreasonText : reasonText o.terminationReason with
              | none =>
                rw [hproperty, hreasonText] at hreason
                exact absurd hreason (by decide)
              | some reason =>
                rw [hproperty, hreasonText] at hreason ⊢
                exact hreason
            · exact cancelledEvidence_reason hevidence
          · exact cancelledEvidence_reason h
    rw [hproperty] at hcancelled
    cases hreason : reasonText o.terminationReason with
    | none =>
      rw [hreason] at hcancelled
      cases hcancelled
    | some reason =>
      rw [hreason] at hcancelled
      exact reasonText_cancelled (hreason.trans (congrArg some (isTextOf_string.mp hcancelled)))

end Reported

theorem cancelled_only_by_owner {Entry : Type} [DecidableEq Entry] (runtime : AdapterRuntime)
    (fs : StagingFiles runtime Entry) (reading : IntegerReading) (host : EvidenceHost)
    (request : Props) (tool : TrustedToolDescriptor)
    (prepared : Except RequestError CanonicalPaths) (paths : CanonicalPaths)
    (capability : IsolationCapabilityReport) (limits : Limits) (stagingDirectory : JsString)
    (files : List Entry) (events : List (RunEvent Entry)) (s : RunState Entry)
    (outcome : Option RunOutcome)
    (_hrequest : validateRequest runtime request tool prepared = .ok paths)
    (hstaged : stagedFiles fs request stagingDirectory = some files)
    (hinputs : InputsSpare fs request stagingDirectory)
    (hchild : ∀ event ∈ events, event ≠ .childCreates (cancellationFile fs stagingDirectory))
    (hrun : replay (runStep limits (cancellationFile fs stagingDirectory)) { files := files }
      events = some s)
    (houtcome : s.phase = .ended outcome) :
    (processResult reading host request capability outcome).isCancelled = true → Cancellable s := by
  intro hcancelled
  have howned := replay_owned hrun hchild (Owned.initial (stagedFiles_spare hstaged hinputs))
  cases outcome with
  | none => cases hcancelled
  | some o => exact howned.outcome o houtcome (processResult_cancelled hcancelled)

section Samples

def stagingAdapter : AdapterRuntime :=
  { sampleAdapter with relative := fun directory path => path.drop (directory.length + 1) }

def sampleStagingFiles : StagingFiles stagingAdapter JsString where
  entry := id
  admits _ _ := true
  request_ne_cancel directory := by
    refine fun h => absurd (List.append_cancel_left h) ?_
    decide

def stagedRequest (relativePath : String) : Props :=
  sampleEvidenceRequest ++ [(.own (js "inputs"), .array [(.data, .record
    [(js "relativePath", .string (js relativePath)), (js "content", .string (js "cancel"))])] [])]

def sampleDirectory : JsString := js "C:\\staging\\aseos-process-Xk2b9Q"

def sampleLimits : Limits := ⟨5000, 2000, 67108864, 4, 65536, 65536⟩

def sampleUsage : Usage := ⟨20, 0, 4194304, 1⟩

def CancelledUnowned (request : Props) (events : List (RunEvent JsString)) : Prop :=
  validateRequest stagingAdapter request sampleTool (.ok samplePaths) = .ok samplePaths ∧
    ∃ files s outcome, stagedFiles sampleStagingFiles request sampleDirectory = some files ∧
      replay (runStep sampleLimits (cancellationFile sampleStagingFiles sampleDirectory))
        { files := files } events = some s ∧
      s.phase = .ended outcome ∧
      (processResult sampleReading sampleHost request
        (capabilityReport .available sampleSource sampleSource) outcome).isCancelled = true ∧
      ¬ Cancellable s

def cancelledOutcome : RunOutcome := sampleOutcome 4

def abortedRun : List (RunEvent JsString) :=
  [.resume, .abort, .writeMarker, .poll sampleUsage false, .finish sampleUsage cancelledOutcome]

theorem dataInput_spare :
    InputsSpare sampleStagingFiles (stagedRequest "data.txt") sampleDirectory := by
  intro inputs hinputs relativePath hmem destination hdestination
  have hpaths : relativePaths (stagedRequest "data.txt") = .ok [js "data.txt"] := by rfl
  obtain rfl := Except.ok.inj (hpaths.symm.trans hinputs)
  obtain rfl := List.mem_singleton.mp hmem
  have hsafe : safeInputPath stagingAdapter sampleDirectory (js "data.txt") =
    .ok (sampleDirectory ++ js "\\" ++ js "data.txt") := by decide
  obtain rfl := Except.ok.inj (hsafe.symm.trans hdestination)
  decide

theorem sample_cancelled_by_owner :
    ∃ files s outcome,
      stagedFiles sampleStagingFiles (stagedRequest "data.txt") sampleDirectory = some files ∧
      replay (runStep sampleLimits (cancellationFile sampleStagingFiles sampleDirectory))
        { files := files } abortedRun = some s ∧
      s.phase = .ended outcome ∧ Cancellable s :=
  ⟨_, _, _, rfl, rfl, rfl, cancelled_only_by_owner stagingAdapter sampleStagingFiles sampleReading
    sampleHost (stagedRequest "data.txt") sampleTool (.ok samplePaths) samplePaths
    (capabilityReport .available sampleSource sampleSource) sampleLimits sampleDirectory _
    abortedRun _ (some cancelledOutcome) (by decide) rfl dataInput_spare
    (by simp [abortedRun]) rfl rfl (by decide)⟩

theorem staged_or_created_file_cancels :
    CancelledUnowned (stagedRequest ".aseos-cancel")
        [.resume, .poll sampleUsage false, .finish sampleUsage cancelledOutcome] ∧
      CancelledUnowned (stagedRequest "data.txt")
        [.resume, .childCreates (cancellationFile sampleStagingFiles sampleDirectory),
          .poll sampleUsage false, .finish sampleUsage cancelledOutcome] := by
  refine ⟨⟨by decide, _, _, _, rfl, rfl, rfl, by decide, ?_⟩,
    ⟨by decide, _, _, _, rfl, rfl, rfl, by decide, ?_⟩⟩
  · exact fun h => h.elim nofun nofun
  · exact fun h => h.elim nofun nofun

end Samples

end Aseos.Isolation
