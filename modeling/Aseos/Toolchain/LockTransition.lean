import Aseos.Toolchain.ChangedPaths

namespace Aseos

namespace ScopePolicy

open JsValue

inductive TransitionViolation where
  | lock (violation : Violation)
  | unauthorizedDelta (path : JsString)
  | mismatchedDelta (path : JsString)
  | unrelatedMutation (path : JsString)
  | extraDelta (path : JsValue)

def TransitionViolation.message (host : Host) : TransitionViolation → JsString
  | .lock violation => violation.message host
  | .unauthorizedDelta path => js "UNAUTHORIZED_AUTHORITY_OWNERSHIP_DELTA: " ++ path
  | .mismatchedDelta path => js "MISMATCHED_AUTHORITY_OWNERSHIP_DELTA: " ++ path
  | .unrelatedMutation path => js "UNRELATED_AUTHORITY_LOCK_MUTATION: " ++ path
  | .extraDelta path => js "EXTRA_AUTHORIZED_AUTHORITY_OWNERSHIP_DELTA: " ++ path.toText host

inductive DeltaError where
  | malformedDeltas
  | nonCanonicalDeltas
  | malformedDelta
  | invalidPath (path : JsValue)
  | nonCanonicalOperationIds (side : String)
  | emptyDelta (path : JsValue)

def DeltaError.message (host : Host) : DeltaError → JsString
  | .malformedDeltas => js "MALFORMED_AUTHORITY_OWNERSHIP_DELTAS"
  | .nonCanonicalDeltas => js "NON_CANONICAL_AUTHORITY_OWNERSHIP_DELTAS"
  | .malformedDelta => js "MALFORMED_AUTHORITY_OWNERSHIP_DELTA"
  | .invalidPath path => js "INVALID_AUTHORITY_OWNERSHIP_DELTA_PATH: " ++ path.toText host
  | .nonCanonicalOperationIds side =>
      js ("NON_CANONICAL_AUTHORITY_OWNERSHIP_DELTA_" ++ side ++ "_OPERATION_IDS")
  | .emptyDelta path => js "EMPTY_AUTHORITY_OWNERSHIP_DELTA: " ++ path.toText host

section Deltas

variable (runtime : ScriptRuntime)

def deltaKeys : List JsString :=
  [js "afterAllowedOperationIds", js "beforeAllowedOperationIds", js "path"]

def hasDeltaKeys : JsValue → Bool
  | .object _ props => sameJson runtime (.ofStrings (JsString.sort (Props.keys props)))
      (.ofStrings deltaKeys)
  | _ => false

def isOperationId (value : JsValue) : Bool := (value.isString.map operationIdPattern.test).getD false

def validateCanonicalOperationIds (values : JsValue) (side : String) : Except DeltaError Unit :=
  if isCanonicalUniqueStrings runtime values &&
      ((values.isArray.getD []).map Prod.snd).all isOperationId then .ok ()
  else .error (.nonCanonicalOperationIds side)

def isSafePath (path : JsValue) : Bool :=
  (path.isString.map (isSafeRepositoryPath runtime)).getD false

def refuseUnless (p : Bool) (error : DeltaError) : Except DeltaError Unit :=
  if p then .ok () else .error error

def validateAuthorityOwnershipDelta (delta : JsValue) : Except DeltaError Unit := do
  let path := delta.property (js "path")
  let before := delta.property (js "beforeAllowedOperationIds")
  let after := delta.property (js "afterAllowedOperationIds")
  refuseUnless (hasDeltaKeys runtime delta) .malformedDelta
  refuseUnless (isSafePath runtime path && !strictlyEqual path (.string authorityLockPath))
    (.invalidPath path)
  validateCanonicalOperationIds runtime before "BEFORE"
  validateCanonicalOperationIds runtime after "AFTER"
  refuseUnless (!sameJson runtime before after) (.emptyDelta path)

def validateAuthorityOwnershipDeltas : JsValue → Except DeltaError Unit
  | .array slots _ => do
      let deltas := slots.map Prod.snd
      refuseUnless (isCanonicalUniqueStrings runtime
        (Json.arrayOf (deltas.map fun delta => delta.property (js "path")))) .nonCanonicalDeltas
      deltas.forM (validateAuthorityOwnershipDelta runtime)
  | _ => .error .malformedDeltas

end Deltas

section Transition

variable (runtime : ScriptRuntime) (allowedChangedPaths : List JsString)
  (authorityOwnershipDeltas : List JsValue)

-- `authorizedDeltas.get(path)`
def authorizedDelta (path : JsString) : Option JsValue :=
  authorityOwnershipDeltas.reverse.find? fun delta =>
    strictlyEqual (delta.property (js "path")) (.string path)

-- `{ ...entry, sha256: undefined, allowedOperationIds: undefined }`
def fixedMembers (entry : JsValue) : JsValue :=
  (entry.without (js "sha256")).without (js "allowedOperationIds")

def allowedOperationIds (entry : JsValue) : JsValue := entry.property (js "allowedOperationIds")

structure OwnershipReport where
  violations : List TransitionViolation
  observed : Bool

def examineOperationIds (path : JsString) (baseEntry headEntry : JsValue) : OwnershipReport :=
  if sameJson runtime (allowedOperationIds baseEntry) (allowedOperationIds headEntry) then
    ⟨[], false⟩
  else
    match authorizedDelta authorityOwnershipDeltas path with
    | none => ⟨[.unauthorizedDelta path], false⟩
    | some delta =>
        if strictlyEqual (baseEntry.property (js "mutationPolicy")) (.string (js "OPERATION_SCOPED")) &&
            sameJson runtime (delta.property (js "beforeAllowedOperationIds"))
              (allowedOperationIds baseEntry) &&
            sameJson runtime (delta.property (js "afterAllowedOperationIds"))
              (allowedOperationIds headEntry) then
          ⟨[], true⟩
        else ⟨[.mismatchedDelta path], false⟩

def examineOwnership (baseEntries headEntries : List (JsString × JsValue)) (path : JsString) :
    OwnershipReport :=
  let baseEntry := AuthorityEntries.get baseEntries path
  let headEntry := AuthorityEntries.get headEntries path
  if !sameJson runtime (fixedMembers baseEntry) (fixedMembers headEntry) then
    ⟨[.lock (.ownershipMutation path)], false⟩
  else
    let report := examineOperationIds runtime authorityOwnershipDeltas path baseEntry headEntry
    { report with
      violations := report.violations ++
        if path ∉ allowedChangedPaths ∧
            strictlyEqual (baseEntry.property (js "sha256")) (headEntry.property (js "sha256")) = false
        then [.unrelatedMutation path] else [] }

def hasPath (paths : List JsString) (path : JsValue) : Bool :=
  paths.any fun p => strictlyEqual path (.string p)

-- The paths of the deltas are distinct, so that each is a key of its own.
def extraDeltas (basePaths observed : List JsString) : List TransitionViolation :=
  ((authorityOwnershipDeltas.map fun delta => delta.property (js "path")).filter fun path =>
    !hasPath basePaths path || !hasPath observed path).map .extraDelta

def validateAuthorityLockTransition (baseLock headLock : JsValue) : List TransitionViolation :=
  let topLevel : List Violation :=
    if sameJson runtime (baseLock.without (js "authorityFiles"))
        (headLock.without (js "authorityFiles")) then []
    else [.topLevelMutation]
  let base := collectAuthorityEntries runtime baseLock .base
  let head := collectAuthorityEntries runtime headLock .head
  let violations := (topLevel ++ base.violations ++ head.violations).map .lock
  if !sameJson runtime (.ofStrings base.sortedPaths) (.ofStrings head.sortedPaths) then
    violations ++ [.lock .pathSetMutation]
  else
    let examine := examineOwnership runtime allowedChangedPaths authorityOwnershipDeltas
      base.entries head.entries
    let observed := base.sortedPaths.filter fun path => (examine path).observed
    violations ++ (base.sortedPaths.flatMap fun path => (examine path).violations) ++
      extraDeltas authorityOwnershipDeltas base.sortedPaths observed

end Transition

section Collection

variable {runtime : ScriptRuntime}

theorem sameJson_self (v : JsValue) : sameJson runtime v v = true := beq_self_eq_true _

theorem sameJson_ofStrings {strings strings' : List JsString} :
    sameJson runtime (.ofStrings strings) (.ofStrings strings') = true ↔ strings = strings' :=
  ⟨eq_of_sameJson, fun h => h ▸ sameJson_self _⟩

def CanonicalOperationIds (value : JsValue) : Prop :=
  ∃ ids : List JsString, value = .ofStrings ids ∧ ids.Pairwise (· < ·) ∧
    ∀ id ∈ ids, operationIdPattern.test id = true

theorem sorted_nodup_iff {strings : List JsString} :
    strings.Nodup ∧ JsString.sort strings = strings ↔ strings.Pairwise (· < ·) := by
  constructor
  · rintro ⟨hnodup, hsorted⟩
    have hle := JsString.sort_pairwise strings
    rw [hsorted] at hle
    exact (hle.and hnodup).imp fun h => lt_of_le_of_ne h.1 h.2
  · intro h
    exact ⟨h.imp fun hlt => hlt.ne, sortBy_eq_self (h.imp fun hlt => hlt.le)⟩

theorem ofStrings_of_mapM {slots : Slots} {strings : List JsString}
    (hdata : ∀ s ∈ slots, s.1 = .data)
    (h : slots.mapM (fun s => s.2.isString) = some strings) :
    slots = strings.map fun s => (.data, .string s) := by
  induction slots generalizing strings with
  | nil =>
    obtain rfl := Option.some.inj h
    rfl
  | cons s slots ih =>
    obtain ⟨hs, hslots⟩ := List.forall_mem_cons.mp hdata
    rw [List.mapM_cons] at h
    obtain ⟨first, hfirst, h⟩ := Option.bind_eq_some_iff.mp h
    obtain ⟨rest, hrest, h⟩ := Option.bind_eq_some_iff.mp h
    obtain rfl := Option.some.inj h
    obtain ⟨kind, v⟩ := s
    cases v with
    | string text =>
      obtain rfl := Option.some.inj hfirst
      obtain rfl : kind = .data := hs
      rw [List.map_cons, ← ih hslots hrest]
    | _ => cases hfirst

theorem canonicalUnique_array {slots : Slots} (hdata : ∀ s ∈ slots, s.1 = .data)
    (h : isCanonicalUniqueStrings runtime (.array slots []) = true) :
    ∃ strings : List JsString, JsValue.array slots [] = .ofStrings strings ∧
      strings.Pairwise (· < ·) := by
  have hcanonical := h
  unfold isCanonicalUniqueStrings at h
  dsimp only at h
  split at h
  · rename_i strings hstrings
    have heq : JsValue.array slots [] = .ofStrings strings := by
      rw [ofStrings_of_mapM hdata hstrings]
      rfl
    rw [heq, isCanonicalUniqueStrings_ofStrings] at hcanonical
    exact ⟨strings, heq, sorted_nodup_iff.mp hcanonical⟩
  · cases h

theorem canonicalUnique_iff {v : JsValue} (hv : v = .undefined ∨ Document v) :
    isCanonicalUniqueStrings runtime v = true ↔
      ∃ strings : List JsString, v = .ofStrings strings ∧ strings.Pairwise (· < ·) := by
  constructor
  · intro h
    obtain rfl | hv := hv
    · cases h
    · cases hv with
      | @array slots hdata _ => exact canonicalUnique_array hdata h
      | _ => cases h
  · rintro ⟨strings, rfl, hsorted⟩
    exact isCanonicalUniqueStrings_ofStrings.mpr (sorted_nodup_iff.mpr hsorted)

theorem slots_ofStrings (strings : List JsString) (f : JsString → Bool) :
    (strings.map fun s => (SlotKind.data, JsValue.string s)).all
        (fun s => (s.2.isString.map f).getD false) = strings.all f := by
  rw [List.all_map]
  rfl

theorem operationIdViolations_iff {path : JsString} {entry : JsValue} (hentry : Document entry) :
    operationIdViolations runtime path entry = [] ↔
      CanonicalOperationIds (allowedOperationIds entry) := by
  have hiff := @canonicalUnique_iff runtime _ (hentry.property (js "allowedOperationIds"))
  unfold operationIdViolations
  split
  · rename_i hcanonical
    obtain ⟨ids, hids, hsorted⟩ := hiff.mp hcanonical
    rw [hids, JsValue.ofStrings]
    simp only [slots_ofStrings]
    split
    · rename_i htest
      exact ⟨fun _ => ⟨ids, hids, hsorted, List.all_eq_true.mp htest⟩, fun _ => rfl⟩
    · rename_i htest
      constructor
      · intro hnone
        cases hnone
      · rintro ⟨ids', hids', -, htest'⟩
        obtain rfl := ofStrings_inj (congrArg restored (hids.symm.trans hids'))
        exact absurd (List.all_eq_true.mpr htest') htest
  · rename_i hcanonical
    constructor
    · intro hnone
      cases hnone
    · rintro ⟨ids, hids, hsorted, -⟩
      exact absurd (hiff.mpr ⟨ids, hids, hsorted⟩) hcanonical

theorem validateCanonicalOperationIds_ok {values : JsValue} {side : String}
    (hvalues : values = .undefined ∨ Document values)
    (h : validateCanonicalOperationIds runtime values side = .ok ()) :
    CanonicalOperationIds values := by
  unfold validateCanonicalOperationIds at h
  split at h
  · rename_i hvalid
    obtain ⟨hcanonical, htest⟩ := Bool.and_eq_true_iff.mp hvalid
    obtain ⟨ids, rfl, hsorted⟩ := (canonicalUnique_iff hvalues).mp hcanonical
    refine ⟨ids, rfl, hsorted, List.all_eq_true.mp ?_⟩
    rw [← slots_ofStrings]
    rwa [JsValue.ofStrings, isArray, Option.getD_some, List.all_map] at htest
  · cases h

structure GoodEntry (runtime : ScriptRuntime) (path : JsString) (entry : JsValue) : Prop where
  names : entry.property (js "path") = .string path
  safe : isSafeRepositoryPath runtime path = true
  operationIds : CanonicalOperationIds (allowedOperationIds entry)

theorem collectEntry_of_good {collected : AuthorityEntries} {path : JsString} {entry : JsValue}
    (hdocument : Document entry) (hentry : GoodEntry runtime path entry)
    (hnew : path ∉ collected.entries.map Prod.fst) :
    collectEntry runtime collected entry =
      ⟨collected.entries ++ [(path, entry)], collected.paths ++ [path], collected.violations⟩ := by
  have hany : ¬ (collected.entries.any fun e => e.1 = path) = true := by
    intro h
    obtain ⟨e, he, hpath⟩ := List.any_eq_true.mp h
    exact hnew (List.mem_map.mpr ⟨e, he, of_decide_eq_true hpath⟩)
  rw [collectEntry, hentry.names]
  dsimp only
  rw [if_pos hentry.safe, if_neg hany,
    (operationIdViolations_iff hdocument).mpr hentry.operationIds, List.append_nil]

theorem good_of_collectEntry {collected : AuthorityEntries} {entry : JsValue}
    (hdocument : Document entry) (h : (collectEntry runtime collected entry).violations = []) :
    collected.violations = [] ∧
      ∃ path, GoodEntry runtime path entry ∧ path ∉ collected.entries.map Prod.fst := by
  refine ⟨List.prefix_nil.mp (h ▸ collectEntry_violations collected entry), ?_⟩
  obtain ⟨path, -, -, hnew, hpath, -⟩ := collectEntry_nil h
  rw [collectEntry, hpath] at h
  dsimp only at h
  split at h
  · rename_i hsafe
    have hany : ¬ (collected.entries.any fun e => e.1 = path) = true := by
      intro hany
      obtain ⟨e, he, hsame⟩ := List.any_eq_true.mp hany
      exact hnew (List.mem_map.mpr ⟨e, he, of_decide_eq_true hsame⟩)
    rw [if_neg hany] at h
    exact ⟨path, ⟨hpath, hsafe,
      (operationIdViolations_iff hdocument).mp (List.append_eq_nil_iff.mp h).2⟩, hnew⟩
  · simp at h

theorem foldl_of_good {paths : List JsString} {files : List JsValue} {collected : AuthorityEntries}
    (hdocuments : ∀ entry ∈ files, Document entry)
    (h : List.Forall₂ (GoodEntry runtime) paths files)
    (hnodup : (collected.entries.map Prod.fst ++ paths).Nodup) :
    files.foldl (collectEntry runtime) collected =
      ⟨collected.entries ++ paths.zip files, collected.paths ++ paths, collected.violations⟩ := by
  induction h generalizing collected with
  | nil => simp
  | @cons path entry paths files hentry _ ih =>
    obtain ⟨hdocument, hdocuments⟩ := List.forall_mem_cons.mp hdocuments
    have hnew : path ∉ collected.entries.map Prod.fst := fun hmem =>
      (List.nodup_append.mp hnodup).2.2 path hmem path (.head _) rfl
    rw [List.foldl_cons, collectEntry_of_good hdocument hentry hnew,
      ih hdocuments (by simpa using hnodup), List.zip_cons_cons]
    simp

theorem good_of_foldl {files : List JsValue} {collected : AuthorityEntries}
    (hdocuments : ∀ entry ∈ files, Document entry) (hnodup : (collected.entries.map Prod.fst).Nodup)
    (h : (files.foldl (collectEntry runtime) collected).violations = []) :
    ∃ paths, List.Forall₂ (GoodEntry runtime) paths files ∧
      (collected.entries.map Prod.fst ++ paths).Nodup := by
  induction files generalizing collected with
  | nil => exact ⟨[], .nil, by simpa using hnodup⟩
  | cons entry files ih =>
    obtain ⟨hdocument, hdocuments⟩ := List.forall_mem_cons.mp hdocuments
    have hstep : (collectEntry runtime collected entry).violations = [] :=
      List.prefix_nil.mp (h ▸ foldl_violations files _)
    obtain ⟨-, path, hentry, hnew⟩ := good_of_collectEntry hdocument hstep
    rw [List.foldl_cons, collectEntry_of_good hdocument hentry hnew] at h
    obtain ⟨paths, hall, hdistinct⟩ := ih hdocuments
      (by simpa using List.Nodup.concat hnew hnodup) h
    exact ⟨path :: paths, .cons hentry hall, by simpa using hdistinct⟩

structure WellFormedLock (runtime : ScriptRuntime) (lock : JsValue) (paths : List JsString) :
    Prop where
  files : ∃ slots extra, lock.property (js "authorityFiles") = .array slots extra
  entries : List.Forall₂ (GoodEntry runtime) paths (authorityFiles lock)
  sorted : paths.Pairwise (· < ·)

theorem documents_of_lock {lock : JsValue} (h : Document lock) :
    ∀ entry ∈ authorityFiles lock, Document entry := fun _ => document_of_file h

theorem collect_of_wellFormed {lock : JsValue} {side : LockSide} {paths : List JsString}
    (hdocument : Document lock) (h : WellFormedLock runtime lock paths) :
    collectAuthorityEntries runtime lock side =
      ⟨paths.zip (authorityFiles lock), paths, []⟩ := by
  obtain ⟨slots, extra, hfiles⟩ := h.files
  have hslots : authorityFiles lock = slots.map Prod.snd := by rw [authorityFiles, hfiles]
  have hsorted := sorted_nodup_iff.mpr h.sorted
  have hfold := @foldl_of_good runtime _ _ ⟨[], [], []⟩ (documents_of_lock hdocument) h.entries
    (by simpa using hsorted.1)
  rw [collectAuthorityEntries, hfiles]
  dsimp only
  rw [← hslots, hfold]
  simp only [List.nil_append]
  rw [hsorted.2, if_pos (sameJson_self _)]

theorem wellFormed_of_collect {lock : JsValue} {side : LockSide} (hdocument : Document lock)
    (h : (collectAuthorityEntries runtime lock side).violations = []) :
    ∃ paths, WellFormedLock runtime lock paths := by
  have hcollected := collectAuthorityEntries_nil h
  unfold collectAuthorityEntries at h hcollected
  split at h
  · rename_i slots extra hfiles
    have hslots : authorityFiles lock = slots.map Prod.snd := by rw [authorityFiles, hfiles]
    simp only at h
    split at h
    · obtain ⟨paths, hall, hnodup⟩ := good_of_foldl
        (hslots ▸ documents_of_lock hdocument) (by simp) h
      have hfold := foldl_of_good (hslots ▸ documents_of_lock hdocument) hall hnodup
      rename_i hsame
      rw [hfold] at hsame
      refine ⟨paths, ⟨slots, extra, hfiles⟩, hslots ▸ hall, sorted_nodup_iff.mp ⟨hnodup, ?_⟩⟩
      simpa using eq_of_sameJson hsame
    · simp at h
  · simp at h

end Collection

section Authorization

def EntryAt (lock : JsValue) (path : JsString) (entry : JsValue) : Prop :=
  entry ∈ authorityFiles lock ∧ entry.property (js "path") = .string path

def NamedBy (deltas : List JsValue) (path : JsString) : Prop :=
  ∃ delta ∈ deltas, delta.property (js "path") = .string path

structure Authorizes (delta baseEntry headEntry : JsValue) : Prop where
  policy : baseEntry.property (js "mutationPolicy") = .string (js "OPERATION_SCOPED")
  before : delta.property (js "beforeAllowedOperationIds") = allowedOperationIds baseEntry
  after : delta.property (js "afterAllowedOperationIds") = allowedOperationIds headEntry

structure AuthorizedTransition (runtime : ScriptRuntime) (allowedChangedPaths : List JsString)
    (deltas : List JsValue) (baseLock headLock : JsValue) (paths : List JsString) : Prop where
  base : WellFormedLock runtime baseLock paths
  head : WellFormedLock runtime headLock paths
  topLevel : sameJson runtime (baseLock.without (js "authorityFiles"))
    (headLock.without (js "authorityFiles")) = true
  fixed : ∀ path b h, EntryAt baseLock path b → EntryAt headLock path h →
    sameJson runtime (fixedMembers b) (fixedMembers h) = true
  named : ∀ path, NamedBy deltas path ↔ ∃ b h, EntryAt baseLock path b ∧ EntryAt headLock path h ∧
    allowedOperationIds b ≠ allowedOperationIds h
  authorized : ∀ delta ∈ deltas, ∀ path b h, delta.property (js "path") = .string path →
    EntryAt baseLock path b → EntryAt headLock path h → Authorizes delta b h
  hashes : ∀ path b h, EntryAt baseLock path b → EntryAt headLock path h →
    strictlyEqual (b.property (js "sha256")) (h.property (js "sha256")) = false →
    path ∈ allowedChangedPaths

structure AcceptedDeltas (deltas : List JsValue) : Prop where
  paths : ∃ paths : List JsString,
    deltas.map (fun delta => delta.property (js "path")) = paths.map .string ∧ paths.Nodup
  before : ∀ delta ∈ deltas, CanonicalOperationIds (delta.property (js "beforeAllowedOperationIds"))
  after : ∀ delta ∈ deltas, CanonicalOperationIds (delta.property (js "afterAllowedOperationIds"))
  changes : ∀ delta ∈ deltas, delta.property (js "beforeAllowedOperationIds") ≠
    delta.property (js "afterAllowedOperationIds")

variable {runtime : ScriptRuntime}

theorem refuseUnless_ok {p : Bool} {error : DeltaError} {u : Unit} :
    refuseUnless p error = .ok u ↔ p = true := by
  cases p <;> simp [refuseUnless]

theorem accepted_of_validate {deltas : List JsValue} (hdocuments : ∀ delta ∈ deltas, Document delta)
    (h : validateAuthorityOwnershipDeltas runtime (Json.arrayOf deltas) = .ok ()) :
    AcceptedDeltas deltas := by
  have hvalues : (deltas.map fun v => (SlotKind.data, v)).map Prod.snd = deltas := by simp
  rw [Json.arrayOf, validateAuthorityOwnershipDeltas] at h
  obtain ⟨_, hpaths, h⟩ := Except.bind_eq_ok.mp h
  rw [hvalues] at hpaths h
  have hdelta : ∀ delta ∈ deltas,
      CanonicalOperationIds (delta.property (js "beforeAllowedOperationIds")) ∧
      CanonicalOperationIds (delta.property (js "afterAllowedOperationIds")) ∧
      delta.property (js "beforeAllowedOperationIds") ≠
        delta.property (js "afterAllowedOperationIds") := by
    intro delta hmem
    have hdocument := hdocuments delta hmem
    obtain ⟨_, -, h⟩ := Except.bind_eq_ok.mp (Except.forM_eq_ok.mp h delta hmem)
    obtain ⟨_, -, h⟩ := Except.bind_eq_ok.mp h
    obtain ⟨_, hbefore, h⟩ := Except.bind_eq_ok.mp h
    obtain ⟨_, hafter, h⟩ := Except.bind_eq_ok.mp h
    refine ⟨validateCanonicalOperationIds_ok (hdocument.property _) hbefore,
      validateCanonicalOperationIds_ok (hdocument.property _) hafter, fun heq => ?_⟩
    have hchange := refuseUnless_ok.mp h
    rw [heq, sameJson_self] at hchange
    cases hchange
  obtain ⟨paths, hstrings, hsorted⟩ := canonicalUnique_array (by simp) (refuseUnless_ok.mp hpaths)
  refine ⟨⟨paths, ?_, hsorted.imp fun hlt => hlt.ne⟩, fun delta hmem => (hdelta delta hmem).1,
    fun delta hmem => (hdelta delta hmem).2.1, fun delta hmem => (hdelta delta hmem).2.2⟩
  simpa [Function.comp_def] using congrArg (List.map Prod.snd) (JsValue.array.inj hstrings).1

theorem sameJson_operationIds {v w : JsValue} (hv : CanonicalOperationIds v)
    (hw : CanonicalOperationIds w) : sameJson runtime v w = true ↔ v = w := by
  obtain ⟨ids, rfl, -⟩ := hv
  obtain ⟨ids', rfl, -⟩ := hw
  rw [sameJson_ofStrings]
  exact ⟨fun h => h ▸ rfl, fun h => ofStrings_inj (congrArg restored h)⟩

theorem authorizedDelta_eq_some {deltas : List JsValue} (h : AcceptedDeltas deltas)
    {path : JsString} {delta : JsValue} :
    authorizedDelta deltas path = some delta ↔
      delta ∈ deltas ∧ delta.property (js "path") = .string path := by
  have hfound {d : JsValue} (hd : authorizedDelta deltas path = some d) :
      d ∈ deltas ∧ d.property (js "path") = .string path := by
    rw [authorizedDelta] at hd
    have hsame := List.find?_some hd
    exact ⟨List.mem_reverse.mp (List.mem_of_find?_eq_some hd), strictlyEqual_string_right.mp hsame⟩
  refine ⟨hfound, fun ⟨hmem, hpath⟩ => ?_⟩
  obtain ⟨d, hd⟩ : ∃ d, authorizedDelta deltas path = some d :=
    Option.isSome_iff_exists.mp (List.find?_isSome.mpr
      ⟨delta, List.mem_reverse.mpr hmem, strictlyEqual_string_right.mpr hpath⟩)
  obtain ⟨paths, hpaths, hnodup⟩ := h.paths
  have hdistinct : (deltas.map fun delta => delta.property (js "path")).Nodup :=
    hpaths ▸ hnodup.map fun _ _ => JsValue.string.inj
  obtain ⟨hmem', hpath'⟩ := hfound hd
  rw [hd, List.inj_on_of_nodup_map hdistinct hmem' hmem (hpath'.trans hpath.symm)]

def ChangeAuthorized (deltas : List JsValue) (path : JsString) (b h : JsValue) : Prop :=
  allowedOperationIds b ≠ allowedOperationIds h ∧
    ∃ delta ∈ deltas, delta.property (js "path") = .string path ∧ Authorizes delta b h

theorem examineOperationIds_iff {deltas : List JsValue} (hdeltas : AcceptedDeltas deltas)
    {path : JsString} {b h : JsValue} (hb : CanonicalOperationIds (allowedOperationIds b))
    (hh : CanonicalOperationIds (allowedOperationIds h)) :
    ((examineOperationIds runtime deltas path b h).observed = true ↔
      ChangeAuthorized deltas path b h) ∧
    ((examineOperationIds runtime deltas path b h).violations = [] ↔
      allowedOperationIds b = allowedOperationIds h ∨ ChangeAuthorized deltas path b h) := by
  unfold examineOperationIds
  by_cases hsame : allowedOperationIds b = allowedOperationIds h
  · rw [if_pos ((sameJson_operationIds hb hh).mpr hsame)]
    exact ⟨⟨nofun, fun hchange => absurd hsame hchange.1⟩, fun _ => .inl hsame, fun _ => rfl⟩
  · rw [if_neg (mt (sameJson_operationIds hb hh).mp hsame)]
    split
    · rename_i hnone
      have hrefused : ¬ ChangeAuthorized deltas path b h := by
        rintro ⟨-, delta, hmem, hpath, -⟩
        rw [(authorizedDelta_eq_some hdeltas).mpr ⟨hmem, hpath⟩] at hnone
        cases hnone
      simp [hrefused, hsame]
    · rename_i delta hdelta
      obtain ⟨hmem, hpath⟩ := (authorizedDelta_eq_some hdeltas).mp hdelta
      have hauthorizes : (strictlyEqual (b.property (js "mutationPolicy"))
          (.string (js "OPERATION_SCOPED")) &&
          sameJson runtime (delta.property (js "beforeAllowedOperationIds")) (allowedOperationIds b) &&
          sameJson runtime (delta.property (js "afterAllowedOperationIds")) (allowedOperationIds h)) =
            true ↔ ChangeAuthorized deltas path b h := by
        rw [Bool.and_eq_true, Bool.and_eq_true, strictlyEqual_string_right,
          sameJson_operationIds (hdeltas.before delta hmem) hb,
          sameJson_operationIds (hdeltas.after delta hmem) hh]
        constructor
        · rintro ⟨⟨hpolicy, hbefore⟩, hafter⟩
          exact ⟨hsame, delta, hmem, hpath, hpolicy, hbefore, hafter⟩
        · rintro ⟨-, delta', hmem', hpath', hpolicy, hbefore, hafter⟩
          obtain rfl := Option.some.inj
            (hdelta.symm.trans ((authorizedDelta_eq_some hdeltas).mpr ⟨hmem', hpath'⟩))
          exact ⟨⟨hpolicy, hbefore⟩, hafter⟩
      split
      · rename_i hvalid
        simp [hauthorizes.mp hvalid]
      · rename_i hinvalid
        simp [mt hauthorizes.mpr hinvalid, hsame]

section Entries

variable {lock : JsValue} {paths : List JsString}

theorem entryAt_iff (h : WellFormedLock runtime lock paths) {path : JsString} {entry : JsValue} :
    EntryAt lock path entry ↔ (path, entry) ∈ paths.zip (authorityFiles lock) := by
  obtain ⟨hlength, hgood⟩ := List.forall₂_iff_zip.mp h.entries
  constructor
  · rintro ⟨hentry, hpath⟩
    rw [← List.map_snd_zip hlength.ge] at hentry
    obtain ⟨⟨p, e⟩, hmem, rfl⟩ := List.mem_map.mp hentry
    obtain rfl := JsValue.string.inj (hpath.symm.trans (hgood hmem).names)
    exact hmem
  · intro hmem
    exact ⟨(List.of_mem_zip hmem).2, (hgood hmem).names⟩

theorem exists_entryAt (h : WellFormedLock runtime lock paths) {path : JsString}
    (hpath : path ∈ paths) : ∃ entry, EntryAt lock path entry := by
  obtain ⟨entry, hentry, hgood⟩ := forall₂_left h.entries path hpath
  exact ⟨entry, hentry, hgood.names⟩

theorem fst_zip (h : WellFormedLock runtime lock paths) :
    (paths.zip (authorityFiles lock)).map Prod.fst = paths :=
  List.map_fst_zip (List.forall₂_iff_zip.mp h.entries).1.le

theorem get_entryAt (h : WellFormedLock runtime lock paths) {path : JsString} {entry : JsValue}
    (hentry : EntryAt lock path entry) :
    AuthorityEntries.get (paths.zip (authorityFiles lock)) path = entry :=
  get_of_mem ((fst_zip h).symm ▸ (sorted_nodup_iff.mpr h.sorted).1) ((entryAt_iff h).mp hentry)

theorem mem_of_entryAt (h : WellFormedLock runtime lock paths) {path : JsString} {entry : JsValue}
    (hentry : EntryAt lock path entry) : path ∈ paths :=
  (List.of_mem_zip ((entryAt_iff h).mp hentry)).1

theorem operationIds_of_entryAt (h : WellFormedLock runtime lock paths) {path : JsString}
    {entry : JsValue} (hentry : EntryAt lock path entry) :
    CanonicalOperationIds (allowedOperationIds entry) :=
  ((List.forall₂_iff_zip.mp h.entries).2 ((entryAt_iff h).mp hentry)).operationIds

end Entries

section Validation

variable {allowed : List JsString} {deltas : List JsValue} {baseLock headLock : JsValue}
  {paths : List JsString}

theorem examineOwnership_iff (hdeltas : AcceptedDeltas deltas)
    (hbase : WellFormedLock runtime baseLock paths) (hhead : WellFormedLock runtime headLock paths)
    {path : JsString} {b h : JsValue} (hb : EntryAt baseLock path b) (hh : EntryAt headLock path h) :
    ((examineOwnership runtime allowed deltas (paths.zip (authorityFiles baseLock))
        (paths.zip (authorityFiles headLock)) path).violations = [] ↔
      sameJson runtime (fixedMembers b) (fixedMembers h) = true ∧
        (allowedOperationIds b = allowedOperationIds h ∨ ChangeAuthorized deltas path b h) ∧
        (strictlyEqual (b.property (js "sha256")) (h.property (js "sha256")) = false →
          path ∈ allowed)) ∧
    (sameJson runtime (fixedMembers b) (fixedMembers h) = true →
      ((examineOwnership runtime allowed deltas (paths.zip (authorityFiles baseLock))
          (paths.zip (authorityFiles headLock)) path).observed = true ↔
        ChangeAuthorized deltas path b h)) := by
  obtain ⟨hobserved, hviolations⟩ := @examineOperationIds_iff runtime deltas hdeltas path b h
    (operationIds_of_entryAt hbase hb) (operationIds_of_entryAt hhead hh)
  rw [examineOwnership, get_entryAt hbase hb, get_entryAt hhead hh]
  dsimp only
  cases hfixed : sameJson runtime (fixedMembers b) (fixedMembers h) with
  | false => simp
  | true =>
    simp only [Bool.not_true, Bool.false_eq_true, if_false, List.append_eq_nil_iff, hviolations,
      hobserved, true_and, forall_const, and_true]
    refine and_congr_right fun _ => ?_
    split
    · rename_i hmutated
      exact ⟨nofun, fun hallowed => absurd (hallowed hmutated.2) hmutated.1⟩
    · rename_i hkept
      exact ⟨fun _ hchanged => by_contra fun hpath => hkept ⟨hpath, hchanged⟩, fun _ => rfl⟩

theorem hasPath_iff {path : JsString} :
    hasPath paths (.string path) = true ↔ path ∈ paths := by
  rw [hasPath, List.any_eq_true]
  constructor
  · rintro ⟨p, hp, hsame⟩
    obtain rfl := JsValue.string.inj (strictlyEqual_string_right.mp hsame)
    exact hp
  · exact fun hpath => ⟨path, hpath, strictlyEqual_string_right.mpr rfl⟩

theorem extraDeltas_nil {observed : List JsString} (hdeltas : AcceptedDeltas deltas)
    (hobserved : ∀ path ∈ observed, path ∈ paths) :
    extraDeltas deltas paths observed = [] ↔ ∀ path, NamedBy deltas path → path ∈ observed := by
  obtain ⟨names, hnames, -⟩ := hdeltas.paths
  have hnamed (path : JsString) : NamedBy deltas path ↔ path ∈ names := by
    have hmem : JsValue.string path ∈ deltas.map (fun delta => delta.property (js "path")) ↔
        NamedBy deltas path := List.mem_map
    rw [← hmem, hnames, List.mem_map]
    exact ⟨fun ⟨p, hp, heq⟩ => JsValue.string.inj heq ▸ hp, fun hp => ⟨path, hp, rfl⟩⟩
  rw [extraDeltas, hnames, List.map_eq_nil_iff, List.filter_eq_nil_iff]
  simp only [List.mem_map, forall_exists_index, and_imp, forall_apply_eq_imp_iff₂, hnamed,
    Bool.or_eq_true, Bool.not_eq_true', not_or, Bool.not_eq_false, hasPath_iff]
  exact ⟨fun h path hpath => (h path hpath).2, fun h path hpath =>
    ⟨hobserved path (h path hpath), h path hpath⟩⟩

def reportOf (runtime : ScriptRuntime) (allowed : List JsString) (deltas : List JsValue)
    (baseLock headLock : JsValue) (paths : List JsString) (path : JsString) : OwnershipReport :=
  examineOwnership runtime allowed deltas (paths.zip (authorityFiles baseLock))
    (paths.zip (authorityFiles headLock)) path

theorem validate_nil_of_wellFormed (hbaseDocument : Document baseLock)
    (hheadDocument : Document headLock) (hbase : WellFormedLock runtime baseLock paths)
    (hhead : WellFormedLock runtime headLock paths) :
    validateAuthorityLockTransition runtime allowed deltas baseLock headLock = [] ↔
      sameJson runtime (baseLock.without (js "authorityFiles"))
        (headLock.without (js "authorityFiles")) = true ∧
      (∀ path ∈ paths,
        (reportOf runtime allowed deltas baseLock headLock paths path).violations = []) ∧
      extraDeltas deltas paths (paths.filter fun path =>
        (reportOf runtime allowed deltas baseLock headLock paths path).observed) = [] := by
  have hsorted : JsString.sort paths = paths := (sorted_nodup_iff.mpr hbase.sorted).2
  rw [validateAuthorityLockTransition, collect_of_wellFormed hbaseDocument hbase,
    collect_of_wellFormed hheadDocument hhead]
  simp only [AuthorityEntries.sortedPaths, fst_zip hbase, fst_zip hhead, hsorted, sameJson_self,
    Bool.not_true, Bool.false_eq_true, if_false, List.append_nil, List.append_eq_nil_iff,
    List.map_eq_nil_iff, List.flatMap_eq_nil_iff, and_assoc]
  refine and_congr_left fun _ => ?_
  split <;> simp_all

theorem wellFormed_of_nil (hbaseDocument : Document baseLock) (hheadDocument : Document headLock)
    (h : validateAuthorityLockTransition runtime allowed deltas baseLock headLock = []) :
    ∃ paths, WellFormedLock runtime baseLock paths ∧ WellFormedLock runtime headLock paths := by
  unfold validateAuthorityLockTransition at h
  dsimp only at h
  split at h
  · simp at h
  · rename_i hpaths
    obtain ⟨h, -⟩ := List.append_eq_nil_iff.mp h
    obtain ⟨h, -⟩ := List.append_eq_nil_iff.mp h
    obtain ⟨h, hhead⟩ := List.append_eq_nil_iff.mp (List.map_eq_nil_iff.mp h)
    obtain ⟨-, hbase⟩ := List.append_eq_nil_iff.mp h
    obtain ⟨basePaths, base⟩ := wellFormed_of_collect hbaseDocument hbase
    obtain ⟨headPaths, head⟩ := wellFormed_of_collect hheadDocument hhead
    rw [collect_of_wellFormed hbaseDocument base, collect_of_wellFormed hheadDocument head,
      AuthorityEntries.sortedPaths, AuthorityEntries.sortedPaths, fst_zip base, fst_zip head,
      (sorted_nodup_iff.mpr base.sorted).2, (sorted_nodup_iff.mpr head.sorted).2] at hpaths
    obtain rfl := sameJson_ofStrings.mp (by simpa using hpaths)
    exact ⟨basePaths, base, head⟩

theorem mem_observed (hdeltas : AcceptedDeltas deltas)
    (hbase : WellFormedLock runtime baseLock paths) (hhead : WellFormedLock runtime headLock paths)
    (hfixed : ∀ path b h, EntryAt baseLock path b → EntryAt headLock path h →
      sameJson runtime (fixedMembers b) (fixedMembers h) = true) (path : JsString) :
    path ∈ (paths.filter fun path =>
        (reportOf runtime allowed deltas baseLock headLock paths path).observed) ↔
      ∃ b h, EntryAt baseLock path b ∧ EntryAt headLock path h ∧
        ChangeAuthorized deltas path b h := by
  rw [List.mem_filter]
  constructor
  · rintro ⟨hpath, hobserved⟩
    obtain ⟨b, hb⟩ := exists_entryAt hbase hpath
    obtain ⟨h, hh⟩ := exists_entryAt hhead hpath
    exact ⟨b, h, hb, hh, ((examineOwnership_iff hdeltas hbase hhead hb hh).2
      (hfixed path b h hb hh)).mp hobserved⟩
  · rintro ⟨b, h, hb, hh, hchange⟩
    exact ⟨mem_of_entryAt hbase hb, ((examineOwnership_iff hdeltas hbase hhead hb hh).2
      (hfixed path b h hb hh)).mpr hchange⟩

theorem authorized_of_nil (hdeltas : AcceptedDeltas deltas) (hbaseDocument : Document baseLock)
    (hheadDocument : Document headLock) (hbase : WellFormedLock runtime baseLock paths)
    (hhead : WellFormedLock runtime headLock paths)
    (hnil : validateAuthorityLockTransition runtime allowed deltas baseLock headLock = []) :
    AuthorizedTransition runtime allowed deltas baseLock headLock paths := by
  obtain ⟨htop, hreports, hextra⟩ :=
    (validate_nil_of_wellFormed hbaseDocument hheadDocument hbase hhead).mp hnil
  have hreport (path : JsString) (b h : JsValue) (hb : EntryAt baseLock path b)
      (hh : EntryAt headLock path h) :=
    (examineOwnership_iff hdeltas hbase hhead hb hh).1.mp (hreports path (mem_of_entryAt hbase hb))
  have hfixed := fun path b h hb hh => (hreport path b h hb hh).1
  have hobserved := @mem_observed runtime allowed deltas baseLock headLock paths hdeltas hbase hhead
    hfixed
  have hnamed := (extraDeltas_nil hdeltas fun path hpath => (List.mem_filter.mp hpath).1).mp hextra
  refine ⟨hbase, hhead, htop, hfixed, fun path => ⟨fun hname => ?_, ?_⟩, ?_,
    fun path b h hb hh => (hreport path b h hb hh).2.2⟩
  · obtain ⟨b, h, hb, hh, hchange⟩ := (hobserved path).mp (hnamed path hname)
    exact ⟨b, h, hb, hh, hchange.1⟩
  · rintro ⟨b, h, hb, hh, hne⟩
    obtain ⟨-, delta, hdelta, hname, -⟩ := (hreport path b h hb hh).2.1.resolve_left hne
    exact ⟨delta, hdelta, hname⟩
  · intro delta hdelta path b h hname hb hh
    obtain ⟨b', h', hb', hh', -, delta', hdelta', hname', hauthorizes⟩ :=
      (hobserved path).mp (hnamed path ⟨delta, hdelta, hname⟩)
    obtain rfl := (get_entryAt hbase hb).symm.trans (get_entryAt hbase hb')
    obtain rfl := (get_entryAt hhead hh).symm.trans (get_entryAt hhead hh')
    obtain rfl := Option.some.inj (((authorizedDelta_eq_some hdeltas).mpr ⟨hdelta, hname⟩).symm.trans
      ((authorizedDelta_eq_some hdeltas).mpr ⟨hdelta', hname'⟩))
    exact hauthorizes

theorem nil_of_authorized (hdeltas : AcceptedDeltas deltas) (hbaseDocument : Document baseLock)
    (hheadDocument : Document headLock)
    (h : AuthorizedTransition runtime allowed deltas baseLock headLock paths) :
    validateAuthorityLockTransition runtime allowed deltas baseLock headLock = [] := by
  have hchange (path : JsString) (b e : JsValue) (hb : EntryAt baseLock path b)
      (he : EntryAt headLock path e) (hne : allowedOperationIds b ≠ allowedOperationIds e) :
      ChangeAuthorized deltas path b e := by
    obtain ⟨delta, hdelta, hname⟩ := (h.named path).mpr ⟨b, e, hb, he, hne⟩
    exact ⟨hne, delta, hdelta, hname, h.authorized delta hdelta path b e hname hb he⟩
  refine (validate_nil_of_wellFormed hbaseDocument hheadDocument h.base h.head).mpr
    ⟨h.topLevel, fun path hpath => ?_, ?_⟩
  · obtain ⟨b, hb⟩ := exists_entryAt h.base hpath
    obtain ⟨e, he⟩ := exists_entryAt h.head hpath
    exact (examineOwnership_iff hdeltas h.base h.head hb he).1.mpr
      ⟨h.fixed path b e hb he, or_iff_not_imp_left.mpr (hchange path b e hb he),
        h.hashes path b e hb he⟩
  · refine (extraDeltas_nil hdeltas fun path hpath => (List.mem_filter.mp hpath).1).mpr ?_
    intro path hname
    obtain ⟨b, e, hb, he, hne⟩ := (h.named path).mp hname
    exact (mem_observed hdeltas h.base h.head h.fixed path).mpr
      ⟨b, e, hb, he, hchange path b e hb he hne⟩

end Validation

-- The locks and the deltas are read from JSON text.
theorem lock_transition_authorized (runtime : ScriptRuntime) (baseLock headLock : JsValue)
    (allowedChangedPaths : List JsString) (deltas : List JsValue)
    (hbase : Document baseLock) (hhead : Document headLock)
    (hdocuments : ∀ delta ∈ deltas, Document delta)
    (hdeltas : validateAuthorityOwnershipDeltas runtime (Json.arrayOf deltas) = .ok ()) :
    validateAuthorityLockTransition runtime allowedChangedPaths deltas baseLock headLock = [] ↔
      ∃ paths, AuthorizedTransition runtime allowedChangedPaths deltas baseLock headLock paths := by
  have haccepted := accepted_of_validate hdocuments hdeltas
  constructor
  · intro hnil
    obtain ⟨paths, base, head⟩ := wellFormed_of_nil hbase hhead hnil
    exact ⟨paths, authorized_of_nil haccepted hbase hhead base head hnil⟩
  · rintro ⟨paths, h⟩
    exact nil_of_authorized haccepted hbase hhead h

def sampleDelta : JsValue :=
  .record [(js "path", .string (js "docs/plan.md")),
    (js "beforeAllowedOperationIds", .ofStrings [js "P1-O02"]),
    (js "afterAllowedOperationIds", .ofStrings [js "P1-O02", js "P1-O03"])]

theorem document_sampleDelta : Document sampleDelta := by
  have hkeys : [js "path", js "beforeAllowedOperationIds", js "afterAllowedOperationIds"].Nodup := by
    decide
  have hids (ids : List JsString) : Document (.ofStrings ids) :=
    .array (by simp) (by simp [Document.string])
  refine .object (by simp [Field.own, Field.sortKey, Field.name?]) hkeys ?_
  simp [hids, Document.string]

theorem sample_lock_transition : ∃ paths,
    AuthorizedTransition sampleScript [js "docs/plan.md"] [sampleDelta]
      (sampleLock [sampleEntry zeroDigest [js "P1-O02"]] .null)
      (sampleLock [sampleEntry oneDigest [js "P1-O02", js "P1-O03"]] .null) paths :=
  (lock_transition_authorized sampleScript _ _ [js "docs/plan.md"] [sampleDelta]
    (document_sampleLock (by simp [document_sampleEntry]) .null)
    (document_sampleLock (by simp [document_sampleEntry]) .null)
    (by simp [document_sampleDelta]) rfl).mp rfl

def orderedLock (first second : String) : JsValue :=
  .record [(js "authorityFiles", Json.arrayOf []), (js first, .null), (js second, .null)]

-- Members that stand in another order are refused, and one that is null in the base lock and 1e999
-- in the head lock, which reads as Infinity, is let through.
theorem members_agree_as_text :
    (∃ baseLock headLock, Document baseLock ∧ Document headLock ∧
      WellFormedLock sampleScript baseLock [] ∧ WellFormedLock sampleScript headLock [] ∧
      (∀ key, baseLock.property key = headLock.property key) ∧
      validateAuthorityLockTransition sampleScript [] [] baseLock headLock ≠ []) ∧
    ∃ baseLock headLock, Document baseLock ∧ Document headLock ∧
      validateAuthorityLockTransition sampleScript [] [] baseLock headLock = [] ∧
      baseLock.property (js "note") ≠ headLock.property (js "note") := by
  have hdocument (first second : String)
      (hkeys : [js "authorityFiles", js first, js second].Nodup) :
      Document (orderedLock first second) := by
    refine .object (by simp [Field.own, Field.sortKey, Field.name?]) hkeys ?_
    simp [Document.null, @Json.document_arrayOf [] (by simp)]
  have hwellFormed (first second : String) :
      WellFormedLock sampleScript (orderedLock first second) [] :=
    ⟨⟨[], [], rfl⟩, .nil, .nil⟩
  refine ⟨⟨orderedLock "note" "version", orderedLock "version" "note", hdocument _ _ (by decide),
    hdocument _ _ (by decide), hwellFormed _ _, hwellFormed _ _, fun key => ?_, (by rintro ⟨⟩)⟩,
    sampleLock [] .null, sampleLock [] (.number (.infinity false)),
    document_sampleLock (by simp) .null, document_sampleLock (by simp) .number, rfl, (by rintro ⟨⟩)⟩
  simp only [orderedLock, record, JsValue.property, List.map_cons, List.map_nil, Props.get_cons,
    Field.own]
  split_ifs <;> rfl

end Authorization

end ScopePolicy

end Aseos
