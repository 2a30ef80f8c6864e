import Aseos.Library.TransitionSystem
import Aseos.Toolchain.ScopePolicy

namespace Aseos

namespace ScopePolicy

open JsValue TransitionSystem

section Comparison

theorem strictlyEqual_string {s : JsString} {v : JsValue} :
    strictlyEqual (.string s) v = true ↔ v = .string s := by
  cases v with
  | string t => simp [strictlyEqual, eq_comm (a := s)]
  | _ => simp [strictlyEqual]

theorem strictlyEqual_string_right {s : JsString} {v : JsValue} :
    strictlyEqual v (.string s) = true ↔ v = .string s := by
  cases v with
  | number n => cases n <;> simp [strictlyEqual]
  | _ => simp [strictlyEqual]

variable {runtime : ScriptRuntime}

theorem restored_of_sameJson {v w : JsValue} (h : sameJson runtime v w = true) :
    v.restored = w.restored :=
  Json.restored_eq_of_stringify (eq_of_beq h)

theorem eq_of_sameJson {strings strings' : List JsString}
    (h : sameJson runtime (.ofStrings strings) (.ofStrings strings') = true) :
    strings = strings' :=
  ofStrings_inj (restored_of_sameJson h)

end Comparison

section Collection

variable {runtime : ScriptRuntime}

theorem collectEntry_violations (collected : AuthorityEntries) (entry : JsValue) :
    collected.violations <+: (collectEntry runtime collected entry).violations := by
  unfold collectEntry
  split
  · split
    · split <;> exact List.prefix_append _ _
    · exact List.prefix_append _ _
  · exact List.prefix_append _ _

theorem foldl_violations (entries : List JsValue) (collected : AuthorityEntries) :
    collected.violations <+: (entries.foldl (collectEntry runtime) collected).violations := by
  induction entries generalizing collected with
  | nil => exact List.prefix_rfl
  | cons entry entries ih => exact (collectEntry_violations collected entry).trans (ih _)

structure Collected (entry : JsString × JsValue) : Prop where
  path : entry.2.property (js "path") = .string entry.1
  operationIds : ∃ slots extra, entry.2.property (js "allowedOperationIds") = .array slots extra

theorem operationIds_of_nil {path : JsString} {entry : JsValue}
    (h : operationIdViolations runtime path entry = []) :
    ∃ slots extra, entry.property (js "allowedOperationIds") = .array slots extra := by
  unfold operationIdViolations at h
  split at h
  · rename_i hcanonical
    unfold isCanonicalUniqueStrings at hcanonical
    split at hcanonical
    · exact ⟨_, _, ‹_›⟩
    · cases hcanonical
  · cases h

theorem collectEntry_nil {collected : AuthorityEntries} {entry : JsValue}
    (h : (collectEntry runtime collected entry).violations = []) :
    ∃ path, (collectEntry runtime collected entry).entries = collected.entries ++ [(path, entry)] ∧
      (collectEntry runtime collected entry).paths = collected.paths ++ [path] ∧
      path ∉ collected.entries.map Prod.fst ∧ Collected (path, entry) := by
  unfold collectEntry at h ⊢
  split at h
  · rename_i path hpath
    split at h
    · rename_i hsafe
      split at h
      · simp at h
      · rename_i hnew
        obtain ⟨-, hids⟩ := List.append_eq_nil_iff.mp h
        rw [if_pos hsafe, if_neg hnew]
        refine ⟨path, rfl, rfl, fun hmem => hnew ?_, hpath, operationIds_of_nil hids⟩
        obtain ⟨e, he, rfl⟩ := List.mem_map.mp hmem
        exact List.any_eq_true.mpr ⟨e, he, decide_eq_true rfl⟩
    · simp at h
  · simp at h

theorem foldl_nil {entries : List JsValue} {collected : AuthorityEntries}
    (hnodup : (collected.entries.map Prod.fst).Nodup)
    (h : (entries.foldl (collectEntry runtime) collected).violations = []) :
    ∃ added, (entries.foldl (collectEntry runtime) collected).entries = collected.entries ++ added ∧
      (entries.foldl (collectEntry runtime) collected).paths =
        collected.paths ++ added.map Prod.fst ∧
      ((collected.entries ++ added).map Prod.fst).Nodup ∧ added.map Prod.snd = entries ∧
      ∀ e ∈ added, Collected e := by
  induction entries generalizing collected with
  | nil => exact ⟨[], by simp, by simp, by simpa using hnodup, rfl, by simp⟩
  | cons entry entries ih =>
    have hstep : (collectEntry runtime collected entry).violations = [] :=
      List.prefix_nil.mp (h ▸ foldl_violations entries _)
    obtain ⟨path, hentries, hpaths, hnew, hcollected⟩ := collectEntry_nil hstep
    have hnodup' : ((collectEntry runtime collected entry).entries.map Prod.fst).Nodup := by
      rw [hentries, List.map_append, List.nodup_append]
      refine ⟨hnodup, by simp, ?_⟩
      rintro a ha b hb rfl
      obtain rfl := List.mem_singleton.mp hb
      exact hnew ha
    obtain ⟨added, hadded, haddedPaths, hdistinct, hvalues, hall⟩ := ih hnodup' h
    refine ⟨(path, entry) :: added, ?_, ?_, ?_, by rw [List.map_cons, hvalues], ?_⟩
    · rw [List.foldl_cons, hadded, hentries, List.append_assoc]
      rfl
    · rw [List.foldl_cons, haddedPaths, hpaths, List.append_assoc]
      rfl
    · rw [hentries, List.append_assoc] at hdistinct
      exact hdistinct
    · exact List.forall_mem_cons.mpr ⟨hcollected, hall⟩

def authorityFiles (lock : JsValue) : List JsValue :=
  match lock.property (js "authorityFiles") with
  | .array slots _ => slots.map Prod.snd
  | _ => []

structure CollectedLock (lock : JsValue) (entries : List (JsString × JsValue)) : Prop where
  object : ∃ plain props, lock = .object plain props
  files : entries.map Prod.snd = authorityFiles lock
  distinct : (entries.map Prod.fst).Nodup
  sorted : JsString.sort (entries.map Prod.fst) = entries.map Prod.fst
  collected : ∀ e ∈ entries, Collected e

theorem collectAuthorityEntries_nil {lock : JsValue} {side : LockSide}
    (h : (collectAuthorityEntries runtime lock side).violations = []) :
    CollectedLock lock (collectAuthorityEntries runtime lock side).entries := by
  unfold collectAuthorityEntries at h ⊢
  split at h
  · rename_i slots extra hfiles
    simp only at h ⊢
    split at h
    · rename_i hsame
      rw [if_pos hsame]
      obtain ⟨added, hentries, hpaths, hdistinct, hvalues, hall⟩ := foldl_nil (by simp) h
      rw [List.nil_append] at hentries hpaths hdistinct
      have hsorted := eq_of_sameJson hsame
      rw [hpaths] at hsorted
      rw [hentries]
      refine ⟨?_, ?_, hdistinct, hsorted, hall⟩
      · cases lock with
        | object plain props => exact ⟨plain, props, rfl⟩
        | _ => cases hfiles
      · rw [hvalues, authorityFiles, hfiles]
    · simp at h
  · simp at h

theorem get_of_mem {entries : List (JsString × JsValue)} (hdistinct : (entries.map Prod.fst).Nodup)
    {e : JsString × JsValue} (he : e ∈ entries) : AuthorityEntries.get entries e.1 = e.2 := by
  have hfind : entries.find? (fun x => x.1 = e.1) = some e := by
    refine List.find?_eq_some_iff_append.mpr ?_
    obtain ⟨before, after, rfl⟩ := List.append_of_mem he
    refine ⟨decide_eq_true rfl, before, after, rfl, fun x hx => ?_⟩
    rw [List.map_append, List.nodup_append] at hdistinct
    simpa using hdistinct.2.2 x.1 (List.mem_map_of_mem hx) e.1 (by simp)
  rw [AuthorityEntries.get, hfind]
  rfl

end Collection

theorem forall₂_mem {α β : Type*} {R : α → β → Prop} {l : List α} {l' : List β}
    (h : List.Forall₂ R l l') : List.Forall₂ (fun a b => a ∈ l ∧ b ∈ l' ∧ R a b) l l' := by
  induction h with
  | nil => exact .nil
  | cons hab _ ih =>
    refine .cons ⟨by simp, by simp, hab⟩ (ih.imp ?_)
    rintro a b ⟨ha, hb, hab⟩
    exact ⟨List.mem_cons_of_mem _ ha, List.mem_cons_of_mem _ hb, hab⟩

theorem forall₂_trans {α : Type*} {R : α → α → Prop} (hR : ∀ a b c, R a b → R b c → R a c)
    {l l' l'' : List α} (h : List.Forall₂ R l l') (h' : List.Forall₂ R l' l'') :
    List.Forall₂ R l l'' := by
  induction h generalizing l'' with
  | nil =>
    cases h'
    exact .nil
  | cons hab _ ih =>
    cases h' with
    | cons hbc htail => exact .cons (hR _ _ _ hab hbc) (ih htail)

section Paths

variable {runtime : ScriptRuntime} {operationId : JsString} {changedPaths : List JsString}
  {actualHashes : JsString → Option JsString}

def Allows (operationId : JsString) (entry : JsValue) : Prop :=
  entry.property (js "mutationPolicy") = .string (js "OPERATION_SCOPED") ∧
    ∃ slots extra, entry.property (js "allowedOperationIds") = .array slots extra ∧
      ∃ s ∈ slots, s.2 = .string operationId

theorem allows_of_mayChange {entry : JsValue} (h : mayChange operationId entry = .ok true)
    (hids : ∃ slots extra, entry.property (js "allowedOperationIds") = .array slots extra) :
    Allows operationId entry := by
  obtain ⟨slots, extra, hids⟩ := hids
  unfold mayChange at h
  split at h
  · rename_i hpolicy
    refine ⟨strictlyEqual_string.mp hpolicy, slots, extra, hids, ?_⟩
    rw [hids] at h
    obtain ⟨s, hs, hstring⟩ := List.any_eq_true.mp (Except.ok.inj h)
    refine ⟨s, hs, ?_⟩
    cases hvalue : s.2 <;> simp [hvalue, JsValue.isString] at hstring
    rw [hstring]
  · cases h

theorem refreshViolations_nil {path : JsString} {entry : JsValue}
    (h : refreshViolations operationId changedPaths path entry = .ok []) :
    path ∈ changedPaths ∧ mayChange operationId entry = .ok true := by
  obtain ⟨allowed, hallowed, h⟩ := Except.bind_eq_ok.mp h
  obtain ⟨hchanged, hrefused⟩ := List.append_eq_nil_iff.mp (Except.ok.inj h)
  refine ⟨?_, ?_⟩
  · split at hchanged
    · rename_i hmem
      exact List.elem_iff.mp (Bool.and_eq_true_iff.mp hmem).2
    · cases hchanged
  · cases allowed with
    | true => exact hallowed
    | false => cases hrefused

theorem changeViolations_nil {path : JsString} {baseEntry headEntry : JsValue} {hashChanged : Bool}
    (h : changeViolations operationId changedPaths actualHashes path baseEntry headEntry
      hashChanged = .ok []) :
    mayChange operationId baseEntry = .ok true ∧
      ∃ hash, actualHashes path = some hash ∧ headEntry.property (js "sha256") = .string hash := by
  obtain ⟨allowed, hallowed, h⟩ := Except.bind_eq_ok.mp h
  obtain ⟨h, -⟩ := List.append_eq_nil_iff.mp (Except.ok.inj h)
  obtain ⟨h, hmismatch⟩ := List.append_eq_nil_iff.mp h
  obtain ⟨hrefused, -⟩ := List.append_eq_nil_iff.mp h
  refine ⟨?_, ?_⟩
  · cases allowed with
    | true => exact hallowed
    | false => cases hrefused
  · cases hhash : actualHashes path with
    | none => simp [hhash] at hmismatch
    | some hash =>
      refine ⟨hash, rfl, strictlyEqual_string_right.mp ?_⟩
      by_contra hne
      simp [hhash, hne] at hmismatch

structure Examined (operationId : JsString) (changedPaths : List JsString)
    (actualHashes : JsString → Option JsString) (path : JsString) (baseEntry headEntry : JsValue) :
    Prop where
  ownership : (baseEntry.without (js "sha256")).restored = (headEntry.without (js "sha256")).restored
  unchanged : path ∉ changedPaths →
    strictlyEqual (baseEntry.property (js "sha256")) (headEntry.property (js "sha256")) = true
  changed : path ∈ changedPaths → mayChange operationId baseEntry = .ok true ∧
    ∃ hash, actualHashes path = some hash ∧ headEntry.property (js "sha256") = .string hash

theorem examinePath_nil {baseEntries headEntries : List (JsString × JsValue)} {path : JsString}
    {report : PathReport}
    (h : examinePath runtime operationId changedPaths actualHashes baseEntries headEntries path =
      .ok report) (hreport : report.violations = []) :
    Examined operationId changedPaths actualHashes path (AuthorityEntries.get baseEntries path)
      (AuthorityEntries.get headEntries path) := by
  unfold examinePath at h
  simp only at h
  split at h
  · obtain rfl := Except.ok.inj h
    cases hreport
  · rename_i hsame
    obtain ⟨refresh, hrefresh, h⟩ := Except.bind_eq_ok.mp h
    obtain ⟨change, hchange, h⟩ := Except.bind_eq_ok.mp h
    obtain rfl := Except.ok.inj h
    obtain ⟨rfl, rfl⟩ := List.append_eq_nil_iff.mp hreport
    refine ⟨restored_of_sameJson (by simpa using hsame), fun hpath => ?_, fun hpath => ?_⟩
    · by_contra hhash
      rw [if_pos (by simpa using hhash)] at hrefresh
      exact hpath (refreshViolations_nil hrefresh).1
    · rw [if_pos (List.elem_iff.mpr hpath)] at hchange
      exact changeViolations_nil hchange

theorem validate_nil {baseLock headLock : JsValue}
    (h : validateOperationAuthorityLockTransition runtime operationId changedPaths actualHashes
      baseLock headLock = .ok []) :
    ∃ baseEntries headEntries, CollectedLock baseLock baseEntries ∧
      CollectedLock headLock headEntries ∧
      (baseLock.without (js "authorityFiles")).restored =
        (headLock.without (js "authorityFiles")).restored ∧
      List.Forall₂ (fun b h => b.1 = h.1 ∧
        Examined operationId changedPaths actualHashes b.1 b.2 h.2) baseEntries headEntries := by
  unfold validateOperationAuthorityLockTransition at h
  simp only at h
  split at h
  · simp at h
  · rename_i hpaths
    obtain ⟨self, -, h⟩ := Except.bind_eq_ok.mp h
    obtain ⟨reports, hreports, h⟩ := Except.bind_eq_ok.mp h
    obtain ⟨h, -⟩ := List.append_eq_nil_iff.mp (Except.ok.inj h)
    obtain ⟨h, hviolations⟩ := List.append_eq_nil_iff.mp h
    obtain ⟨h, -⟩ := List.append_eq_nil_iff.mp h
    obtain ⟨h, hhead⟩ := List.append_eq_nil_iff.mp h
    obtain ⟨htop, hbase⟩ := List.append_eq_nil_iff.mp h
    have base := collectAuthorityEntries_nil hbase
    have head := collectAuthorityEntries_nil hhead
    have hsame := eq_of_sameJson (by simpa using hpaths)
    rw [AuthorityEntries.sortedPaths, AuthorityEntries.sortedPaths, base.sorted, head.sorted]
      at hsame
    rw [AuthorityEntries.sortedPaths, base.sorted] at hreports
    refine ⟨_, _, base, head, ?_, ?_⟩
    · split at htop
      · exact restored_of_sameJson ‹_›
      · cases htop
    · have hforall := Except.mapM_eq_ok.mp hreports
      have hexamined (path : JsString)
          (hpath : path ∈ (collectAuthorityEntries runtime baseLock .base).entries.map Prod.fst) :
          Examined operationId changedPaths actualHashes path
            (AuthorityEntries.get (collectAuthorityEntries runtime baseLock .base).entries path)
            (AuthorityEntries.get (collectAuthorityEntries runtime headLock .head).entries path) := by
        obtain ⟨report, hmem, hreport⟩ := forall₂_left hforall path hpath
        exact examinePath_nil hreport (List.flatMap_eq_nil_iff.mp hviolations report hmem)
      have hpaired : List.Forall₂ (fun b h : JsString × JsValue => b.1 = h.1)
          (collectAuthorityEntries runtime baseLock .base).entries
          (collectAuthorityEntries runtime headLock .head).entries := by
        have heq := List.forall₂_eq_eq_eq ▸ hsame
        rwa [List.forall₂_map_left_iff, List.forall₂_map_right_iff] at heq
      refine (forall₂_mem hpaired).imp ?_
      rintro b h ⟨hb, hh, hpath⟩
      refine ⟨hpath, ?_⟩
      have hgood := hexamined b.1 (List.mem_map_of_mem hb)
      have hget := get_of_mem head.distinct hh
      rw [get_of_mem base.distinct hb, hpath, hget, ← hpath] at hgood
      exact hgood

end Paths

section Transitions

variable {Content : Type*}

structure LockedTree (Content : Type*) where
  lock : JsValue
  tree : JsString → Option Content

def lockPaths (lock : JsValue) : List JsValue :=
  (authorityFiles lock).map fun entry => entry.property (js "path")

def Records (hash : Content → HexDigest) (s : LockedTree Content) : Prop :=
  ∀ entry ∈ authorityFiles s.lock, ∃ path content, entry.property (js "path") = .string path ∧
    s.tree path = some content ∧ entry.property (js "sha256") = .string (hash content).text

structure AgreesButHashes (R : JsValue → JsValue → Prop) (base head : JsValue) : Prop where
  members : ∀ key ≠ js "authorityFiles", R (base.property key) (head.property key)
  entries : List.Forall₂ (fun b h => ∀ key ≠ js "sha256", R (b.property key) (h.property key))
    (authorityFiles base) (authorityFiles head)

def SameJson (v w : JsValue) : Prop := v.restored = w.restored

-- An operation that the gate lets through. Both locks were read from JSON text, the changed paths
-- are all the paths whose content differs, and a hash was computed for each changed locked file
-- that the head tree still has.
def AcceptedOperation (runtime : ScriptRuntime) (hash : Content → HexDigest)
    (s : LockedTree Content) (operationId : JsString) (t : LockedTree Content) : Prop :=
  ∃ changedPaths actualHashes,
    Document s.lock ∧ Document t.lock ∧ (∀ path, s.tree path ≠ t.tree path → path ∈ changedPaths) ∧
    (∀ path ∈ changedPaths, .string path ∈ lockPaths s.lock →
      actualHashes path = (t.tree path).map fun content => (hash content).text) ∧
    validateOperationAuthorityLockTransition runtime operationId changedPaths actualHashes
      s.lock t.lock = .ok []

variable {runtime : ScriptRuntime} {hash : Content → HexDigest} {s t : LockedTree Content}
  {operationId : JsString}

theorem AgreesButHashes.refl (lock : JsValue) : AgreesButHashes SameJson lock lock :=
  ⟨fun _ _ => rfl, List.forall₂_same.mpr fun _ _ _ _ => rfl⟩

theorem AgreesButHashes.trans {a b c : JsValue} (h : AgreesButHashes SameJson a b)
    (h' : AgreesButHashes SameJson b c) : AgreesButHashes SameJson a c := by
  refine ⟨fun key hkey => (h.members key hkey).trans (h'.members key hkey), ?_⟩
  refine forall₂_trans ?_ h.entries h'.entries
  exact fun x y z hxy hyz key hkey => (hxy key hkey).trans (hyz key hkey)

theorem document_of_file {lock entry : JsValue} (h : Document lock)
    (hentry : entry ∈ authorityFiles lock) : Document entry := by
  unfold authorityFiles at hentry
  split at hentry
  · rename_i slots extra hfiles
    obtain ⟨s, hs, rfl⟩ := List.mem_map.mp hentry
    rcases h.property (js "authorityFiles") with hnone | hdocument
    · rw [hfiles] at hnone
      cases hnone
    · rw [hfiles] at hdocument
      cases hdocument with
      | array _ hslots => exact hslots s hs
  · cases hentry

theorem object_of_path {entry : JsValue} {path : JsString}
    (h : entry.property (js "path") = .string path) : ∃ plain props, entry = .object plain props := by
  cases entry with
  | object plain props => exact ⟨plain, props, rfl⟩
  | _ => cases h

theorem agrees_of_accepted (h : AcceptedOperation runtime hash s operationId t) :
    AgreesButHashes SameJson s.lock t.lock ∧ lockPaths s.lock = lockPaths t.lock := by
  obtain ⟨changedPaths, actualHashes, hbase, hhead, -, -, hvalid⟩ := h
  obtain ⟨baseEntries, headEntries, base, head, htop, hpaired⟩ := validate_nil hvalid
  have hentries : List.Forall₂ (fun b h : JsString × JsValue =>
      ∀ key ≠ js "sha256", SameJson (b.2.property key) (h.2.property key)) baseEntries headEntries := by
    refine (forall₂_mem hpaired).imp ?_
    rintro b h ⟨hb, hh, -, hexamined⟩
    have hbfile : b.2 ∈ authorityFiles s.lock := base.files ▸ List.mem_map_of_mem hb
    have hhfile : h.2 ∈ authorityFiles t.lock := head.files ▸ List.mem_map_of_mem hh
    exact restored_property (document_of_file hbase hbfile) (document_of_file hhead hhfile)
      (object_of_path (base.collected b hb).path) (object_of_path (head.collected h hh).path)
      hexamined.ownership
  refine ⟨⟨restored_property hbase hhead base.object head.object htop, ?_⟩, ?_⟩
  · rw [← base.files, ← head.files, List.forall₂_map_left_iff, List.forall₂_map_right_iff]
    exact hentries
  · rw [lockPaths, lockPaths, ← base.files, ← head.files, List.map_map, List.map_map]
    have hpaths : List.Forall₂ (fun b h : JsString × JsValue =>
        b.2.property (js "path") = h.2.property (js "path")) baseEntries headEntries := by
      refine (forall₂_mem hpaired).imp ?_
      rintro b h ⟨hb, hh, hpath, -⟩
      rw [(base.collected b hb).path, (head.collected h hh).path, hpath]
    rw [← List.forall₂_eq_eq_eq]
    exact List.forall₂_map_left_iff.mpr (List.forall₂_map_right_iff.mpr hpaths)

theorem records_of_accepted (h : AcceptedOperation runtime hash s operationId t)
    (hs : Records hash s) :
    Records hash t ∧
      ∀ entry ∈ authorityFiles s.lock, ∀ path, entry.property (js "path") = .string path →
        s.tree path ≠ t.tree path → Allows operationId entry := by
  obtain ⟨changedPaths, actualHashes, hbase, hhead, hchanged, hhashes, hvalid⟩ := h
  obtain ⟨baseEntries, headEntries, base, head, htop, hpaired⟩ := validate_nil hvalid
  refine ⟨fun entry hentry => ?_, fun entry hentry path hpath hne => ?_⟩
  · rw [← head.files] at hentry
    obtain ⟨h, hh, rfl⟩ := List.mem_map.mp hentry
    obtain ⟨b, -, hb, -, hpath, hexamined⟩ := forall₂_left (forall₂_mem hpaired).flip h hh
    have hbfile : b.2 ∈ authorityFiles s.lock := base.files ▸ List.mem_map_of_mem hb
    have hbpath := (base.collected b hb).path
    obtain ⟨path, content, hrecorded, htree, hhash⟩ := hs b.2 hbfile
    obtain rfl : b.1 = path := by simpa using hbpath.symm.trans hrecorded
    rw [(head.collected h hh).path, ← hpath]
    by_cases hmem : b.1 ∈ changedPaths
    · obtain ⟨-, actual, hactual, hheadHash⟩ := hexamined.changed hmem
      have hlocked : JsValue.string b.1 ∈ lockPaths s.lock :=
        List.mem_map.mpr ⟨b.2, hbfile, hbpath⟩
      obtain ⟨content, hcontent, rfl⟩ :=
        Option.map_eq_some_iff.mp ((hhashes b.1 hmem hlocked).symm.trans hactual)
      exact ⟨b.1, content, rfl, hcontent, hheadHash⟩
    · have hsame : s.tree b.1 = t.tree b.1 := by
        by_contra hne
        exact hmem (hchanged b.1 hne)
      have hunchanged := hexamined.unchanged hmem
      rw [hhash] at hunchanged
      exact ⟨b.1, content, rfl, hsame ▸ htree, strictlyEqual_string.mp hunchanged⟩
  · rw [← base.files] at hentry
    obtain ⟨b, hb, rfl⟩ := List.mem_map.mp hentry
    obtain ⟨h, -, -, hexamined⟩ := forall₂_left hpaired b hb
    obtain rfl : b.1 = path := by simpa using (base.collected b hb).path.symm.trans hpath
    exact allows_of_mayChange (hexamined.changed (hchanged b.1 hne)).1
      (base.collected b hb).operationIds

theorem run_of_accepted {operationIds : List JsString}
    (h : Run (AcceptedOperation runtime hash) s operationIds t) (hs : Records hash s) :
    Records hash t ∧ lockPaths s.lock = lockPaths t.lock ∧
      AgreesButHashes SameJson s.lock t.lock := by
  refine h.invariant (P := fun t => Records hash t ∧ lockPaths s.lock = lockPaths t.lock ∧
    AgreesButHashes SameJson s.lock t.lock) ?_ ⟨hs, rfl, .refl _⟩
  rintro t operationId u hstep ⟨hrecords, hpaths, hagrees⟩
  obtain ⟨hagrees', hpaths'⟩ := agrees_of_accepted hstep
  exact ⟨(records_of_accepted hstep hrecords).1, hpaths.trans hpaths', hagrees.trans hagrees'⟩

theorem accepted_lock_describes_tree (runtime : ScriptRuntime) (hash : Content → HexDigest) :
    (∀ s operationId t, AcceptedOperation runtime hash s operationId t → Records hash s →
      lockPaths s.lock = lockPaths t.lock ∧ AgreesButHashes SameJson s.lock t.lock ∧
      Records hash t ∧
      ∀ entry ∈ authorityFiles s.lock, ∀ path, entry.property (js "path") = .string path →
        s.tree path ≠ t.tree path → Allows operationId entry) ∧
    ∀ s operationIds t, Run (AcceptedOperation runtime hash) s operationIds t → Records hash s →
      Records hash t ∧ lockPaths s.lock = lockPaths t.lock ∧
        AgreesButHashes SameJson s.lock t.lock := by
  refine ⟨fun s operationId t h hs => ?_, fun s operationIds t h hs => run_of_accepted h hs⟩
  obtain ⟨hagrees, hpaths⟩ := agrees_of_accepted h
  exact ⟨hpaths, hagrees, records_of_accepted h hs⟩

end Transitions

section Samples

noncomputable def sampleScript : ScriptRuntime := { sampleRuntime with normalizeNfc := id }

def sampleLock (files : List JsValue) (note : JsValue) : JsValue :=
  .record [(js "authorityFiles", Json.arrayOf files), (js "note", note)]

def sampleEntry (digest : HexDigest) (operationIds : List JsString) : JsValue :=
  .record [(js "path", .string (js "docs/plan.md")), (js "sha256", .string digest.text),
    (js "mutationPolicy", .string (js "OPERATION_SCOPED")),
    (js "allowedOperationIds", .ofStrings operationIds)]

def oneDigest : HexDigest := ⟨List.replicate 64 49, by decide⟩

def sampleHash (revised : Bool) : HexDigest := if revised then oneDigest else zeroDigest

def sampleTree (revised : Bool) : LockedTree Bool where
  lock := sampleLock [sampleEntry (sampleHash revised) [js "P1-O02"]] .null
  tree path := if path = js "docs/plan.md" then some revised else none

theorem document_sampleLock {files : List JsValue} {note : JsValue}
    (hfiles : ∀ entry ∈ files, Document entry) (hnote : Document note) :
    Document (sampleLock files note) := by
  have hkeys : [js "authorityFiles", js "note"].Nodup := by decide
  refine .object (by simp [Field.own, Field.sortKey, Field.name?]) hkeys ?_
  simp [hnote, Json.document_arrayOf hfiles]

theorem document_sampleEntry (digest : HexDigest) (operationIds : List JsString) :
    Document (sampleEntry digest operationIds) := by
  have hkeys : [js "path", js "sha256", js "mutationPolicy", js "allowedOperationIds"].Nodup := by
    decide
  refine .object (by simp [Field.own, Field.sortKey, Field.name?]) hkeys ?_
  have hids : Document (.ofStrings operationIds) := .array (by simp) (by simp [Document.string])
  simp [hids, Document.string]

theorem sampleTree_accepted :
    AcceptedOperation sampleScript sampleHash (sampleTree false) (js "P1-O02") (sampleTree true) := by
  refine ⟨[js "docs/plan.md", authorityLockPath], fun _ => some oneDigest.text,
    document_sampleLock (by simp [document_sampleEntry]) .null,
    document_sampleLock (by simp [document_sampleEntry]) .null, ?_, ?_, ?_⟩
  · intro path hne
    by_contra hpath
    rw [List.mem_cons, not_or] at hpath
    exact hne (by simp [sampleTree, hpath.1])
  · intro path _ hlocked
    obtain ⟨entry, hentry, hpath⟩ := List.mem_map.mp hlocked
    obtain rfl := List.mem_singleton.mp (show entry ∈ [sampleEntry zeroDigest [js "P1-O02"]] from hentry)
    obtain rfl : js "docs/plan.md" = path := JsValue.string.inj hpath
    rfl
  · rfl

theorem sampleTree_records : Records sampleHash (sampleTree false) := by
  intro entry hentry
  obtain rfl := List.mem_singleton.mp (show entry ∈ [sampleEntry zeroDigest [js "P1-O02"]] from hentry)
  exact ⟨js "docs/plan.md", false, rfl, rfl, rfl⟩

theorem sampleTree_described :
    Records sampleHash (sampleTree true) ∧
      lockPaths (sampleTree false).lock = lockPaths (sampleTree true).lock ∧
      Allows (js "P1-O02") (sampleEntry zeroDigest [js "P1-O02"]) := by
  obtain ⟨hstep, hrun⟩ := accepted_lock_describes_tree sampleScript sampleHash
  obtain ⟨hpaths, -, -, hallows⟩ := hstep _ _ _ sampleTree_accepted sampleTree_records
  refine ⟨(hrun _ [js "P1-O02"] _ ((Run.nil _).snoc sampleTree_accepted) sampleTree_records).1,
    hpaths, hallows _ List.mem_cons_self (js "docs/plan.md") rfl ?_⟩
  decide

-- A member that is null in the base lock and 1e999 in the head lock, which reads as Infinity.
theorem infinite_member_accepted :
    ∃ s t : LockedTree Bool, AcceptedOperation sampleScript sampleHash s (js "P1-O02") t ∧
      Records sampleHash s ∧ ¬ AgreesButHashes (· = ·) s.lock t.lock := by
  refine ⟨⟨sampleLock [] .null, fun _ => none⟩,
    ⟨sampleLock [] (.number (.infinity false)), fun _ => none⟩, ⟨[], fun _ => none,
      document_sampleLock (by simp) .null, document_sampleLock (by simp) .number, by simp, by simp,
      rfl⟩, ?_, fun hagrees => ?_⟩
  · intro entry hentry
    exact absurd (show entry ∈ [] from hentry) List.not_mem_nil
  · have hnote : JsValue.null = .number (.infinity false) :=
      hagrees.members (js "note") (by decide)
    cases hnote

end Samples

end ScopePolicy

end Aseos
