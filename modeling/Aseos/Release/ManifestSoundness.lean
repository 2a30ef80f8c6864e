import Aseos.Release.VerifyManifest
import Aseos.Toolchain.AuthorityLock

namespace Aseos.Release

open Kernel (text)
open ScopePolicy (strictlyEqual strictlyEqual_string_right)

section Statement

variable (host : ReleaseHost) (artifact : Artifact)

def fileBytes (path : JsString) : Option Bytes :=
  match artifact.root.lookup (segments path) with
  | .ok (.file bytes) => some bytes
  | _ => none

def fileValue (path : JsString) : Option JsValue := do
  let bytes ← fileBytes artifact path
  Json.parse host.numberValue (← decodeText bytes)

def subjectDigest (subject : JsValue) : JsString × JsValue :=
  (text subject "name", field (field subject "digest") "sha256")

def entryDigest (entry : JsValue) : JsString × JsValue :=
  (text entry "path", field entry "sha256")

def checksumLine (record : JsString × JsString) : JsString :=
  record.1 ++ js "  " ++ record.2 ++ [10]

structure VerifiedRelease (manifestPath : JsString) (manifest : JsValue) : Prop where
  manifestFile : ∃ bytes, fileBytes artifact manifestPath = some bytes ∧
    Json.parse host.numberValue (host.decodeLossy bytes) = some manifest
  files (names : List JsString) : (∃ bytes, artifact.root.lookup names = .ok (.file bytes)) ↔
    ∃ path ∈ payloadPaths manifest ++ [manifestPath], names = segments path
  plain (names : List JsString) (node : Node) :
    artifact.root.lookup names = .ok node → node.isPlain = true
  contents : ∀ entry ∈ payloadOf manifest, ∃ bytes size,
    fileBytes artifact (text entry "path") = some bytes ∧
      field entry "sizeBytes" = .number (.finite size) ∧ size.value = bytes.length ∧
      field entry "sha256" = .string (host.sha256Bytes bytes).text
  contained : ∀ path ∈ payloadPaths manifest ++ [manifestPath],
    SafePath path ∧ fromRoot [] (segments path) = segments path
  subjects : ∃ provenance, fileValue host artifact (js "metadata/provenance.json") =
      some provenance ∧
    ((items (field provenance "subject")).map subjectDigest).Perm
      ((corePayload manifest).map entryDigest)
  packages : ∃ sbom, fileValue host artifact (js "metadata/sbom.spdx.json") = some sbom ∧
    (((items (field sbom "packages")).filter fun entry => !isNodePackage entry).map fun entry =>
        some (packageIdentity entry "versionInfo")).Perm
      ((packageFiles manifest).map fun entry =>
        (fileValue host artifact (text entry "path")).map fun value =>
          packageIdentity value "version")
  checksums : (fileBytes artifact checksumPath).bind decodeText =
    some ((otherPayload manifest).flatMap fun entry =>
      checksumLine (text entry "sha256", text entry "path"))

end Statement

section Payload

variable {host : ReleaseHost} {artifact : Artifact} {manifest : JsValue}

theorem text_of_field {value : JsValue} {key : String} {s : JsString}
    (h : field value key = .string s) : text value key = s := by
  rw [text, ← field, h]
  rfl

theorem hasSize_iff {value : JsValue} {n : ℕ} :
    hasSize value n = true ↔ ∃ x, value = .number (.finite x) ∧ x.value = n := by
  unfold hasSize
  split
  · simp
  · rename_i hother
    exact ⟨nofun, fun ⟨x, hx, _⟩ => absurd hx (hother x)⟩

theorem assertContents_ok {entry : JsValue} {bytes : Bytes}
    (h : assertContents host entry bytes = .ok ()) :
    ∃ size, field entry "sizeBytes" = .number (.finite size) ∧ size.value = bytes.length ∧
      field entry "sha256" = .string (host.sha256Bytes bytes).text := by
  obtain ⟨_, hsize, h⟩ := Except.bind_eq_ok.mp h
  obtain ⟨size, hfield, hvalue⟩ := hasSize_iff.mp (require_eq_ok.mp hsize)
  exact ⟨size, hfield, hvalue, strictlyEqual_string_right.mp (require_eq_ok.mp h)⟩

def HasPath (entry : JsValue) : Prop :=
  field entry "path" = .string (text entry "path") ∧ SafePath (text entry "path")

structure CheckedPayload (manifest : JsValue) : Prop where
  path : ∀ entry ∈ payloadOf manifest, HasPath entry
  nodup : (payloadPaths manifest).Nodup

theorem assertPayloadEntry_ok {location : JsString} {paths : List JsString} {entry : JsValue}
    {path : JsString} (h : assertPayloadEntry host location paths entry = .ok path) :
    HasPath entry ∧ path = text entry "path" ∧ path ∉ paths := by
  obtain ⟨_, -, h⟩ := Except.bind_eq_ok.mp h
  obtain ⟨_, hpath, h⟩ := Except.bind_eq_ok.mp h
  obtain ⟨_, -, h⟩ := Except.bind_eq_ok.mp h
  obtain ⟨_, -, h⟩ := Except.bind_eq_ok.mp h
  obtain ⟨_, -, h⟩ := Except.bind_eq_ok.mp h
  obtain ⟨_, hnew, h⟩ := Except.bind_eq_ok.mp h
  obtain rfl := Except.ok.inj h
  obtain ⟨hfield, hsafe⟩ := assertReleasePath_ok hpath
  rw [HasPath, text_of_field hfield]
  exact ⟨⟨hfield, hsafe⟩, rfl, require_eq_ok.mp hnew⟩

theorem nodup_snoc {α : Type} {l : List α} {a : α} (h : l.Nodup) (ha : a ∉ l) :
    (l ++ [a]).Nodup :=
  List.nodup_append.mpr ⟨h, List.nodup_singleton a, fun _ hx _ hy heq =>
    ha (List.mem_singleton.mp hy ▸ heq ▸ hx)⟩

theorem assertPayloadEntries_ok {entries : List JsValue} {paths all : List JsString}
    (hnodup : paths.Nodup) (h : assertPayloadEntries host paths entries = .ok all) :
    (∀ entry ∈ entries, HasPath entry) ∧
      all = paths ++ entries.map (fun entry => text entry "path") ∧ all.Nodup := by
  induction entries generalizing paths with
  | nil =>
    obtain rfl := Except.ok.inj h
    simpa using hnodup
  | cons entry entries ih =>
    obtain ⟨path, hentry, h⟩ := Except.bind_eq_ok.mp h
    obtain ⟨hpath, rfl, hnew⟩ := assertPayloadEntry_ok hentry
    obtain ⟨hpaths, hall, hnodup⟩ := ih (nodup_snoc hnodup hnew) h
    exact ⟨List.forall_mem_cons.mpr ⟨hpath, hpaths⟩, by simpa using hall, hnodup⟩

theorem assertManifestShape_ok (h : assertManifestShape host manifest = .ok ()) :
    CheckedPayload manifest := by
  obtain ⟨_, -, h⟩ := Except.bind_eq_ok.mp h
  obtain ⟨_, -, h⟩ := Except.bind_eq_ok.mp h
  obtain ⟨_, -, h⟩ := Except.bind_eq_ok.mp h
  obtain ⟨_, -, h⟩ := Except.bind_eq_ok.mp h
  obtain ⟨_, -, h⟩ := Except.bind_eq_ok.mp h
  obtain ⟨_, -, h⟩ := Except.bind_eq_ok.mp h
  obtain ⟨_, -, h⟩ := Except.bind_eq_ok.mp h
  obtain ⟨paths, hpaths, -⟩ := Except.bind_eq_ok.mp h
  obtain ⟨hpath, rfl, hnodup⟩ := assertPayloadEntries_ok List.nodup_nil hpaths
  exact ⟨hpath, hnodup⟩

theorem fileBytes_eq_some {path : JsString} {bytes : Bytes} :
    fileBytes artifact path = some bytes ↔
      artifact.root.lookup (segments path) = .ok (.file bytes) := by
  unfold fileBytes
  split
  · rename_i other hlookup
    simp [hlookup]
  · rename_i hother
    exact ⟨nofun, fun h => absurd h (hother bytes)⟩

theorem fileBytes_of_read {path : JsString} (hsafe : SafePath path) {file : List JsString}
    {bytes : Bytes} (hfile : resolvePayloadFile artifact path = .ok file)
    (h : readFile artifact file = .ok bytes) : fileBytes artifact path = some bytes := by
  rw [resolvePayloadFile_ok hsafe hfile] at h
  exact fileBytes_eq_some.mpr (readFile_ok h)

theorem verifyPayloadEntry_ok {entry : JsValue} (hpath : HasPath entry)
    (h : verifyPayloadEntry host artifact entry = .ok ()) :
    ∃ bytes size, fileBytes artifact (text entry "path") = some bytes ∧
      field entry "sizeBytes" = .number (.finite size) ∧ size.value = bytes.length ∧
      field entry "sha256" = .string (host.sha256Bytes bytes).text := by
  obtain ⟨file, hfile, h⟩ := Except.bind_eq_ok.mp h
  obtain ⟨bytes, hread, h⟩ := Except.bind_eq_ok.mp h
  obtain ⟨size, hcontents⟩ := assertContents_ok h
  exact ⟨bytes, size, fileBytes_of_read hpath.2 hfile hread, hcontents⟩

theorem readBoundPayloadBytes_ok (hpayload : CheckedPayload manifest) {path : JsString}
    {bytes : Bytes} (h : readBoundPayloadBytes host artifact manifest path = .ok bytes) :
    fileBytes artifact path = some bytes := by
  unfold readBoundPayloadBytes at h
  split at h
  · cases h
  · rename_i descriptor hentry
    obtain ⟨file, hfile, h⟩ := Except.bind_eq_ok.mp h
    obtain ⟨bytes, hread, h⟩ := Except.bind_eq_ok.mp h
    obtain ⟨_, -, h⟩ := Except.bind_eq_ok.mp h
    obtain rfl := Except.ok.inj h
    rw [payloadEntry] at hentry
    obtain ⟨hfield, hsafe⟩ := hpayload.path descriptor (List.mem_of_find?_eq_some hentry)
    have hsame := List.find?_some hentry
    rw [text_of_field (strictlyEqual_string_right.mp hsame)] at hsafe
    exact fileBytes_of_read hsafe hfile hread

theorem parseBytes_ok {code : ManifestErrorCode} {path : JsString} {message : String}
    {bytes : Bytes} {value : JsValue} (hbytes : fileBytes artifact path = some bytes)
    (h : parseBytes host code path message bytes = .ok value) :
    fileValue host artifact path = some value := by
  unfold parseBytes at h
  split at h
  · rename_i hparse
    obtain rfl := Except.ok.inj h
    rw [fileValue, hbytes]
    exact hparse
  · cases h

theorem readBoundCanonicalJson_ok (hpayload : CheckedPayload manifest) {path : JsString}
    {code : ManifestErrorCode} {value : JsValue}
    (h : readBoundCanonicalJson host artifact manifest path code = .ok value) :
    fileValue host artifact path = some value := by
  obtain ⟨bytes, hbytes, h⟩ := Except.bind_eq_ok.mp h
  obtain ⟨_, hvalue, h⟩ := Except.bind_eq_ok.mp h
  obtain ⟨_, -, h⟩ := Except.bind_eq_ok.mp h
  obtain rfl := Except.ok.inj h
  exact parseBytes_ok (readBoundPayloadBytes_ok hpayload hbytes) hvalue

end Payload

section Documents

variable {host : ReleaseHost} {artifact : Artifact} {manifest : JsValue}

theorem perm_of_covers {α β : Type} {l m : List (α × β)} (hm : (m.map Prod.fst).Nodup)
    (hlength : l.length = m.length) (h : ∀ a ∈ m, a ∈ l) : l.Perm m :=
  ((List.subperm_of_subset (List.Nodup.of_map Prod.fst hm) h).perm_of_length_le
    hlength.le).symm

theorem sort_eq_iff {l m : List JsString} : JsString.sort l = JsString.sort m ↔ l.Perm m :=
  ⟨fun h => (JsString.sort_perm l).symm.trans (h ▸ JsString.sort_perm m),
    JsString.sort_eq_of_perm⟩

theorem assertInventory_ok {actual expected : List JsString}
    (h : assertInventory actual expected = .ok ()) : actual.Perm expected := by
  simp only [assertInventory] at h
  split at h
  · rename_i hsame
    exact sort_eq_iff.mp hsame
  · split at h <;> cases h

theorem nodup_corePayload (hpayload : CheckedPayload manifest) :
    (((corePayload manifest).map entryDigest).map Prod.fst).Nodup := by
  rw [List.map_map]
  exact hpayload.nodup.sublist (List.Sublist.map _ List.filter_sublist)

theorem inspectSubjects_ok {list : List JsValue} {subjects all : List (JsString × JsValue)}
    (h : inspectSubjects host subjects list = .ok all) :
    all = subjects ++ list.map subjectDigest := by
  induction list generalizing subjects with
  | nil =>
    obtain rfl := Except.ok.inj h
    exact (List.append_nil _).symm
  | cons subject list ih =>
    obtain ⟨_, -, h⟩ := Except.bind_eq_ok.mp h
    obtain ⟨name, hname, h⟩ := Except.bind_eq_ok.mp h
    obtain ⟨_, -, h⟩ := Except.bind_eq_ok.mp h
    obtain ⟨_, -, h⟩ := Except.bind_eq_ok.mp h
    obtain rfl := text_of_field (assertReleasePath_ok hname).1
    rw [ih h, List.append_assoc]
    rfl

theorem coversCore_ok {subjects : List (JsString × JsValue)} (hpayload : CheckedPayload manifest)
    (hsha : ∀ entry ∈ payloadOf manifest, ∃ digest, field entry "sha256" = .string digest)
    (h : coversCore manifest subjects) :
    subjects.Perm ((corePayload manifest).map entryDigest) := by
  obtain ⟨hlength, hcovers⟩ := h
  refine perm_of_covers (nodup_corePayload hpayload) (by rwa [List.length_map]) ?_
  rintro _ hmem
  obtain ⟨entry, hentry, rfl⟩ := List.mem_map.mp hmem
  obtain ⟨subject, hfind, hsame⟩ := (Option.any_eq_true _ _).mp (hcovers entry hentry)
  have hname : subject.1 = text entry "path" := by simpa using List.find?_some hfind
  obtain ⟨digest, hdigest⟩ := hsha entry (List.mem_filter.mp hentry).1
  rw [hdigest, strictlyEqual_string_right, ← hdigest] at hsame
  rw [entryDigest, ← hname, ← hsame]
  exact List.mem_of_find?_eq_some hfind

theorem verifyProvenanceSemantics_ok (hpayload : CheckedPayload manifest)
    (hsha : ∀ entry ∈ payloadOf manifest, ∃ digest, field entry "sha256" = .string digest)
    (h : verifyProvenanceSemantics host artifact manifest = .ok ()) :
    ∃ provenance, fileValue host artifact (js "metadata/provenance.json") = some provenance ∧
      ((items (field provenance "subject")).map subjectDigest).Perm
        ((corePayload manifest).map entryDigest) := by
  obtain ⟨_, -, h⟩ := Except.bind_eq_ok.mp h
  obtain ⟨provenance, hread, h⟩ := Except.bind_eq_ok.mp h
  obtain ⟨_, -, h⟩ := Except.bind_eq_ok.mp h
  obtain ⟨_, -, h⟩ := Except.bind_eq_ok.mp h
  obtain ⟨_, -, h⟩ := Except.bind_eq_ok.mp h
  obtain ⟨subjects, hsubjects, h⟩ := Except.bind_eq_ok.mp h
  obtain ⟨_, hcovers, -⟩ := Except.bind_eq_ok.mp h
  obtain rfl := inspectSubjects_ok hsubjects
  exact ⟨provenance, readBoundCanonicalJson_ok hpayload hread,
    coversCore_ok hpayload hsha (require_eq_ok.mp hcovers)⟩

theorem inspectPackages_ok {entries : List JsValue} {index : ℕ} {spdxIds all : List JsString}
    (h : inspectPackages index spdxIds entries = .ok all) :
    all = (entries.filter fun entry => !isNodePackage entry).map fun entry =>
      packageIdentity entry "versionInfo" := by
  induction entries generalizing index spdxIds all with
  | nil =>
    obtain rfl := Except.ok.inj h
    rfl
  | cons entry entries ih =>
    rw [inspectPackages] at h
    split at h
    · rename_i hnode
      rw [List.filter_cons_of_neg (by simpa using hnode)]
      exact ih h
    · rename_i hnode
      obtain ⟨_, -, h⟩ := Except.bind_eq_ok.mp h
      obtain ⟨_, -, h⟩ := Except.bind_eq_ok.mp h
      obtain ⟨_, -, h⟩ := Except.bind_eq_ok.mp h
      obtain ⟨rest, hrest, h⟩ := Except.bind_eq_ok.mp h
      obtain rfl := Except.ok.inj h
      rw [List.filter_cons_of_pos (by simpa using hnode), List.map_cons, ih hrest]

theorem readPackage_ok (hpayload : CheckedPayload manifest) {entry : JsValue} {identity : JsString}
    (h : readPackage host artifact manifest entry = .ok identity) :
    (fileValue host artifact (text entry "path")).map (fun value =>
      packageIdentity value "version") = some identity := by
  obtain ⟨bytes, hbytes, h⟩ := Except.bind_eq_ok.mp h
  obtain ⟨value, hvalue, h⟩ := Except.bind_eq_ok.mp h
  obtain ⟨_, -, h⟩ := Except.bind_eq_ok.mp h
  obtain rfl := Except.ok.inj h
  rw [parseBytes_ok (readBoundPayloadBytes_ok hpayload hbytes) hvalue]
  rfl

theorem readPackages_ok (hpayload : CheckedPayload manifest) {entries : List JsValue}
    {identities : List JsString}
    (h : entries.mapM (readPackage host artifact manifest) = .ok identities) :
    entries.map (fun entry => (fileValue host artifact (text entry "path")).map fun value =>
      packageIdentity value "version") = identities.map some := by
  induction Except.mapM_eq_ok.mp h with
  | nil => rfl
  | cons hread _ ih =>
    rw [List.map_cons, List.map_cons, readPackage_ok hpayload hread,
      ih (Except.mapM_eq_ok.mpr ‹_›)]

theorem verifySbomSemantics_ok (hpayload : CheckedPayload manifest)
    (h : verifySbomSemantics host artifact manifest = .ok ()) :
    ∃ sbom, fileValue host artifact (js "metadata/sbom.spdx.json") = some sbom ∧
      (((items (field sbom "packages")).filter fun entry => !isNodePackage entry).map fun entry =>
          some (packageIdentity entry "versionInfo")).Perm
        ((packageFiles manifest).map fun entry =>
          (fileValue host artifact (text entry "path")).map fun value =>
            packageIdentity value "version") := by
  obtain ⟨_, -, h⟩ := Except.bind_eq_ok.mp h
  obtain ⟨sbom, hread, h⟩ := Except.bind_eq_ok.mp h
  obtain ⟨_, -, h⟩ := Except.bind_eq_ok.mp h
  refine ⟨sbom, readBoundCanonicalJson_ok hpayload hread, ?_⟩
  dsimp only at h
  split at h
  · obtain ⟨_, -, h⟩ := Except.bind_eq_ok.mp h
    obtain ⟨expected, hexpected, h⟩ := Except.bind_eq_ok.mp h
    obtain ⟨actual, hactual, h⟩ := Except.bind_eq_ok.mp h
    have hperm := (sort_eq_iff.mp (require_eq_ok.mp h)).map some
    rw [inspectPackages_ok hactual, List.map_map] at hperm
    rw [readPackages_ok hpayload hexpected]
    exact hperm
  · cases h

theorem checksumRecord_eq_some {line : JsString} {record : JsString × JsString}
    (h : checksumRecord line = some record) : line ++ [10] = checksumLine record := by
  simp only [checksumRecord] at h
  split at h
  · rename_i hformat
    obtain rfl := Option.some.inj h
    simp only [Bool.and_eq_true, beq_iff_eq] at hformat
    have hspaces := hformat.1.1.2
    calc line ++ [10] = line.take 64 ++ ((line.drop 64).take 2 ++ (line.drop 64).drop 2) ++ [10] := by
          rw [List.take_append_drop, List.take_append_drop]
      _ = checksumLine (line.take 64, line.drop 66) := by
          rw [hspaces, List.drop_drop, checksumLine, List.append_assoc, List.append_assoc,
            List.append_assoc, List.append_assoc]
  · cases h

theorem inspectRecords_ok {lines : List JsString} {records all : List (JsString × JsString)}
    (hnodup : (records.map Prod.snd).Nodup) (h : inspectRecords host records lines = .ok all) :
    (all.map Prod.snd).Nodup ∧
      ∃ new, all = records ++ new ∧ lines.map (· ++ [10]) = new.map checksumLine := by
  induction lines generalizing records with
  | nil =>
    obtain rfl := Except.ok.inj h
    exact ⟨hnodup, [], (List.append_nil _).symm, rfl⟩
  | cons line lines ih =>
    rw [inspectRecords] at h
    split at h
    · cases h
    · rename_i digest path hrecord
      obtain ⟨_, -, h⟩ := Except.bind_eq_ok.mp h
      obtain ⟨_, hnew, h⟩ := Except.bind_eq_ok.mp h
      obtain ⟨hnodup, new, rfl, hlines⟩ := ih
        (by simpa using nodup_snoc hnodup (require_eq_ok.mp hnew).2) h
      exact ⟨hnodup, (digest, path) :: new, List.append_assoc .., by
        rw [List.map_cons, List.map_cons, hlines, checksumRecord_eq_some hrecord]⟩

theorem coversPayload_ok {records : List (JsString × JsString)}
    (hnodup : (records.map Prod.snd).Nodup)
    (hsha : ∀ entry ∈ payloadOf manifest, field entry "sha256" = .string (text entry "sha256"))
    (h : coversPayload manifest records) :
    records = (otherPayload manifest).map fun entry =>
      (text entry "sha256", text entry "path") := by
  obtain ⟨hlength, hcovers⟩ := h
  refine List.ext_getElem (by rwa [List.length_map]) fun i hi hi' => ?_
  rw [List.length_map] at hi'
  have hentry : ((otherPayload manifest)[i], i) ∈ (otherPayload manifest).zipIdx :=
    List.mem_zipIdx_iff_getElem?.mpr (List.getElem?_eq_getElem hi')
  obtain ⟨hfound, hplace⟩ := hcovers _ hentry
  obtain ⟨record, hfind, hsame⟩ := (Option.any_eq_true _ _).mp hfound
  have hpath : record.2 = text (otherPayload manifest)[i] "path" := by
    simpa using List.find?_some hfind
  have hstands : records[i].2 = text (otherPayload manifest)[i] "path" := by
    simpa [hi] using hplace
  obtain rfl : record = records[i] := List.inj_on_of_nodup_map hnodup
    (List.mem_of_find?_eq_some hfind) (List.getElem_mem hi) (hpath.trans hstands.symm)
  rw [hsha _ (List.mem_filter.mp (List.getElem_mem hi')).1, strictlyEqual_string_right] at hsame
  rw [List.getElem_map, ← hstands, ← JsValue.string.inj hsame]

theorem lines_flatMap {contents : JsString} (h : contents.getLast? = some 10) :
    contents = (contents.dropLast.splitOn 10).flatMap (· ++ [10]) := by
  have hterminated (lines : List JsString) (hne : lines ≠ []) :
      [10].intercalate lines ++ [10] = lines.flatMap (· ++ [10]) := by
    induction lines with
    | nil => exact absurd rfl hne
    | cons line lines ih =>
      cases lines with
      | nil => simp
      | cons next lines => simp [← ih (by simp)]
  rw [← hterminated _ (List.splitOn_ne_nil _ _), List.intercalate_splitOn]
  exact (List.dropLast_append_getLast? 10 h).symm

theorem verifyChecksumSemantics_ok (hpayload : CheckedPayload manifest)
    (hsha : ∀ entry ∈ payloadOf manifest, field entry "sha256" = .string (text entry "sha256"))
    (h : verifyChecksumSemantics host artifact manifest = .ok ()) :
    (fileBytes artifact checksumPath).bind decodeText =
      some ((otherPayload manifest).flatMap fun entry =>
        checksumLine (text entry "sha256", text entry "path")) := by
  obtain ⟨bytes, hbytes, h⟩ := Except.bind_eq_ok.mp h
  rw [readBoundPayloadBytes_ok hpayload hbytes, Option.bind_some]
  split at h
  · cases h
  · rename_i contents hdecode
    obtain ⟨_, hlines, h⟩ := Except.bind_eq_ok.mp h
    obtain ⟨records, hrecords, h⟩ := Except.bind_eq_ok.mp h
    obtain ⟨hnodup, new, hall, hnew⟩ := inspectRecords_ok (by simp) hrecords
    obtain rfl := hall.trans (List.nil_append new)
    rw [hdecode, lines_flatMap (require_eq_ok.mp hlines).1, List.flatMap_def, hnew,
      coversPayload_ok hnodup hsha (require_eq_ok.mp h), List.map_map, List.flatMap_def]
    rfl

end Documents

section Soundness

variable {host : ReleaseHost} {artifact : Artifact} {manifest : JsValue}

theorem readManifest_ok {path : JsString} (hsafe : SafePath path) {file : List JsString}
    {bytes : Bytes} (hfile : resolvePayloadFile artifact path = .ok file)
    (h : readManifest host artifact file path = .ok (manifest, bytes)) :
    ∃ bytes, fileBytes artifact path = some bytes ∧
      Json.parse host.numberValue (host.decodeLossy bytes) = some manifest := by
  obtain ⟨bytes, hread, h⟩ := Except.bind_eq_ok.mp h
  refine ⟨bytes, fileBytes_of_read hsafe hfile hread, ?_⟩
  split at h
  · cases h
  · rename_i hparse
    obtain ⟨_, -, h⟩ := Except.bind_eq_ok.mp h
    obtain ⟨rfl, -⟩ := Prod.mk.inj (Except.ok.inj h)
    exact hparse

theorem files_iff {files paths : List JsString} (h : listArtifactFiles host artifact = .ok files)
    (hperm : files.Perm paths) (names : List JsString) :
    (∃ bytes, artifact.root.lookup names = .ok (.file bytes)) ↔
      ∃ path ∈ paths, names = segments path := by
  constructor
  · rintro ⟨bytes, hlookup⟩
    have hne : names ≠ [] := by
      rintro rfl
      exact (listArtifactFiles_ok h).2 bytes (Except.ok.inj hlookup)
    have hsplit := segments_intercalate (lookup_names artifact.named hlookup) hne
    exact ⟨[47].intercalate names,
      hperm.mem_iff.mp ((mem_listArtifactFiles h _).mpr ⟨bytes, by rwa [hsplit]⟩), hsplit.symm⟩
  · rintro ⟨path, hpath, rfl⟩
    exact (mem_listArtifactFiles h path).mp (hperm.mem_iff.mpr hpath)

end Soundness

section Sample

def hexText (length n : ℕ) : JsString :=
  (List.range length).map fun i =>
    let digit := n / 16 ^ (length - 1 - i) % 16
    Fin.ofNat 65536 (if digit < 10 then 48 + digit else 87 + digit)

def ofText (s : String) : JsValue := .string (js s)

def ofMembers (members : List (String × JsValue)) : JsValue :=
  .record (members.map fun m => (js m.1, m.2))

def ofItems (values : List JsValue) : JsValue := .array (values.map fun v => (.data, v)) []

noncomputable def sampleBytes (value : JsValue) (trailingLf : Bool) : Bytes :=
  ((canonicalJsonBytes sampleRuntime.toHost value trailingLf).toOption).getD []

def sampleArchiveUrl : JsValue := ofText "https://nodejs.org/dist/v24.1.0/node.zip"

def sampleArchiveSha256 : JsValue := .string (List.replicate 64 97)

def sampleCommit : JsString := hexText 40 0x0123456789abcdef0123456789abcdef01234567

def sampleBuiltAt : JsValue := ofText "2026-01-01T00:00:00Z"

def samplePackage (id name version : String) (download : JsValue)
    (checksums : List (String × JsValue)) : JsValue :=
  ofMembers ([("SPDXID", ofText id), ("name", ofText name), ("versionInfo", ofText version),
    ("downloadLocation", download), ("filesAnalyzed", .bool false),
    ("licenseConcluded", ofText "NOASSERTION"), ("licenseDeclared", ofText "NOASSERTION")] ++
    checksums)

def sampleSbom : JsValue :=
  ofMembers [("spdxVersion", ofText "SPDX-2.3"), ("dataLicense", ofText "CC0-1.0"),
    ("SPDXID", ofText "SPDXRef-DOCUMENT"),
    ("name", ofText "ASEOS-1.0.0-windows-x64-qualification"),
    ("documentNamespace",
      .string (js "https://aseos.invalid/spdx/" ++ sampleCommit ++ js "/build-1")),
    ("creationInfo", ofMembers [("created", sampleBuiltAt),
      ("creators", ofItems [ofText "Tool: ASEOS deterministic release assembler"])]),
    ("packages", ofItems [
      samplePackage "SPDXRef-Package-Node" "node" "24.1.0" sampleArchiveUrl [("checksums",
        ofItems [ofMembers [("algorithm", ofText "SHA256"),
          ("checksumValue", sampleArchiveSha256)]])],
      samplePackage "SPDXRef-Package-1" "aseos" "1.0.0" (ofText "NOASSERTION") []])]

def samplePackageJson : JsValue :=
  ofMembers [("name", ofText "aseos"), ("version", ofText "1.0.0")]

def packageJsonSha256 : JsString :=
  hexText 64 0x5bc129c458b1e2f5126a34e2095d70ab94d6b90b3c9a05aa76f8d21fee15af3e

def nodeSha256 : JsString :=
  hexText 64 0x9b8db510ef42b8ed54a3712636fda55a4f8cfcd5493e20b74ab00cd4f3979f2d

def provenanceSha256 : JsString :=
  hexText 64 0x0ad9576f463e0d71c84369adabf735479259b10140d2da9737180adc8b503f37

def sbomSha256 : JsString :=
  hexText 64 0xefb1ae972ab92fb9f9235e21220e801700186a66bd8fcf45454aa7a147658d0e

def checksumsSha256 : JsString :=
  hexText 64 0x5bdcb44a4e478b5e34e1be3fdf91ce802daeae08790fb5c036ca41b3872400f1

def sampleProvenance : JsValue :=
  let subject (name : String) (digest : JsString) :=
    ofMembers [("name", ofText name), ("digest", ofMembers [("sha256", .string digest)])]
  ofMembers [("_type", ofText "https://in-toto.io/Statement/v1"),
    ("predicateType", ofText "https://slsa.dev/provenance/v1"),
    ("subject", ofItems [subject "app/package.json" packageJsonSha256,
      subject "bin/node.exe" nodeSha256]),
    ("predicate", ofMembers [
      ("buildDefinition", ofMembers [
        ("buildType", ofText "https://aseos.invalid/build-types/windows-x64-qualification/v1"),
        ("externalParameters", ofMembers [("frameworkVersion", ofText "1.0.0"),
          ("gitCommit", .string sampleCommit), ("runtimeArchiveSha256", sampleArchiveSha256)]),
        ("internalParameters", ofMembers [("productionApproved", .bool false)]),
        ("resolvedDependencies", ofItems [
          ofMembers [("uri", .string
            (js "git+https://github.com/olu37776-bit/-ai-software-engineering-os@" ++
              sampleCommit))],
          ofMembers [("uri", sampleArchiveUrl),
            ("digest", ofMembers [("sha256", sampleArchiveSha256)])]])]),
      ("runDetails", ofMembers [
        ("builder", ofMembers [("id", ofText
          "https://aseos.invalid/builders/deterministic-release-assembler/v1")]),
        ("metadata", ofMembers [("invocationId", ofText "build-1"),
          ("startedOn", sampleBuiltAt), ("finishedOn", sampleBuiltAt)])])])]

def sampleChecksums : JsString :=
  checksumLine (packageJsonSha256, js "app/package.json") ++
    checksumLine (nodeSha256, js "bin/node.exe") ++
    checksumLine (provenanceSha256, js "metadata/provenance.json") ++
    checksumLine (sbomSha256, js "metadata/sbom.spdx.json")

def sampleEntry (path : String) (digest : JsString) (size : Double) : JsValue :=
  ofMembers [("path", ofText path), ("sha256", .string digest), ("sizeBytes", .number (.finite size))]

def sampleManifest : JsValue :=
  let bound (path : String) (digest : JsString) :=
    ofMembers [("path", ofText path), ("sha256", .string digest)]
  ofMembers [("$schema", ofText "urn:aseos:release-schema:release-manifest:1.0.0"),
    ("schemaVersion", ofText "1.0.0"), ("frameworkVersion", ofText "1.0.0"),
    ("gitCommit", .string sampleCommit), ("buildId", ofText "build-1"), ("builtAt", sampleBuiltAt),
    ("artifact", ofMembers [("kind", ofText "NON_PRODUCTION_QUALIFICATION"),
      ("productionApproved", .bool false)]),
    ("platform", ofMembers [("id", ofText "windows-x64"), ("os", ofText "windows"),
      ("arch", ofText "x64")]),
    ("toolchain", ofMembers [("node", ofText "24.1.0"), ("pnpm", ofText "10.0.0"),
      ("typescript", ofText "5.8.0")]),
    ("runtime", ofMembers [("distribution", ofText "node"), ("version", ofText "24.1.0"),
      ("platform", ofText "win-x64"), ("archiveUrl", sampleArchiveUrl),
      ("archiveSha256", sampleArchiveSha256), ("executable", ofText "bin/node.exe")]),
    ("contracts", ofMembers []), ("configSchemaVersion", ofText "1.0.0"),
    ("stateSchemaVersion", ofText "1.0.0"), ("supportedUpgradeSources", ofItems []),
    ("sbom", bound "metadata/sbom.spdx.json" sbomSha256),
    ("provenance", bound "metadata/provenance.json" provenanceSha256),
    ("payload", ofItems [
      sampleEntry "app/package.json" packageJsonSha256 (Double.ofInt 34 (by decide)),
      sampleEntry "bin/node.exe" nodeSha256 (Double.ofInt 2 (by decide)),
      sampleEntry "metadata/checksums.sha256" checksumsSha256 (Double.ofInt 343 (by decide)),
      sampleEntry "metadata/provenance.json" provenanceSha256 (Double.ofInt 1174 (by decide)),
      sampleEntry "metadata/sbom.spdx.json" sbomSha256 (Double.ofInt 874 (by decide))])]

-- The SHA-256 of the files of the sample, which have different sizes.
def sampleSha256 (bytes : Bytes) : HexDigest :=
  match bytes.length with
  | 2 => ⟨nodeSha256, by decide⟩
  | 34 => ⟨packageJsonSha256, by decide⟩
  | 343 => ⟨checksumsSha256, by decide⟩
  | 1174 => ⟨provenanceSha256, by decide⟩
  | 874 => ⟨sbomSha256, by decide⟩
  | _ => ⟨hexText 64 0x3c68763e112ff3e120dc93ebd5bb668d2ddcb4e7884db69b1d639b7c1f7f9890,
      by decide⟩

noncomputable def sampleReleaseHost : ReleaseHost where
  toJsonRuntime := sampleRuntime
  normalizeNfc := id
  parsesAsDate _ := true
  sha256Bytes := sampleSha256
  decodeLossy bytes := (decodeText bytes).getD []

noncomputable def sampleArtifact : Artifact where
  root := .directory [
    (js "app", .directory [(js "package.json", .file (sampleBytes samplePackageJson false))]),
    (js "bin", .directory [(js "node.exe", .file (js "MZ").utf8)]),
    (js "metadata", .directory [
      (js "checksums.sha256", .file sampleChecksums.utf8),
      (js "provenance.json", .file (sampleBytes sampleProvenance true)),
      (js "sbom.spdx.json", .file (sampleBytes sampleSbom true))]),
    (js "release-manifest.json", .file (sampleBytes sampleManifest true))]
  denied _ := false
  named := by
    refine .directory (by decide) (by decide) ?_
    simp only [List.forall_mem_cons]
    refine ⟨.directory (by decide) (by decide) ?_,
      .directory (by decide) (by decide) ?_,
      .directory (by decide) (by decide) ?_, .file _, nofun⟩
    all_goals
      simp only [List.forall_mem_cons]
      simp [Named.file]

def sampleRepository : RepositoryFiles where
  packageManifest := some (ofMembers [("version", ofText "1.0.0")])
  toolchain := some (ofMembers [("authority", ofMembers [("node", ofText "24.1.0"),
    ("pnpm", ofText "10.0.0"), ("typescript", ofText "5.8.0")])])
  runtimeLock := some (ofMembers [("runtime", ofMembers [("distribution", ofText "node"),
    ("version", ofText "24.1.0"), ("platform", ofText "win-x64"),
    ("archiveUrl", sampleArchiveUrl), ("sha256", sampleArchiveSha256)])])

def sampleVerifyOptions : VerifyOptions where
  artifactRoot := ofText "release"
  manifestPath := .undefined
  expectedVersion := .undefined
  expectedGitCommit := .string sampleCommit

theorem exists_ok_of_toBool {ε α : Type} {x : Except ε α} (h : x.toBool = true) :
    ∃ a, x = .ok a := by
  cases x with
  | ok a => exact ⟨a, rfl⟩
  | error e => cases h

theorem sampleManifest_read :
    readManifest sampleReleaseHost sampleArtifact [js "release-manifest.json"]
      (js "release-manifest.json") = .ok (sampleManifest.readBack, sampleBytes sampleManifest true) := by
  obtain ⟨text, htext⟩ : ∃ text, Aseos.canonicalJson sampleRuntime.toHost sampleManifest =
      .ok text := exists_ok_of_toBool (by decide)
  have hbytes : sampleBytes sampleManifest true = (text ++ [10]).utf8 := by
    rw [sampleBytes, canonicalJsonBytes_agrees htext]
    rfl
  have hread : readFile sampleArtifact [js "release-manifest.json"] =
      .ok (sampleBytes sampleManifest true) := by
    simp [readFile, sampleArtifact, Node.lookup, Node.child]
    decide +kernel
  have hdecode : sampleReleaseHost.decodeLossy (sampleBytes sampleManifest true) = text ++ [10] := by
    rw [hbytes]
    exact congrArg (Option.getD · []) (decodeText_line htext)
  have hcanonical : (canonicalJsonBytes sampleRuntime.toHost sampleManifest.readBack).toOption =
      some (sampleBytes sampleManifest true) := by
    decide +kernel
  rw [readManifest, hread, Except.ok_bind, hdecode]
  rw [show Json.parse sampleReleaseHost.numberValue (text ++ [10]) = _ from parse_line htext]
  exact Except.bind_eq_ok.mpr ⟨(), require_eq_ok.mpr hcanonical, rfl⟩

theorem sampleRelease_passes :
    ∃ report, verifyReleaseManifest sampleReleaseHost sampleArtifact sampleRepository
      sampleVerifyOptions = .ok report := by
  have hroot : assertArtifactRoot sampleVerifyOptions.artifactRoot = .ok () := rfl
  have hpath : assertReleasePath sampleReleaseHost
      (defaultManifestPath sampleVerifyOptions.manifestPath) (js "manifestPath") =
        .ok (js "release-manifest.json") := by decide
  have hfile : resolvePayloadFile sampleArtifact (js "release-manifest.json") =
      .ok [js "release-manifest.json"] := by decide
  rw [verifyReleaseManifest, hroot, Except.ok_bind, hpath, Except.ok_bind, hfile, Except.ok_bind,
    sampleManifest_read, Except.ok_bind]
  exact exists_ok_of_toBool (by decide +kernel)

end Sample

end Aseos.Release
