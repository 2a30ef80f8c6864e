import Aseos.Library.Outcome
import Aseos.Library.Postcondition
import Aseos.Release.ZipArchive

namespace Aseos.Release.Zip

open Utf8 (Byte)
open ScopePolicy (startsWithDrive)

section Format

variable (zip : List Byte)

def fieldAt (offset width : ℕ) : ℕ := littleEndian (subarray zip offset (offset + width))

def recordAt (offset : ℕ) : ZipEntry where
  name := entryName (subarray zip (offset + 46) (offset + 46 + fieldAt zip (offset + 28) 2))
  method := fieldAt zip (offset + 10) 2
  expectedCrc32 := fieldAt zip (offset + 16) 4
  compressedSize := fieldAt zip (offset + 20) 4
  uncompressedSize := fieldAt zip (offset + 24) 4
  localOffset := fieldAt zip (offset + 42) 4

def recordEnd (offset : ℕ) : ℕ :=
  offset + 46 + fieldAt zip (offset + 28) 2 + fieldAt zip (offset + 30) 2 +
    fieldAt zip (offset + 32) 2

structure CentralRecord (offset : ℕ) : Prop where
  signature : fieldAt zip offset 4 = 0x02014b50
  inside : offset + 46 + fieldAt zip (offset + 28) 2 ≤ zip.length

inductive Tiles : ℕ → List ZipEntry → ℕ → Prop
  | nil {finish} : Tiles finish [] finish
  | cons {start entries finish} : CentralRecord zip start →
      Tiles (recordEnd zip start) entries finish → Tiles start (recordAt zip start :: entries) finish

structure EndRecord (eocd : ℕ) : Prop where
  inside : eocd + 22 ≤ zip.length
  signature : fieldAt zip eocd 4 = 0x06054b50
  last : ∀ later, eocd < later → later + 22 ≤ zip.length → fieldAt zip later 4 ≠ 0x06054b50

def directoryStart (eocd : ℕ) : ℕ := fieldAt zip (eocd + 16) 4

def directoryEnd (eocd : ℕ) : ℕ := fieldAt zip (eocd + 16) 4 + fieldAt zip (eocd + 12) 4

structure IsArchive (entries : List ZipEntry) : Prop where
  declared : ∃ eocd, EndRecord zip eocd ∧ entries.length = fieldAt zip (eocd + 10) 2 ∧
    Tiles zip (directoryStart zip eocd) entries (directoryEnd zip eocd) ∧
    directoryEnd zip eocd ≤ eocd

end Format

section Uniqueness

variable {zip : List Byte}

theorem EndRecord.unique {eocd eocd' : ℕ} (h : EndRecord zip eocd) (h' : EndRecord zip eocd') :
    eocd = eocd' := by
  rcases Nat.lt_trichotomy eocd eocd' with hlt | heq | hgt
  · exact absurd h'.signature (h.last eocd' hlt h'.inside)
  · exact heq
  · exact absurd h.signature (h'.last eocd hgt h.inside)

theorem Tiles.unique {start finish finish' : ℕ} {entries entries' : List ZipEntry}
    (h : Tiles zip start entries finish) (h' : Tiles zip start entries' finish')
    (hlength : entries.length = entries'.length) : entries = entries' := by
  induction h generalizing entries' with
  | nil => exact (List.length_eq_zero_iff.mp hlength.symm).symm
  | cons _ _ ih =>
    cases h' with
    | nil => cases hlength
    | cons _ hrest => rw [ih hrest (Nat.succ.inj hlength)]

theorem IsArchive.unique {entries entries' : List ZipEntry} (h : IsArchive zip entries)
    (h' : IsArchive zip entries') : entries = entries' := by
  obtain ⟨eocd, hend, hcount, htiles, -⟩ := h.declared
  obtain ⟨eocd', hend', hcount', htiles', -⟩ := h'.declared
  obtain rfl := hend.unique hend'
  exact htiles.unique htiles' (hcount.trans hcount'.symm)

theorem Tiles.snoc {start next : ℕ} {entries : List ZipEntry} (h : Tiles zip start entries next)
    (hrecord : CentralRecord zip next) :
    Tiles zip start (entries ++ [recordAt zip next]) (recordEnd zip next) := by
  induction h with
  | nil => exact .cons hrecord .nil
  | cons hfirst _ ih => exact .cons hfirst (ih hrecord)

end Uniqueness

section Reads

variable {zip : List Byte}

def Reported (e : ArchiveError) : Prop := e ≠ .outOfRange

theorem fail_meets {α : Type} {code : String} {detail : JsString} {Q : α → Prop} :
    Meets Reported (fail code detail) Q :=
  .error ArchiveError.noConfusion

theorem failWhen_meets {p : Prop} [Decidable p] {code : String} {detail : JsString} :
    Meets Reported (failWhen p code detail) fun _ => ¬ p :=
  Meets.ite (fun _ => fail_meets) fun hp => .ok hp

theorem readUIntLE_meets {offset width : ℕ} (h : offset + width ≤ zip.length) :
    Meets Reported (readUIntLE zip offset width) (· = fieldAt zip offset width) := by
  rw [readUIntLE, if_pos h]
  exact .ok rfl

theorem searchEnd_meets {minimum candidates : ℕ}
    (hinside : minimum + candidates + 21 ≤ zip.length)
    (hlater : ∀ later, minimum + candidates ≤ later → later + 22 ≤ zip.length →
      fieldAt zip later 4 ≠ 0x06054b50) :
    Meets Reported (searchEnd zip minimum candidates) (EndRecord zip) := by
  induction candidates with
  | zero => exact fail_meets
  | succ candidates ih =>
    refine Meets.bind (readUIntLE_meets (by omega)) fun signature hsignature => ?_
    subst hsignature
    refine Meets.ite (fun hfound => ?_) fun hmissing => ?_
    · refine .ok ⟨by omega, hfound, fun later hlt hlater' => ?_⟩
      exact hlater later (by omega) hlater'
    · refine ih (by omega) fun later hle hlater' => ?_
      rcases Nat.eq_or_lt_of_le hle with rfl | hlt
      · exact hmissing
      · exact hlater later (by omega) hlater'

theorem findEndOfCentralDirectory_meets :
    Meets Reported (findEndOfCentralDirectory zip) (EndRecord zip) := by
  have hminimum : zip.length - 65557 ≤ zip.length - 22 := by omega
  rw [findEndOfCentralDirectory]
  generalize zip.length - 65557 = minimum at hminimum ⊢
  by_cases hshort : zip.length < 22
  · have hnone : zip.length + 1 - 22 - minimum = 0 := by omega
    rw [hnone]
    exact fail_meets
  · refine searchEnd_meets (by omega) fun later hle hlater => ?_
    omega

structure Added (zip : List Byte) (entries : List ZipEntry) (offset : ℕ) (read : ZipEntry × ℕ) : Prop where
  record : CentralRecord zip offset
  entry : read.1 = recordAt zip offset
  next : read.2 = recordEnd zip offset
  fresh : read.1.name ∉ entries.map ZipEntry.name
  named : unsafeName read.1.name = true → js "/" <:+ read.1.name

theorem readCentralEntry_meets {entries : List ZipEntry} {index offset : ℕ} :
    Meets Reported (readCentralEntry zip entries index offset) (Added zip entries offset) := by
  refine Meets.bind failWhen_meets fun _ hfixed => ?_
  refine Meets.bind (readUIntLE_meets (by omega)) fun signature hsignature => ?_
  refine Meets.bind failWhen_meets fun _ hcentral => ?_
  refine Meets.bind (readUIntLE_meets (by omega)) fun flags _ => ?_
  refine Meets.bind (readUIntLE_meets (by omega)) fun method hmethod => ?_
  refine Meets.bind (readUIntLE_meets (by omega)) fun expectedCrc32 hcrc => ?_
  refine Meets.bind (readUIntLE_meets (by omega)) fun compressedSize hcompressed => ?_
  refine Meets.bind (readUIntLE_meets (by omega)) fun uncompressedSize huncompressed => ?_
  refine Meets.bind (readUIntLE_meets (by omega)) fun nameLength hname => ?_
  refine Meets.bind (readUIntLE_meets (by omega)) fun extraLength hextra => ?_
  refine Meets.bind (readUIntLE_meets (by omega)) fun commentLength hcomment => ?_
  refine Meets.bind (readUIntLE_meets (by omega)) fun localOffset hlocal => ?_
  refine Meets.bind failWhen_meets fun _ hinside => ?_
  refine Meets.bind failWhen_meets fun _ hsafe => ?_
  refine Meets.bind failWhen_meets fun _ _ => ?_
  refine Meets.bind failWhen_meets fun _ _ => ?_
  refine Meets.bind failWhen_meets fun _ hfresh => ?_
  subst hsignature hmethod hcrc hcompressed huncompressed hname hextra hcomment hlocal
  refine Meets.ok ⟨⟨not_not.mp hcentral, Nat.not_lt.mp hinside⟩, rfl, rfl, hfresh, fun hrefused => ?_⟩
  by_contra hends
  exact hsafe ⟨hrefused, fun h => hends (List.isSuffixOf_iff_suffix.mp h)⟩

structure Collected (zip : List Byte) (start : ℕ) (read : List ZipEntry × ℕ) : Prop where
  tiles : Tiles zip start read.1 read.2
  distinct : (read.1.map ZipEntry.name).Nodup
  named : ∀ entry ∈ read.1, unsafeName entry.name = true → js "/" <:+ entry.name

theorem Collected.add {start offset : ℕ} {entries : List ZipEntry} {read : ZipEntry × ℕ}
    (h : Collected zip start (entries, offset))
    (hadded : Added zip entries offset read) :
    Collected zip start (entries ++ [read.1], read.2) := by
  refine ⟨?_, ?_, ?_⟩
  · rw [hadded.entry, hadded.next]
    exact h.tiles.snoc hadded.record
  · rw [List.map_append]
    refine List.nodup_append.mpr ⟨h.distinct, List.nodup_singleton _, ?_⟩
    rintro name hname _ hlast rfl
    exact hadded.fresh (List.mem_singleton.mp hlast ▸ hname)
  · intro entry hentry
    rcases List.mem_append.mp hentry with hold | hnew
    · exact h.named entry hold
    · rw [List.mem_singleton.mp hnew]
      exact hadded.named

theorem readCentralEntries_meets {start : ℕ} (remaining : ℕ) {index offset : ℕ}
    {entries : List ZipEntry} (h : Collected zip start (entries, offset)) :
    Meets Reported (readCentralEntries zip index offset entries remaining) fun read =>
      Collected zip start read ∧ read.1.length = entries.length + remaining := by
  induction remaining generalizing index offset entries with
  | zero => exact .ok ⟨h, rfl⟩
  | succ remaining ih =>
    refine Meets.bind readCentralEntry_meets fun read hadded => ?_
    refine (ih (h.add hadded)).mono fun result hresult => ⟨hresult.1, ?_⟩
    rw [hresult.2, List.length_append, List.length_singleton]
    omega

theorem readZipEntries_meets :
    Meets Reported (readZipEntries zip) fun entries =>
      IsArchive zip entries ∧ (entries.map ZipEntry.name).Nodup ∧
        ∀ entry ∈ entries, unsafeName entry.name = true → js "/" <:+ entry.name := by
  refine Meets.bind findEndOfCentralDirectory_meets fun eocd heocd => ?_
  have hinside := heocd.inside
  refine Meets.bind (readUIntLE_meets (by omega)) fun disk _ => ?_
  refine Meets.bind (readUIntLE_meets (by omega)) fun centralDisk _ => ?_
  refine Meets.bind (readUIntLE_meets (by omega)) fun entriesOnDisk _ => ?_
  refine Meets.bind (readUIntLE_meets (by omega)) fun entryCount hcount => ?_
  refine Meets.bind (readUIntLE_meets (by omega)) fun centralSize hsize => ?_
  refine Meets.bind (readUIntLE_meets (by omega)) fun centralOffset hoffset => ?_
  refine Meets.bind failWhen_meets fun _ _ => ?_
  refine Meets.bind failWhen_meets fun _ _ => ?_
  refine Meets.bind failWhen_meets fun _ hwithin => ?_
  have hstart : Collected zip centralOffset ([], centralOffset) :=
    ⟨.nil, List.nodup_nil, fun _ h => absurd h List.not_mem_nil⟩
  refine Meets.bind (readCentralEntries_meets entryCount hstart) fun read hread => ?_
  refine Meets.bind failWhen_meets fun _ hend => ?_
  obtain ⟨hcollected, hlength⟩ := hread
  subst hcount hsize hoffset
  refine Meets.ok ⟨⟨eocd, heocd, ?_, ?_, Nat.not_lt.mp hwithin⟩, hcollected.distinct,
    hcollected.named⟩
  · rw [hlength, List.length_nil, Nat.zero_add]
  · have htiles := hcollected.tiles
    rwa [not_not.mp hend] at htiles

theorem entryContent_meets (inflateRaw : List Byte → Option (List Byte)) (method : ℕ)
    (compressed : List Byte) :
    Meets Reported (entryContent inflateRaw method compressed) fun _ => True := by
  refine Meets.ite (fun _ => .ok trivial) fun _ => ?_
  cases inflateRaw compressed with
  | some content => exact .ok trivial
  | none => exact .error ArchiveError.noConfusion

theorem extractZipEntry_meets (inflateRaw : List Byte → Option (List Byte)) (entry : ZipEntry) :
    Meets Reported (extractZipEntry zip inflateRaw entry) fun content =>
      content.length = entry.uncompressedSize ∧ crc32 content = entry.expectedCrc32 ∧
        entry.localOffset + 30 + fieldAt zip (entry.localOffset + 26) 2 +
          fieldAt zip (entry.localOffset + 28) 2 + entry.compressedSize ≤ zip.length := by
  refine Meets.bind failWhen_meets fun _ hfixed => ?_
  refine Meets.bind (readUIntLE_meets (by omega)) fun signature _ => ?_
  refine Meets.bind failWhen_meets fun _ _ => ?_
  refine Meets.bind (readUIntLE_meets (by omega)) fun nameLength hname => ?_
  refine Meets.bind (readUIntLE_meets (by omega)) fun extraLength hextra => ?_
  refine Meets.bind failWhen_meets fun _ hinside => ?_
  refine Meets.bind (entryContent_meets inflateRaw _ _) fun content _ => ?_
  refine Meets.bind failWhen_meets fun _ hsize => ?_
  refine Meets.bind failWhen_meets fun _ hcrc => ?_
  subst hname hextra
  exact Meets.ok ⟨not_not.mp hsize, not_not.mp hcrc, Nat.not_lt.mp hinside⟩

end Reads

section Totality

theorem zip_reader_total (zip : List Byte) (inflateRaw : List Byte → Option (List Byte)) :
    readZipEntries zip ≠ .error .outOfRange ∧
      ∀ entries, readZipEntries zip = .ok entries →
        IsArchive zip entries ∧ (entries.map ZipEntry.name).Nodup ∧
          ∀ entry ∈ entries, extractZipEntry zip inflateRaw entry ≠ .error .outOfRange ∧
            ∀ content, extractZipEntry zip inflateRaw entry = .ok content →
              content.length = entry.uncompressedSize ∧ crc32 content = entry.expectedCrc32 := by
  have hentries := @readZipEntries_meets zip
  refine ⟨hentries.ne_error (not_not.mpr rfl), fun entries hread => ?_⟩
  obtain ⟨harchive, hdistinct, -⟩ := hentries.of_ok entries hread
  refine ⟨harchive, hdistinct, fun entry _ => ?_⟩
  have hextract := @extractZipEntry_meets zip inflateRaw entry
  refine ⟨hextract.ne_error (not_not.mpr rfl), fun content hcontent => ?_⟩
  obtain ⟨hsize, hcrc, -⟩ := hextract.of_ok content hcontent
  exact ⟨hsize, hcrc⟩

-- The fields that the reader looks at; the others are zero.
def localRecord (name content : List Byte) : List Byte :=
  [80, 75, 3, 4] ++ List.replicate 22 0 ++ [Utf8.byte name.length, 0, 0, 0] ++ name ++ content

def centralRecord (name content crc : List Byte) (localOffset : ℕ) : List Byte :=
  [80, 75, 1, 2] ++ List.replicate 12 0 ++ crc ++ [Utf8.byte content.length, 0, 0, 0] ++
    [Utf8.byte content.length, 0, 0, 0] ++ [Utf8.byte name.length, 0] ++ List.replicate 12 0 ++
    [Utf8.byte localOffset, 0, 0, 0] ++ name

def endRecord (entryCount centralSize centralOffset : ℕ) : List Byte :=
  [80, 75, 5, 6, 0, 0, 0, 0, Utf8.byte entryCount, 0, Utf8.byte entryCount, 0,
    Utf8.byte centralSize, 0, 0, 0, Utf8.byte centralOffset, 0, 0, 0, 0, 0]

-- The directory "a/" and the file "a/b" with the two bytes "hi", both stored.
def sampleArchive : List Byte :=
  localRecord [97, 47] [] ++ localRecord [97, 47, 98] [104, 105] ++
    centralRecord [97, 47] [] [0, 0, 0, 0] 0 ++
    centralRecord [97, 47, 98] [104, 105] [172, 42, 147, 216] 32 ++ endRecord 2 97 67

def sampleDirectory : ZipEntry := ⟨js "a/", 0, 0, 0, 0, 0⟩

def sampleFile : ZipEntry := ⟨js "a/b", 0, 0xd8932aac, 2, 2, 32⟩

theorem readZipEntries_sample :
    readZipEntries sampleArchive = .ok [sampleDirectory, sampleFile] :=
  Except.toOption_eq_some.mp (by decide +kernel)

theorem extractZipEntry_sample : extractZipEntry sampleArchive some sampleFile = .ok [104, 105] :=
  Except.toOption_eq_some.mp (by decide +kernel)

theorem sample_archive_tiled :
    IsArchive sampleArchive [sampleDirectory, sampleFile] ∧
      extractZipEntry sampleArchive some sampleDirectory ≠ .error .outOfRange ∧
      extractZipEntry sampleArchive some sampleFile = .ok [104, 105] ∧
      crc32 [104, 105] = sampleFile.expectedCrc32 := by
  obtain ⟨harchive, -, hextract⟩ :=
    (zip_reader_total sampleArchive some).2 _ readZipEntries_sample
  have hfile := hextract sampleFile (.tail _ (.head _))
  exact ⟨harchive, (hextract sampleDirectory (.head _)).1, extractZipEntry_sample,
    (hfile.2 _ extractZipEntry_sample).2⟩

end Totality

section Names

variable {zip : List Byte}

structure SafeRelative (name : JsString) : Prop where
  nonempty : name ≠ []
  relative : ¬ js "/" <+: name
  driveless : startsWithDrive name = false
  slashes : 92 ∉ name
  segments : ∀ part ∈ name.splitOn 47, part ≠ [] ∧ part ≠ js "." ∧ part ≠ js ".."

def withoutTrailingSlash (name : JsString) : JsString :=
  if (js "/").isSuffixOf name then name.dropLast else name

def DirectoriesSafe (zip : List Byte) : Prop :=
  ∀ entries, IsArchive zip entries → ∀ entry ∈ entries, js "/" <:+ entry.name →
    SafeRelative entry.name.dropLast

theorem entryName_slashes (bytes : List Byte) : 92 ∉ entryName bytes := by
  intro h
  obtain ⟨c, -, hc⟩ := List.mem_map.mp h
  split at hc
  · exact absurd hc (by decide)
  · contradiction

theorem Tiles.slashes {start finish : ℕ} {entries : List ZipEntry}
    (h : Tiles zip start entries finish) : ∀ entry ∈ entries, 92 ∉ entry.name := by
  induction h with
  | nil => simp
  | cons _ _ ih => exact List.forall_mem_cons.mpr ⟨entryName_slashes _, ih⟩

theorem safe_of_not_unsafeName {name : JsString} (hslashes : 92 ∉ name)
    (h : unsafeName name = false) : SafeRelative name := by
  simp only [unsafeName, Bool.or_eq_false_iff, List.any_eq_false] at h
  obtain ⟨⟨⟨hempty, hrelative⟩, hdrive⟩, hsegments⟩ := h
  refine ⟨?_, ?_, hdrive, hslashes, fun part hpart => ?_⟩
  · rintro rfl
    cases hempty
  · intro hprefix
    rw [List.isPrefixOf_iff_prefix.mpr hprefix] at hrelative
    cases hrelative
  · have hplain := hsegments part hpart
    refine ⟨?_, ?_, ?_⟩ <;> rintro rfl <;> exact hplain (by decide)

theorem archive_names_safe {entries : List ZipEntry} (hread : readZipEntries zip = .ok entries) :
    (∀ entry ∈ entries, SafeRelative (withoutTrailingSlash entry.name)) ↔ DirectoriesSafe zip := by
  obtain ⟨harchive, -, hnamed⟩ := (@readZipEntries_meets zip).of_ok entries hread
  constructor
  · intro hsafe entries' harchive' entry hentry hends
    obtain rfl := harchive.unique harchive'
    have hname := hsafe entry hentry
    rwa [withoutTrailingSlash, if_pos (List.isSuffixOf_iff_suffix.mpr hends)] at hname
  · intro hdirectories entry hentry
    rw [withoutTrailingSlash]
    split
    · rename_i hends
      exact hdirectories entries harchive entry hentry (List.isSuffixOf_iff_suffix.mp hends)
    · rename_i hends
      obtain ⟨_, -, -, htiles, -⟩ := harchive.declared
      refine safe_of_not_unsafeName (htiles.slashes entry hentry) (Bool.eq_false_iff.mpr ?_)
      intro hrefused
      exact hends (List.isSuffixOf_iff_suffix.mpr (hnamed entry hentry hrefused))

theorem sample_names_safe : SafeRelative (js "a") ∧ SafeRelative (js "a/b") := by
  have hdirectories : DirectoriesSafe sampleArchive := by
    intro entries harchive entry hentry hends
    obtain rfl := harchive.unique (readZipEntries_meets.of_ok _ readZipEntries_sample).1
    obtain rfl | hentry := List.mem_cons.mp hentry
    · exact safe_of_not_unsafeName (by decide) (by decide)
    · obtain rfl := List.mem_singleton.mp hentry
      exact absurd hends (by decide)
  have hsafe := (archive_names_safe readZipEntries_sample).mpr hdirectories
  exact ⟨hsafe sampleDirectory (.head _), hsafe sampleFile (.tail _ (.head _))⟩

-- Its only record has the name "../", and no local record.
def traversalArchive : List Byte :=
  centralRecord [46, 46, 47] [] [0, 0, 0, 0] 0 ++ endRecord 1 49 0

theorem traversal_name_accepted :
    ∃ entries, readZipEntries traversalArchive = .ok entries ∧
      ∃ entry ∈ entries, ¬ SafeRelative (withoutTrailingSlash entry.name) := by
  refine ⟨[⟨js "../", 0, 0, 0, 0, 0⟩], Except.toOption_eq_some.mp (by decide +kernel), _,
    List.mem_singleton.mpr rfl, fun hsafe => ?_⟩
  exact (hsafe.segments (js "..") (by decide)).2.2 rfl

end Names

end Aseos.Release.Zip
