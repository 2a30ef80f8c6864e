import Aseos.Js.Utf16
import Aseos.Toolchain.ScopePolicy

namespace Aseos.Release

open Utf8 (Byte examine)
open ScopePolicy (startsWithDrive)
open JsString (replacement)

section Buffers

-- `buffer.toString("utf8")`: the longest start of a character that cannot go on is replaced, and
-- the byte that does not continue it is read anew.
def replaceInvalid : List Byte → List Byte → List Char
  | [], [] => []
  | _ :: _, [] => [replacement]
  | held, b :: bytes =>
      match examine (held ++ [b]) with
      | .complete c => c :: replaceInvalid [] bytes
      | .unfinished => replaceInvalid (held ++ [b]) bytes
      | .invalid =>
          if held = [] then replacement :: replaceInvalid [] bytes
          else
            replacement ::
              match examine [b] with
              | .complete c => c :: replaceInvalid [] bytes
              | .unfinished => replaceInvalid [b] bytes
              | .invalid => replacement :: replaceInvalid [] bytes

def bufferText (bytes : List Byte) : JsString := utf16Text (replaceInvalid [] bytes)

def littleEndian (bytes : List Byte) : ℕ := bytes.foldr (fun b n => b.val + 256 * n) 0

-- `buffer.subarray(start, end)` with start ≤ end.
def subarray (bytes : List Byte) (start finish : ℕ) : List Byte :=
  (bytes.drop start).take (finish - start)

end Buffers

-- What `fail` throws, what a read outside of the buffer throws, and what inflateRawSync throws.
inductive ArchiveError where
  | failure (code : String) (detail : JsString)
  | outOfRange
  | inflate

structure ZipEntry where
  name : JsString
  method : ℕ
  expectedCrc32 : ℕ
  compressedSize : ℕ
  uncompressedSize : ℕ
  localOffset : ℕ
  deriving DecidableEq

namespace Zip

section Crc

def crcBit (crc : BitVec 32) : BitVec 32 := (crc >>> 1) ^^^ (0xedb88320#32 &&& -(crc &&& 1#32))

def crcByte (crc : BitVec 32) (byte : Byte) : BitVec 32 :=
  crcBit^[8] (crc ^^^ BitVec.ofNat 32 byte.val)

def crc32 (bytes : List Byte) : ℕ := ((bytes.foldl crcByte 0xffffffff#32) ^^^ 0xffffffff#32).toNat

end Crc

section Reading

variable (zip : List Byte)

def fail {α : Type} (code : String) (detail : JsString := []) : Except ArchiveError α :=
  .error (.failure code detail)

def failWhen (p : Prop) [Decidable p] (code : String) (detail : JsString := []) :
    Except ArchiveError Unit :=
  if p then fail code detail else .ok ()

def readUIntLE (offset width : ℕ) : Except ArchiveError ℕ :=
  if offset + width ≤ zip.length then .ok (littleEndian (subarray zip offset (offset + width)))
  else .error .outOfRange

def readUInt16LE (offset : ℕ) : Except ArchiveError ℕ := readUIntLE zip offset 2

def readUInt32LE (offset : ℕ) : Except ArchiveError ℕ := readUIntLE zip offset 4

-- The loop of findEndOfCentralDirectory, with `candidates` offsets left from `minimum` on.
def searchEnd (minimum : ℕ) : ℕ → Except ArchiveError ℕ
  | 0 => fail "RUNTIME_ARCHIVE_EOCD_MISSING"
  | candidates + 1 => do
      let signature ← readUInt32LE zip (minimum + candidates)
      if signature = 0x06054b50 then return minimum + candidates
      else searchEnd minimum candidates

def findEndOfCentralDirectory : Except ArchiveError ℕ :=
  searchEnd zip (zip.length - 65557) (zip.length + 1 - 22 - (zip.length - 65557))

def unsafeName (name : JsString) : Bool :=
  name.isEmpty || (js "/").isPrefixOf name || startsWithDrive name ||
    (name.splitOn 47).any fun part => part == js ".." || part == js "." || part.isEmpty

def entryName (bytes : List Byte) : JsString :=
  (bufferText bytes).map fun c => if c = 92 then 47 else c

-- One turn of the loop over the central directory; the entry and the offset after its record.
def readCentralEntry (entries : List ZipEntry) (index offset : ℕ) :
    Except ArchiveError (ZipEntry × ℕ) := do
  failWhen (zip.length < offset + 46) "RUNTIME_ARCHIVE_CENTRAL_ENTRY_INVALID" (Decimal.digits index)
  let signature ← readUInt32LE zip offset
  failWhen (signature ≠ 0x02014b50) "RUNTIME_ARCHIVE_CENTRAL_ENTRY_INVALID" (Decimal.digits index)
  let flags ← readUInt16LE zip (offset + 8)
  let method ← readUInt16LE zip (offset + 10)
  let expectedCrc32 ← readUInt32LE zip (offset + 16)
  let compressedSize ← readUInt32LE zip (offset + 20)
  let uncompressedSize ← readUInt32LE zip (offset + 24)
  let nameLength ← readUInt16LE zip (offset + 28)
  let extraLength ← readUInt16LE zip (offset + 30)
  let commentLength ← readUInt16LE zip (offset + 32)
  let localOffset ← readUInt32LE zip (offset + 42)
  let nameEnd := offset + 46 + nameLength
  failWhen (zip.length < nameEnd) "RUNTIME_ARCHIVE_ENTRY_NAME_INVALID" (Decimal.digits index)
  let name := entryName (subarray zip (offset + 46) nameEnd)
  failWhen (unsafeName name ∧ ¬ (js "/").isSuffixOf name)
    "RUNTIME_ARCHIVE_ENTRY_PATH_UNSAFE" name
  failWhen (flags % 2 ≠ 0) "RUNTIME_ARCHIVE_ENCRYPTED_ENTRY" name
  failWhen (method ≠ 0 ∧ method ≠ 8) "RUNTIME_ARCHIVE_COMPRESSION_UNSUPPORTED" name
  failWhen (name ∈ entries.map ZipEntry.name) "RUNTIME_ARCHIVE_DUPLICATE_ENTRY" name
  return (⟨name, method, expectedCrc32, compressedSize, uncompressedSize, localOffset⟩,
    nameEnd + extraLength + commentLength)

def readCentralEntries (index offset : ℕ) (entries : List ZipEntry) :
    ℕ → Except ArchiveError (List ZipEntry × ℕ)
  | 0 => return (entries, offset)
  | remaining + 1 => do
      let (entry, next) ← readCentralEntry zip entries index offset
      readCentralEntries (index + 1) next (entries ++ [entry]) remaining

-- The entries of the map in the order of their insertion.
def readZipEntries : Except ArchiveError (List ZipEntry) := do
  let eocd ← findEndOfCentralDirectory zip
  let disk ← readUInt16LE zip (eocd + 4)
  let centralDisk ← readUInt16LE zip (eocd + 6)
  let entriesOnDisk ← readUInt16LE zip (eocd + 8)
  let entryCount ← readUInt16LE zip (eocd + 10)
  let centralSize ← readUInt32LE zip (eocd + 12)
  let centralOffset ← readUInt32LE zip (eocd + 16)
  failWhen (disk ≠ 0 ∨ centralDisk ≠ 0 ∨ entriesOnDisk ≠ entryCount)
    "RUNTIME_ARCHIVE_MULTIDISK_UNSUPPORTED"
  failWhen (entryCount = 0xffff ∨ centralSize = 0xffffffff ∨ centralOffset = 0xffffffff)
    "RUNTIME_ARCHIVE_ZIP64_UNSUPPORTED"
  failWhen (eocd < centralOffset + centralSize) "RUNTIME_ARCHIVE_CENTRAL_DIRECTORY_INVALID"
  let (entries, offset) ← readCentralEntries zip 0 centralOffset [] entryCount
  failWhen (offset ≠ centralOffset + centralSize) "RUNTIME_ARCHIVE_CENTRAL_SIZE_MISMATCH"
  return entries

-- `inflateRawSync` returns bytes or throws.
def entryContent (inflateRaw : List Byte → Option (List Byte)) (method : ℕ)
    (compressed : List Byte) : Except ArchiveError (List Byte) :=
  if method = 0 then .ok compressed
  else
    match inflateRaw compressed with
    | some content => .ok content
    | none => .error .inflate

def extractZipEntry (inflateRaw : List Byte → Option (List Byte)) (entry : ZipEntry) :
    Except ArchiveError (List Byte) := do
  let offset := entry.localOffset
  failWhen (zip.length < offset + 30) "RUNTIME_ARCHIVE_LOCAL_ENTRY_INVALID" entry.name
  let signature ← readUInt32LE zip offset
  failWhen (signature ≠ 0x04034b50) "RUNTIME_ARCHIVE_LOCAL_ENTRY_INVALID" entry.name
  let nameLength ← readUInt16LE zip (offset + 26)
  let extraLength ← readUInt16LE zip (offset + 28)
  let dataStart := offset + 30 + nameLength + extraLength
  let dataEnd := dataStart + entry.compressedSize
  failWhen (zip.length < dataEnd) "RUNTIME_ARCHIVE_ENTRY_TRUNCATED" entry.name
  let compressed := subarray zip dataStart dataEnd
  let content ← entryContent inflateRaw entry.method compressed
  failWhen (content.length ≠ entry.uncompressedSize)
    "RUNTIME_ARCHIVE_ENTRY_SIZE_MISMATCH" entry.name
  failWhen (crc32 content ≠ entry.expectedCrc32)
    "RUNTIME_ARCHIVE_ENTRY_CRC_MISMATCH" entry.name
  return content

end Reading

end Zip

end Aseos.Release
