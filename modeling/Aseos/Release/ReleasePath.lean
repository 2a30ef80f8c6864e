import Aseos.Js.RegExpSource
import Aseos.Release.CanonicalEncoders
import Aseos.Toolchain.ScopePolicy

namespace Aseos.Release

open ScopePolicy (startsWithDrive)

inductive ManifestErrorCode where
  | manifestSchemaInvalid
  | unsafePayloadPath
  | nonCanonicalManifest
  | selfReferentialManifest
  | duplicatePayloadPath
  | boundPayloadMismatch
  | invalidJson
  | nonCanonicalJson
  | releasePayloadMissing
  | releasePayloadUnreadable
  | releasePayloadSizeMismatch
  | releasePayloadHashMismatch
  | releaseSbomInvalid
  | releaseProvenanceInvalid
  | releaseChecksumsInvalid
  | releaseArtifactUnreadable
  | invalidArgument
  | manifestUnreadable
  | releasePayloadInventoryMismatch
  | frameworkVersionMismatch
  | toolchainVersionMismatch
  | runtimeVersionMismatch
  | runtimeLockMismatch
  | gitCommitMismatch
  deriving DecidableEq

-- `other` is an error of the runtime itself, of a file operation for instance.
inductive VerificationError where
  | manifest (code : ManifestErrorCode) (message : JsString)
  | other
  deriving DecidableEq

def fail {α : Type} (code : ManifestErrorCode) (message : JsString) : Except VerificationError α :=
  .error (.manifest code message)

def require (code : ManifestErrorCode) (message : JsString) (p : Prop) [Decidable p] :
    Except VerificationError Unit :=
  if p then .ok () else fail code message

@[simp] theorem require_eq_ok {code : ManifestErrorCode} {message : JsString} {p : Prop}
    [Decidable p] {u : Unit} : require code message p = .ok u ↔ p := by
  rw [require]
  split
  · simpa
  · simpa [fail]

-- What Node.js supplies beside JSON; the lossy decoder replaces what is no UTF-8.
structure ReleaseHost extends JsonRuntime where
  normalizeNfc : JsString → JsString
  parsesAsDate : JsString → Bool
  sha256Bytes : List Utf8.Byte → HexDigest
  decodeLossy : List Utf8.Byte → JsString

section Segments

open Regex RegExpSource

def anyCase (word : String) : Regex CodeUnit :=
  all ((js word).map fun c => one fun d => d == c || (d.isUpper && d.val + 32 == c.val))

-- /^(?:con|prn|aux|nul|com[1-9]|lpt[1-9])(?:\..*)?$/iu
def windowsReserved : Regex CodeUnit :=
  let digit := one (CodeUnit.inRange '1' '9')
  all [any [anyCase "con", anyCase "prn", anyCase "aux", anyCase "nul",
      seq (anyCase "com") digit, seq (anyCase "lpt") digit],
    opt (seq (text (js ".")) (star (one fun c => !isLineTerminator c)))]

end Segments

section Paths

-- A code point above the basic plane is never unsafe.
def isUnsafePathCharacter (c : CodeUnit) : Bool := c.val ≤ 31 || c.val == 127 || c.isAny ":"

-- `isAbsolute` holds of no other path than these.
def isStrictRelative (path : JsString) : Bool :=
  !(js "/").isPrefixOf path && !startsWithDrive path && !path.any (CodeUnit.isAny "\\") &&
    !path.any isUnsafePathCharacter

def isSafeSegment (segment : JsString) : Bool :=
  segment != [] && segment != js "." && segment != js ".." && segment.getLast? != some 46 &&
    segment.getLast? != some 32 && !windowsReserved.test segment

def segments (path : JsString) : List JsString := path.splitOn 47

variable (host : ReleaseHost)

def assertReleasePath (path : JsValue) (location : JsString) :
    Except VerificationError JsString := do
  match path with
  | .string path =>
      require .unsafePayloadPath (location ++ js " must contain 1..1024 characters")
        (path ≠ [] ∧ path.length ≤ 1024)
      require .unsafePayloadPath (location ++ js " must use NFC Unicode normalization")
        (path = host.normalizeNfc path)
      require .unsafePayloadPath (location ++ js " is not a strict relative POSIX path")
        (isStrictRelative path = true)
      require .unsafePayloadPath (location ++ js " has an unsafe path segment")
        ((segments path).all isSafeSegment = true)
      return path
  | _ => fail .unsafePayloadPath (location ++ js " must contain 1..1024 characters")

structure SafePath (path : JsString) : Prop where
  relative : isStrictRelative path = true
  safe : ∀ segment ∈ segments path, isSafeSegment segment = true

variable {host}

theorem assertReleasePath_ok {value : JsValue} {location path : JsString}
    (h : assertReleasePath host value location = .ok path) :
    value = .string path ∧ SafePath path := by
  cases value with
  | string s =>
    obtain ⟨_, -, h⟩ := Except.bind_eq_ok.mp h
    obtain ⟨_, -, h⟩ := Except.bind_eq_ok.mp h
    obtain ⟨_, hrelative, h⟩ := Except.bind_eq_ok.mp h
    obtain ⟨_, hsafe, h⟩ := Except.bind_eq_ok.mp h
    obtain rfl := Except.ok.inj h
    exact ⟨rfl, require_eq_ok.mp hrelative, List.all_eq_true.mp (require_eq_ok.mp hsafe)⟩
  | _ => cases h

theorem segments_intercalate {names : List JsString} (hnames : ∀ name ∈ names, 47 ∉ name)
    (hne : names ≠ []) : segments ([47].intercalate names) = names :=
  List.splitOn_intercalate 47 hnames hne

theorem intercalate_segments (path : JsString) : [47].intercalate (segments path) = path :=
  List.intercalate_splitOn 47

end Paths

end Aseos.Release
