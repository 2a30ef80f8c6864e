import Aseos.Release.ReleaseMetadata

namespace Aseos.Release

open Kernel (text)
open ScopePolicy (strictlyEqual)

-- An option that the caller leaves out is undefined.
structure VerifyOptions where
  artifactRoot : JsValue
  manifestPath : JsValue
  expectedVersion : JsValue
  expectedGitCommit : JsValue

-- What the repository's own JSON files hold, if they can be read and parsed.
structure RepositoryFiles where
  packageManifest : Option JsValue
  toolchain : Option JsValue
  runtimeLock : Option JsValue

structure Authority where
  frameworkVersion : JsValue
  toolchain : JsValue
  runtime : JsValue

-- The sum of the sizes is exact, as it stays below `2 ^ 53` bytes.
structure ReleaseReport where
  frameworkVersion : JsValue
  gitCommit : JsValue
  buildId : JsValue
  manifestSha256 : JsString
  manifestSizeBytes : ℕ
  payloadFiles : ℕ
  payloadSizeBytes : ℚ

section Authority

def readJson : Option JsValue → Except VerificationError JsValue
  | some value => .ok value
  | none => .error .other

def isNullish : JsValue → Bool
  | .undefined | .null => true
  | _ => false

def memberOf (value : JsValue) (key : String) : Except VerificationError JsValue :=
  if isNullish value then .error .other else .ok (field value key)

def readRepositoryAuthority (files : RepositoryFiles) (expectedVersion : JsValue) :
    Except VerificationError Authority := do
  let packageManifest ← match expectedVersion with
    | .undefined => readJson files.packageManifest
    | _ => .ok .undefined
  let toolchain ← readJson files.toolchain
  let runtimeLock ← readJson files.runtimeLock
  let frameworkVersion ←
    if isNullish expectedVersion then memberOf packageManifest "version" else .ok expectedVersion
  let authority ← memberOf toolchain "authority"
  let runtime ← memberOf runtimeLock "runtime"
  return { frameworkVersion := frameworkVersion, toolchain := authority, runtime := runtime }

end Authority

section Verification

variable (host : ReleaseHost) (artifact : Artifact)

def readManifest (file : List JsString) (location : JsString) :
    Except VerificationError (JsValue × Bytes) := do
  let bytes ← readFile artifact file
  match Json.parse host.numberValue (host.decodeLossy bytes) with
  | none => fail .invalidJson location
  | some value => do
      require .nonCanonicalJson (location ++ js " must be canonical UTF-8 JSON with one LF")
        ((canonicalJsonBytes host.toHost value).toOption = some bytes)
      return (value, bytes)

def payloadPaths (manifest : JsValue) : List JsString :=
  (payloadOf manifest).map fun entry => text entry "path"

def assertInventory (actual expected : List JsString) : Except VerificationError Unit :=
  let actualFiles := JsString.sort actual
  let expectedFiles := JsString.sort expected
  let extra := actualFiles.filter (· ∉ expectedFiles)
  let missing := expectedFiles.filter (· ∉ actualFiles)
  if actualFiles = expectedFiles then .ok ()
  else if missing ≠ [] then fail .releasePayloadMissing ((js ",").intercalate missing)
  else fail .releasePayloadInventoryMismatch
    (js "extra=[" ++ (js ",").intercalate extra ++ js "]")

-- `${left} != ${right}` unless the values are equal
def assertSame (code : ManifestErrorCode) (label : JsString) (left right : JsValue) :
    Except VerificationError Unit :=
  require code (label ++ left.toText host.toHost ++ js " != " ++ right.toText host.toHost)
    (strictlyEqual left right = true)

def runtimeBindings : List (String × String) :=
  [("distribution", "distribution"), ("version", "version"), ("platform", "platform"),
    ("archiveUrl", "archiveUrl"), ("archiveSha256", "sha256")]

def assertAuthority (manifest : JsValue) (authority : Authority) (expectedGitCommit : JsValue) :
    Except VerificationError Unit := do
  let toolchain := field manifest "toolchain"
  let runtime := field manifest "runtime"
  assertSame host .frameworkVersionMismatch [] (field manifest "frameworkVersion")
    authority.frameworkVersion
  ["node", "pnpm", "typescript"].forM fun name =>
    assertSame host .toolchainVersionMismatch (js name ++ js ": ") (field toolchain name)
      (field authority.toolchain name)
  require .runtimeVersionMismatch (js "runtime.version must equal toolchain.node")
    (strictlyEqual (field runtime "version") (field toolchain "node") = true)
  runtimeBindings.forM fun binding =>
    assertSame host .runtimeLockMismatch (js binding.1 ++ js ": ") (field runtime binding.1)
      (field authority.runtime binding.2)
  match expectedGitCommit with
  | .undefined => return ()
  | expected => assertSame host .gitCommitMismatch [] (field manifest "gitCommit") expected

def verifyPayloadEntry (entry : JsValue) : Except VerificationError Unit := do
  let file ← resolvePayloadFile artifact (text entry "path")
  let bytes ← readFile artifact file
  assertContents host entry bytes

def byteCount : JsValue → ℚ
  | .number (.finite x) => x.value
  | _ => 0

def releaseReport (manifest : JsValue) (manifestBytes : Bytes) : ReleaseReport where
  frameworkVersion := field manifest "frameworkVersion"
  gitCommit := field manifest "gitCommit"
  buildId := field manifest "buildId"
  manifestSha256 := (host.sha256Bytes manifestBytes).text
  manifestSizeBytes := manifestBytes.length
  payloadFiles := (payloadOf manifest).length
  payloadSizeBytes := ((payloadOf manifest).map fun entry => byteCount (field entry "sizeBytes")).sum

def defaultManifestPath : JsValue → JsValue
  | .undefined => .string (js "release-manifest.json")
  | path => path

def assertArtifactRoot (artifactRoot : JsValue) : Except VerificationError Unit :=
  require .invalidArgument (js "artifactRoot is required")
    ((artifactRoot.isString.any fun root => root ≠ []) = true)

-- `artifact` is what stands at the artifact root; a report means `PASS`.
def verifyReleaseManifest (repository : RepositoryFiles) (options : VerifyOptions) :
    Except VerificationError ReleaseReport := do
  assertArtifactRoot options.artifactRoot
  let manifestPath ← assertReleasePath host (defaultManifestPath options.manifestPath)
    (js "manifestPath")
  let manifestFile ← resolvePayloadFile artifact manifestPath
  let (manifest, manifestBytes) ← readManifest host artifact manifestFile manifestPath
  assertManifestShape host manifest
  require .selfReferentialManifest (js "payload must not contain " ++ manifestPath)
    (manifestPath ∉ payloadPaths manifest)
  let actualFiles ← listArtifactFiles host artifact
  assertInventory actualFiles (payloadPaths manifest ++ [manifestPath])
  let authority ← readRepositoryAuthority repository options.expectedVersion
  assertAuthority host manifest authority options.expectedGitCommit
  (payloadOf manifest).forM (verifyPayloadEntry host artifact)
  verifySbomSemantics host artifact manifest
  verifyProvenanceSemantics host artifact manifest
  verifyChecksumSemantics host artifact manifest
  return releaseReport host manifest manifestBytes

end Verification

end Aseos.Release
