import Aseos.Release.Manifest

namespace Aseos.Release

open Kernel (text)
open ScopePolicy (strictlyEqual)

section Patterns

open Regex

-- /^(?:@[a-z0-9][a-z0-9._-]*\/)?[a-z0-9][a-z0-9._-]*$/u
def packageName : Regex CodeUnit :=
  let first := one fun c => c.isLower || c.isDigit
  let later := star (one fun c => c.isLower || c.isDigit || c.isAny "._-")
  all [opt (all [text (js "@"), first, later, text (js "/")]), first, later]

-- /^SPDXRef-Package-[1-9][0-9]*$/u
def spdxPackageId : Regex CodeUnit :=
  all [text (js "SPDXRef-Package-"), one (CodeUnit.inRange '1' '9'), star (one CodeUnit.isDigit)]

end Patterns

section Reading

variable (host : ReleaseHost) (artifact : Artifact) (manifest : JsValue)

def demand (code : ManifestErrorCode) (location : JsString) (message : String) (p : Prop)
    [Decidable p] : Except VerificationError Unit :=
  require code (location ++ js ": " ++ js message) p

def assertSemanticKeys (code : ManifestErrorCode) (value : JsValue) (required : List String)
    (location : JsString) : Except VerificationError Unit :=
  assertKeys code (js ": ") value required location

def hasSize (value : JsValue) (n : ℕ) : Bool :=
  match value with
  | .number (.finite x) => decide (x.value = n)
  | _ => false

-- The contents of a payload file against its entry.
def assertContents (entry : JsValue) (bytes : Bytes) : Except VerificationError Unit := do
  let path := text entry "path"
  let digest := (host.sha256Bytes bytes).text
  require .releasePayloadSizeMismatch
    (path ++ js ": " ++ Decimal.digits bytes.length ++ js " != " ++
      (field entry "sizeBytes").toText host.toHost)
    (hasSize (field entry "sizeBytes") bytes.length = true)
  require .releasePayloadHashMismatch (path ++ js ": " ++ digest ++ js " != " ++ text entry "sha256")
    (strictlyEqual (field entry "sha256") (.string digest) = true)

def readBoundPayloadBytes (path : JsString) : Except VerificationError Bytes :=
  match payloadEntry manifest (.string path) with
  | none => fail .boundPayloadMismatch (path ++ js " is absent from payload")
  | some descriptor => do
      let file ← resolvePayloadFile artifact path
      let bytes ← readFile artifact file
      assertContents host descriptor bytes
      return bytes

def parseBytes (code : ManifestErrorCode) (path : JsString) (message : String) (bytes : Bytes) :
    Except VerificationError JsValue :=
  match (decodeText bytes).bind (Json.parse host.numberValue) with
  | some value => .ok value
  | none => fail code (path ++ js ": " ++ js message)

def readBoundCanonicalJson (path : JsString) (code : ManifestErrorCode) :
    Except VerificationError JsValue := do
  let bytes ← readBoundPayloadBytes host artifact manifest path
  let value ← parseBytes host code path "invalid UTF-8 JSON" bytes
  demand code path "must be canonical UTF-8 JSON with one LF"
    ((canonicalJsonBytes host.toHost value).toOption = some bytes)
  return value

end Reading

section Sbom

variable (host : ReleaseHost) (artifact : Artifact) (manifest : JsValue)

def assertQualificationPackageFields (code : ManifestErrorCode) (value : JsValue)
    (location : JsString) (expectedDownloadLocation : JsValue) : Except VerificationError Unit := do
  demand code location "downloadLocation/filesAnalyzed are not qualification-safe"
    (strictlyEqual (field value "downloadLocation") expectedDownloadLocation = true ∧
      strictlyEqual (field value "filesAnalyzed") (.bool false) = true)
  demand code location "license fields must remain NOASSERTION"
    (isText (field value "licenseDeclared") "NOASSERTION" = true ∧
      isText (field value "licenseConcluded") "NOASSERTION" = true)

def packageKeys : List String :=
  ["SPDXID", "name", "versionInfo", "downloadLocation", "filesAnalyzed", "licenseConcluded",
    "licenseDeclared"]

def isNodePackage (entry : JsValue) : Bool := isText (field entry "SPDXID") "SPDXRef-Package-Node"

def verifySbomIdentity (sbom : JsValue) : Except VerificationError Unit := do
  let code := .releaseSbomInvalid
  assertSemanticKeys code sbom
    ["spdxVersion", "dataLicense", "SPDXID", "name", "documentNamespace", "creationInfo",
      "packages"] (js "sbom")
  demand code (js "sbom") "document identity does not match the release manifest"
    (isText (field sbom "spdxVersion") "SPDX-2.3" = true ∧
      isText (field sbom "dataLicense") "CC0-1.0" = true ∧
      isText (field sbom "SPDXID") "SPDXRef-DOCUMENT" = true ∧
      strictlyEqual (field sbom "name") (.string (js "ASEOS-" ++ text manifest "frameworkVersion" ++
        js "-windows-x64-qualification")) = true ∧
      strictlyEqual (field sbom "documentNamespace") (.string (js "https://aseos.invalid/spdx/" ++
        text manifest "gitCommit" ++ js "/" ++ text manifest "buildId")) = true)
  let creationInfo := field sbom "creationInfo"
  assertSemanticKeys code creationInfo ["created", "creators"] (js "sbom.creationInfo")
  demand code (js "sbom.creationInfo") "creation identity does not match the build"
    (strictlyEqual (field creationInfo "created") (field manifest "builtAt") = true ∧
      (items (field creationInfo "creators")).length = 1 ∧
      ∀ creator ∈ items (field creationInfo "creators"),
        isText creator "Tool: ASEOS deterministic release assembler" = true)
  demand code (js "sbom.packages") "must be a non-empty array"
    (items (field sbom "packages") ≠ [])

def verifyNodePackage (nodePackage : JsValue) : Except VerificationError Unit := do
  let code := .releaseSbomInvalid
  let location := js "sbom.packages[node]"
  let runtime := field manifest "runtime"
  assertSemanticKeys code nodePackage (packageKeys ++ ["checksums"]) location
  assertQualificationPackageFields code nodePackage location (field runtime "archiveUrl")
  demand code location "runtime identity does not match manifest.runtime"
    (isText (field nodePackage "name") "node" = true ∧
      strictlyEqual (field nodePackage "versionInfo") (field runtime "version") = true ∧
      strictlyEqual (field nodePackage "downloadLocation") (field runtime "archiveUrl") = true ∧
      (items (field nodePackage "checksums")).length = 1)
  (items (field nodePackage "checksums")).forM fun checksum => do
    assertSemanticKeys code checksum ["algorithm", "checksumValue"] (location ++ js ".checksums[0]")
    demand code (location ++ js ".checksums[0]") "runtime digest does not match"
      (isText (field checksum "algorithm") "SHA256" = true ∧
        strictlyEqual (field checksum "checksumValue") (field runtime "archiveSha256") = true)

def packageIdentity (value : JsValue) (version : String) : JsString :=
  text value "name" ++ js "@" ++ text value version

-- The payload's `<dir>/package.json` files.
def packageFiles : List JsValue :=
  (payloadOf manifest).filter fun entry => (js "/package.json").isSuffixOf (text entry "path")

def readPackage (entry : JsValue) : Except VerificationError JsString := do
  let code := .releaseSbomInvalid
  let path := text entry "path"
  let bytes ← readBoundPayloadBytes host artifact manifest path
  let packageManifest ← parseBytes host code path "invalid package metadata" bytes
  demand code path "package name/version is invalid"
    (matchesString (field packageManifest "name") packageName = true ∧
      matchesString (field packageManifest "version") semver = true)
  return packageIdentity packageManifest "version"

-- The loop over the packages still to come; the Node.js package is the only one of its SPDXID.
def inspectPackages (index : ℕ) (spdxIds : List JsString) :
    List JsValue → Except VerificationError (List JsString)
  | [] => .ok []
  | entry :: entries =>
      if isNodePackage entry then inspectPackages (index + 1) spdxIds entries
      else do
        let code := .releaseSbomInvalid
        let location := js "sbom.packages[" ++ Decimal.digits index ++ js "]"
        assertSemanticKeys code entry packageKeys location
        assertQualificationPackageFields code entry location (.string (js "NOASSERTION"))
        demand code location "SPDXID/name/versionInfo is invalid or duplicated"
          (matchesString (field entry "SPDXID") spdxPackageId = true ∧
            text entry "SPDXID" ∉ spdxIds ∧
            matchesString (field entry "name") packageName = true ∧
            matchesString (field entry "versionInfo") semver = true)
        let rest ← inspectPackages (index + 1) (spdxIds ++ [text entry "SPDXID"]) entries
        return packageIdentity entry "versionInfo" :: rest

def verifySbomSemantics : Except VerificationError Unit := do
  let code := .releaseSbomInvalid
  demand code (js "sbom.path") "must be metadata/sbom.spdx.json"
    (isText (field (field manifest "sbom") "path") "metadata/sbom.spdx.json" = true)
  let sbom ← readBoundCanonicalJson host artifact manifest (js "metadata/sbom.spdx.json") code
  verifySbomIdentity manifest sbom
  let packages := items (field sbom "packages")
  match packages.filter isNodePackage with
  | [nodePackage] => do
      verifyNodePackage manifest nodePackage
      let expectedPackages ← (packageFiles manifest).mapM (readPackage host artifact manifest)
      let actualPackages ← inspectPackages 0 [js "SPDXRef-Package-Node"] packages
      demand code (js "sbom.packages") "package inventory does not match payload package.json files"
        (JsString.sort actualPackages = JsString.sort expectedPackages)
  | _ => fail code (js "sbom.packages: must contain exactly one Node runtime package")

end Sbom

section Provenance

variable (host : ReleaseHost) (artifact : Artifact) (manifest : JsValue)

def metadataPaths : List JsString :=
  [js "metadata/checksums.sha256", js "metadata/provenance.json", js "metadata/sbom.spdx.json"]

def corePayload : List JsValue :=
  (payloadOf manifest).filter fun entry => text entry "path" ∉ metadataPaths

-- The subjects still to come; `SHA256.test` reads any value as a string.
def inspectSubjects (subjects : List (JsString × JsValue)) :
    List JsValue → Except VerificationError (List (JsString × JsValue))
  | [] => .ok subjects
  | subject :: rest => do
      let code := .releaseProvenanceInvalid
      let location := js "provenance.subject[" ++ Decimal.digits subjects.length ++ js "]"
      assertSemanticKeys code subject ["name", "digest"] location
      let name ← assertReleasePath host (field subject "name") (location ++ js ".name")
      let digest := field (field subject "digest") "sha256"
      assertSemanticKeys code (field subject "digest") ["sha256"] (location ++ js ".digest")
      demand code location "subject digest is invalid or name is duplicated"
        (Pattern.sha256.test (digest.toText host.toHost) = true ∧ name ∉ subjects.map Prod.fst)
      inspectSubjects (subjects ++ [(name, digest)]) rest

def coversCore (subjects : List (JsString × JsValue)) : Prop :=
  subjects.length = (corePayload manifest).length ∧
    ∀ entry ∈ corePayload manifest,
      ((subjects.find? fun subject => subject.1 = text entry "path").any fun subject =>
        strictlyEqual subject.2 (field entry "sha256")) = true

instance (subjects : List (JsString × JsValue)) : Decidable (coversCore manifest subjects) :=
  inferInstanceAs (Decidable (_ ∧ _))

def verifyBuildDefinition (buildDefinition : JsValue) : Except VerificationError Unit := do
  let code := .releaseProvenanceInvalid
  let location := js "provenance.predicate.buildDefinition"
  let external := field buildDefinition "externalParameters"
  let internal := field buildDefinition "internalParameters"
  assertSemanticKeys code buildDefinition
    ["buildType", "externalParameters", "internalParameters", "resolvedDependencies"] location
  demand code (location ++ js ".buildType") "is invalid"
    (isText (field buildDefinition "buildType")
      "https://aseos.invalid/build-types/windows-x64-qualification/v1" = true)
  assertSemanticKeys code external ["frameworkVersion", "gitCommit", "runtimeArchiveSha256"]
    (location ++ js ".externalParameters")
  demand code (location ++ js ".externalParameters") "does not match manifest"
    (strictlyEqual (field external "frameworkVersion") (field manifest "frameworkVersion") = true ∧
      strictlyEqual (field external "gitCommit") (field manifest "gitCommit") = true ∧
      strictlyEqual (field external "runtimeArchiveSha256")
        (field (field manifest "runtime") "archiveSha256") = true)
  assertSemanticKeys code internal ["productionApproved"] (location ++ js ".internalParameters")
  demand code (location ++ js ".internalParameters") "production must not be approved"
    (strictlyEqual (field internal "productionApproved") (.bool false) = true ∧
      strictlyEqual (field (field manifest "artifact") "productionApproved") (.bool false) = true)

def verifyDependencies (resolvedDependencies : JsValue) : Except VerificationError Unit := do
  let code := .releaseProvenanceInvalid
  let location := js "provenance.predicate.buildDefinition.resolvedDependencies"
  match items resolvedDependencies with
  | [gitDependency, runtimeDependency] => do
      assertSemanticKeys code gitDependency ["uri"] (js "provenance.resolvedDependencies[0]")
      assertSemanticKeys code runtimeDependency ["uri", "digest"]
        (js "provenance.resolvedDependencies[1]")
      assertSemanticKeys code (field runtimeDependency "digest") ["sha256"]
        (js "provenance.resolvedDependencies[1].digest")
      demand code location "does not match git/runtime inputs"
        (strictlyEqual (field gitDependency "uri")
            (.string (js "git+https://github.com/olu37776-bit/-ai-software-engineering-os@" ++
              text manifest "gitCommit")) = true ∧
          strictlyEqual (field runtimeDependency "uri")
            (field (field manifest "runtime") "archiveUrl") = true ∧
          strictlyEqual (field (field runtimeDependency "digest") "sha256")
            (field (field manifest "runtime") "archiveSha256") = true)
  | _ => fail code (location ++ js ": must contain git and runtime")

def verifyRunDetails (runDetails : JsValue) : Except VerificationError Unit := do
  let code := .releaseProvenanceInvalid
  let location := js "provenance.predicate.runDetails"
  let metadata := field runDetails "metadata"
  assertSemanticKeys code runDetails ["builder", "metadata"] location
  assertSemanticKeys code (field runDetails "builder") ["id"] (location ++ js ".builder")
  assertSemanticKeys code metadata ["invocationId", "startedOn", "finishedOn"]
    (location ++ js ".metadata")
  demand code location "builder invocation or timestamps do not match manifest"
    (isText (field (field runDetails "builder") "id")
        "https://aseos.invalid/builders/deterministic-release-assembler/v1" = true ∧
      strictlyEqual (field metadata "invocationId") (field manifest "buildId") = true ∧
      strictlyEqual (field metadata "startedOn") (field manifest "builtAt") = true ∧
      strictlyEqual (field metadata "finishedOn") (field manifest "builtAt") = true)

def verifyProvenanceSemantics : Except VerificationError Unit := do
  let code := .releaseProvenanceInvalid
  demand code (js "provenance.path") "must be metadata/provenance.json"
    (isText (field (field manifest "provenance") "path") "metadata/provenance.json" = true)
  let provenance ← readBoundCanonicalJson host artifact manifest (js "metadata/provenance.json") code
  assertSemanticKeys code provenance ["_type", "predicateType", "subject", "predicate"]
    (js "provenance")
  demand code (js "provenance") "Statement or predicate type is invalid"
    (isText (field provenance "_type") "https://in-toto.io/Statement/v1" = true ∧
      isText (field provenance "predicateType") "https://slsa.dev/provenance/v1" = true)
  demand code (js "provenance.subject") "must be an array"
    ((field provenance "subject").isArray.isSome = true)
  let subjects ← inspectSubjects host [] (items (field provenance "subject"))
  demand code (js "provenance.subject") "must exactly cover core payload digests"
    (coversCore manifest subjects)
  let predicate := field provenance "predicate"
  assertSemanticKeys code predicate ["buildDefinition", "runDetails"] (js "provenance.predicate")
  verifyBuildDefinition manifest (field predicate "buildDefinition")
  verifyDependencies manifest (field (field predicate "buildDefinition") "resolvedDependencies")
  verifyRunDetails manifest (field predicate "runDetails")

end Provenance

section Checksums

variable (host : ReleaseHost) (artifact : Artifact) (manifest : JsValue)

def checksumPath : JsString := js "metadata/checksums.sha256"

-- /^([0-9a-f]{64}) {2}(.+)$/u
def checksumRecord (line : JsString) : Option (JsString × JsString) :=
  let digest := line.take 64
  let path := line.drop 66
  if Pattern.sha256.test digest && (line.drop 64).take 2 == js "  " && path != [] &&
      path.all fun c => !RegExpSource.isLineTerminator c then
    some (digest, path)
  else none

-- The lines still to come, with the records of those before them.
def inspectRecords (records : List (JsString × JsString)) :
    List JsString → Except VerificationError (List (JsString × JsString))
  | [] => .ok records
  | line :: lines =>
      let location := checksumPath ++ js ":" ++ Decimal.digits (records.length + 1)
      match checksumRecord line with
      | none => fail .releaseChecksumsInvalid (location ++ js ": record format is invalid")
      | some (digest, path) => do
          let _ ← assertReleasePath host (.string path) location
          demand .releaseChecksumsInvalid location "path is self-referential or duplicated"
            (path ≠ checksumPath ∧ path ∉ records.map Prod.snd)
          inspectRecords (records ++ [(digest, path)]) lines

def otherPayload : List JsValue :=
  (payloadOf manifest).filter fun entry => text entry "path" ≠ checksumPath

def coversPayload (records : List (JsString × JsString)) : Prop :=
  records.length = (otherPayload manifest).length ∧
    ∀ entry ∈ (otherPayload manifest).zipIdx,
      ((records.find? fun record => record.2 = text entry.1 "path").any fun record =>
          strictlyEqual (.string record.1) (field entry.1 "sha256")) = true ∧
        (records.map Prod.snd)[entry.2]? = some (text entry.1 "path")

instance (records : List (JsString × JsString)) : Decidable (coversPayload manifest records) :=
  inferInstanceAs (Decidable (_ ∧ _))

def verifyChecksumSemantics : Except VerificationError Unit := do
  let code := .releaseChecksumsInvalid
  let bytes ← readBoundPayloadBytes host artifact manifest checksumPath
  match decodeText bytes with
  | none => fail code (checksumPath ++ js ": invalid UTF-8")
  | some contents => do
      demand code checksumPath "must use LF records and end with one LF"
        (contents.getLast? = some 10 ∧ 13 ∉ contents)
      let records ← inspectRecords host [] (contents.dropLast.splitOn 10)
      demand code checksumPath "must exactly cover every other payload digest in order"
        (coversPayload manifest records)

end Checksums

end Aseos.Release
