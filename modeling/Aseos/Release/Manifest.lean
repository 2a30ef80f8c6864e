import Aseos.Kernel.Model
import Aseos.Release.ReleaseDirectory

namespace Aseos.Release

open Kernel (text)
open ScopePolicy (strictlyEqual)

section Patterns

open Regex

def letterOrDigit (others : String) : CodeUnit → Bool :=
  fun c => c.isUpper || c.isLower || c.isDigit || c.isAny others

def dottedIdentifiers : Regex CodeUnit :=
  let identifier := plus (one (letterOrDigit "-"))
  seq identifier (star (seq (text (js ".")) identifier))

-- /^(0|[1-9][0-9]*)\.(0|[1-9][0-9]*)\.(0|[1-9][0-9]*)(?:-[0-9A-Za-z-]+(?:\.[0-9A-Za-z-]+)*)?
-- (?:\+[0-9A-Za-z-]+(?:\.[0-9A-Za-z-]+)*)?$/u
def semver : Regex CodeUnit :=
  all [Pattern.decimal, text (js "."), Pattern.decimal, text (js "."), Pattern.decimal,
    opt (seq (text (js "-")) dottedIdentifiers), opt (seq (text (js "+")) dottedIdentifiers)]

-- /^[0-9a-f]{40}$/u
def gitCommit : Regex CodeUnit := Pattern.hexDigits 40

-- /^[A-Za-z0-9._:-]{1,128}$/u
def buildId : Regex CodeUnit :=
  seq (one (letterOrDigit "._:-")) (upTo 127 (one (letterOrDigit "._:-")))

def digits (n : ℕ) : Regex CodeUnit := times n (one CodeUnit.isDigit)

-- /^\d{4}-\d{2}-\d{2}T\d{2}:\d{2}:\d{2}(?:\.\d{1,9})?(?:Z|[+-]\d{2}:\d{2})$/u
def rfc3339 : Regex CodeUnit :=
  all [digits 4, text (js "-"), digits 2, text (js "-"), digits 2, text (js "T"), digits 2,
    text (js ":"), digits 2, text (js ":"), digits 2,
    opt (all [text (js "."), digits 1, upTo 8 (one CodeUnit.isDigit)]),
    alt (text (js "Z")) (all [one (CodeUnit.isAny "+-"), digits 2, text (js ":"), digits 2])]

-- /^[A-Za-z][A-Za-z0-9._-]{0,127}$/u
def contractName : Regex CodeUnit :=
  seq (one fun c => c.isUpper || c.isLower) (upTo 127 (one (letterOrDigit "._-")))

end Patterns

def field (value : JsValue) (key : String) : JsValue := value.property (js key)

def items (value : JsValue) : List JsValue := (value.isArray.getD []).map Prod.snd

def isText (value : JsValue) (s : String) : Bool := strictlyEqual value (.string (js s))

def matchesString (value : JsValue) (expression : Regex CodeUnit) : Bool :=
  match value with
  | .string s => expression.test s
  | _ => false

section Shape

def invalid (message : JsString) (p : Prop) [Decidable p] : Except VerificationError Unit :=
  require .manifestSchemaInvalid message p

-- `assertExactKeys` and `assertSemanticKeys`
def assertKeys (code : ManifestErrorCode) (separator : JsString) (value : JsValue)
    (required : List String) (location : JsString) : Except VerificationError Unit :=
  match value with
  | .object _ props =>
      let expected := JsString.sort (required.map js)
      require code (location ++ separator ++ js "keys must be exactly " ++
        (js ", ").intercalate expected) (JsString.sort (Props.keys props) = expected)
  | _ => fail code (location ++ separator ++ js "must be an object")

def assertExactKeys (value : JsValue) (required : List String) (location : JsString) :
    Except VerificationError Unit :=
  assertKeys .manifestSchemaInvalid (js " ") value required location

def assertString (value : JsValue) (location : JsString) (expression : Regex CodeUnit)
    (description : String) : Except VerificationError Unit :=
  invalid (location ++ js " must be " ++ js description) (matchesString value expression = true)

def assertSha256 (value : JsValue) (location : JsString) : Except VerificationError Unit :=
  assertString value location Pattern.sha256 "a lowercase SHA-256"

variable (host : ReleaseHost)

def assertBoundPayload (value : JsValue) (location : JsString) : Except VerificationError Unit := do
  assertExactKeys value ["path", "sha256"] location
  let _ ← assertReleasePath host (field value "path") (location ++ js ".path")
  assertSha256 (field value "sha256") (location ++ js ".sha256")

def manifestKeys : List String :=
  ["$schema", "schemaVersion", "frameworkVersion", "gitCommit", "buildId", "builtAt", "artifact",
    "platform", "toolchain", "runtime", "contracts", "configSchemaVersion", "stateSchemaVersion",
    "supportedUpgradeSources", "sbom", "provenance", "payload"]

def assertIdentity (manifest : JsValue) : Except VerificationError Unit := do
  assertExactKeys manifest manifestKeys (js "manifest")
  invalid (js "manifest schema identity is not supported")
    (isText (field manifest "$schema") "urn:aseos:release-schema:release-manifest:1.0.0" = true ∧
      isText (field manifest "schemaVersion") "1.0.0" = true)
  assertString (field manifest "frameworkVersion") (js "frameworkVersion") semver "SemVer"
  assertString (field manifest "gitCommit") (js "gitCommit") gitCommit
    "a lowercase 40-hex commit"
  invalid (js "buildId is invalid") (matchesString (field manifest "buildId") buildId = true)
  invalid (js "builtAt must be a valid RFC 3339 timestamp")
    (matchesString (field manifest "builtAt") rfc3339 = true ∧
      host.parsesAsDate (text manifest "builtAt") = true)

def assertArtifact (artifact platform toolchain : JsValue) : Except VerificationError Unit := do
  assertExactKeys artifact ["kind", "productionApproved"] (js "artifact")
  invalid (js "artifact must remain explicitly non-production")
    (isText (field artifact "kind") "NON_PRODUCTION_QUALIFICATION" = true ∧
      strictlyEqual (field artifact "productionApproved") (.bool false) = true)
  assertExactKeys platform ["id", "os", "arch"] (js "platform")
  invalid (js "platform must be windows-x64")
    (isText (field platform "id") "windows-x64" = true ∧
      isText (field platform "os") "windows" = true ∧ isText (field platform "arch") "x64" = true)
  assertExactKeys toolchain ["node", "pnpm", "typescript"] (js "toolchain")
  assertString (field toolchain "node") (js "toolchain.node") semver "SemVer"
  assertString (field toolchain "pnpm") (js "toolchain.pnpm") semver "SemVer"
  assertString (field toolchain "typescript") (js "toolchain.typescript") semver "SemVer"

def assertRuntime (runtime : JsValue) : Except VerificationError Unit := do
  assertExactKeys runtime
    ["distribution", "version", "platform", "archiveUrl", "archiveSha256", "executable"]
    (js "runtime")
  invalid (js "runtime.distribution must be node")
    (isText (field runtime "distribution") "node" = true)
  assertString (field runtime "version") (js "runtime.version") semver "SemVer"
  invalid (js "runtime.platform must be win-x64")
    (isText (field runtime "platform") "win-x64" = true)
  invalid (js "runtime.archiveUrl must use the official HTTPS origin")
    ((js "https://nodejs.org/dist/").isPrefixOf (text runtime "archiveUrl") = true)
  assertSha256 (field runtime "archiveSha256") (js "runtime.archiveSha256")
  let _ ← assertReleasePath host (field runtime "executable") (js "runtime.executable")
  return ()

def assertContract (contract : JsString × JsValue) : Except VerificationError Unit := do
  invalid (js "invalid contract name " ++ contract.1) (contractName.test contract.1 = true)
  assertString contract.2 (js "contracts." ++ contract.1) semver "SemVer"

def assertContracts (contracts : JsValue) : Except VerificationError Unit :=
  match contracts with
  | .object _ props => (Props.entries props).forM assertContract
  | _ => fail .manifestSchemaInvalid (js "contracts must be an object")

def assertUpgradeSources (seen : List JsString) :
    List JsValue → Except VerificationError (List JsString)
  | [] => .ok seen
  | version :: versions => do
      assertString version (js "supportedUpgradeSources[]") semver "SemVer"
      let source := version.isString.getD []
      invalid (js "duplicate supported upgrade source " ++ source) (source ∉ seen)
      assertUpgradeSources (seen ++ [source]) versions

def assertVersions (manifest : JsValue) : Except VerificationError Unit := do
  assertContracts (field manifest "contracts")
  assertString (field manifest "configSchemaVersion") (js "configSchemaVersion") semver "SemVer"
  assertString (field manifest "stateSchemaVersion") (js "stateSchemaVersion") semver "SemVer"
  invalid (js "supportedUpgradeSources must be an array")
    ((field manifest "supportedUpgradeSources").isArray.isSome = true)
  let sources ← assertUpgradeSources [] (items (field manifest "supportedUpgradeSources"))
  require .nonCanonicalManifest (js "supportedUpgradeSources must use code-unit order")
    (JsString.sort sources = sources)

def isByteCount (value : JsValue) : Bool :=
  match value with
  | .number (.finite x) => x.isSafeInteger && decide (0 ≤ x.value)
  | _ => false

def assertPayloadEntry (location : JsString) (paths : List JsString) (entry : JsValue) :
    Except VerificationError JsString := do
  assertExactKeys entry ["path", "sha256", "sizeBytes"] location
  let path ← assertReleasePath host (field entry "path") (location ++ js ".path")
  assertSha256 (field entry "sha256") (location ++ js ".sha256")
  invalid (location ++ js ".sizeBytes must be a non-negative safe integer")
    (isByteCount (field entry "sizeBytes") = true)
  require .selfReferentialManifest (js "payload must not contain release-manifest.json")
    (path ≠ js "release-manifest.json")
  require .duplicatePayloadPath path (path ∉ paths)
  return path

-- The entries still to come, with the paths of those before them.
def assertPayloadEntries (paths : List JsString) :
    List JsValue → Except VerificationError (List JsString)
  | [] => .ok paths
  | entry :: entries => do
      let location := js "payload[" ++ Decimal.digits paths.length ++ js "]"
      let path ← assertPayloadEntry host location paths entry
      assertPayloadEntries (paths ++ [path]) entries

def payloadOf (manifest : JsValue) : List JsValue := items (field manifest "payload")

-- `payloadByPath.get(path)`; the paths of a payload are distinct.
def payloadEntry (manifest : JsValue) (path : JsValue) : Option JsValue :=
  (payloadOf manifest).find? fun entry => strictlyEqual (field entry "path") path

def assertBinding (manifest : JsValue) (name : String) : Except VerificationError Unit :=
  let binding := field manifest name
  require .boundPayloadMismatch (js name ++ js " does not match its payload entry")
    ((payloadEntry manifest (field binding "path")).any
      (fun entry => strictlyEqual (field entry "sha256") (field binding "sha256")) = true)

def assertPayload (manifest : JsValue) : Except VerificationError Unit := do
  assertBoundPayload host (field manifest "sbom") (js "sbom")
  assertBoundPayload host (field manifest "provenance") (js "provenance")
  invalid (js "payload must be a non-empty array") (payloadOf manifest ≠ [])
  let paths ← assertPayloadEntries host [] (payloadOf manifest)
  require .nonCanonicalManifest (js "payload must use code-unit path order")
    (JsString.sort paths = paths)
  assertBinding manifest "sbom"
  assertBinding manifest "provenance"
  require .boundPayloadMismatch (js "runtime executable is absent from payload")
    ((payloadEntry manifest (field (field manifest "runtime") "executable")).isSome = true)

def assertManifestShape (manifest : JsValue) : Except VerificationError Unit := do
  assertIdentity host manifest
  assertArtifact (field manifest "artifact") (field manifest "platform")
    (field manifest "toolchain")
  assertRuntime host (field manifest "runtime")
  assertVersions manifest
  assertPayload host manifest

end Shape

end Aseos.Release
