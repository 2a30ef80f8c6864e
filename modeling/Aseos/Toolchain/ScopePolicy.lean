import Aseos.Contracts.Spread

namespace Aseos

namespace ScopePolicy

structure ScriptRuntime extends JsonRuntime where
  normalizeNfc : JsString → JsString

inductive LockSide where
  | base
  | head
  deriving DecidableEq

def LockSide.text : LockSide → String
  | .base => "BASE"
  | .head => "HEAD"

inductive Violation where
  | lockMalformed (side : LockSide)
  | unsafePath (path : JsValue)
  | duplicatePath (path : JsString)
  | nonCanonicalAllowedOperationIds (path : JsString)
  | invalidAllowedOperationId (path : JsString)
  | nonCanonicalPathOrder (side : LockSide)
  | topLevelMutation
  | pathSetMutation
  | selfHashed
  | ownershipMutation (path : JsString)
  | unrelatedHashRefresh (path : JsString)
  | unauthorizedHashRefresh (path : JsString)
  | unauthorizedLockedAssetChange (path : JsString)
  | refreshMissing (path : JsString)
  | refreshHashMismatch (path : JsString)
  | emptyRefresh

def Violation.message (host : Host) : Violation → JsString
  | .lockMalformed side => js ("AUTHORITY_LOCK_MALFORMED_" ++ side.text)
  | .unsafePath path => js "AUTHORITY_LOCK_UNSAFE_PATH: " ++ path.toText host
  | .duplicatePath path => js "AUTHORITY_LOCK_DUPLICATE_PATH: " ++ path
  | .nonCanonicalAllowedOperationIds path =>
      js "AUTHORITY_LOCK_NON_CANONICAL_ALLOWED_OPERATION_IDS: " ++ path
  | .invalidAllowedOperationId path => js "AUTHORITY_LOCK_INVALID_ALLOWED_OPERATION_ID: " ++ path
  | .nonCanonicalPathOrder side => js ("AUTHORITY_LOCK_NON_CANONICAL_PATH_ORDER: " ++ side.text)
  | .topLevelMutation => js "AUTHORITY_LOCK_TOP_LEVEL_MUTATION"
  | .pathSetMutation => js "AUTHORITY_LOCK_PATH_SET_MUTATION"
  | .selfHashed => js "AUTHORITY_LOCK_SELF_HASHED"
  | .ownershipMutation path => js "AUTHORITY_LOCK_OWNERSHIP_MUTATION: " ++ path
  | .unrelatedHashRefresh path => js "UNRELATED_AUTHORITY_HASH_REFRESH: " ++ path
  | .unauthorizedHashRefresh path => js "UNAUTHORIZED_AUTHORITY_HASH_REFRESH: " ++ path
  | .unauthorizedLockedAssetChange path => js "UNAUTHORIZED_LOCKED_ASSET_CHANGE: " ++ path
  | .refreshMissing path => js "AUTHORITY_LOCK_REFRESH_MISSING: " ++ path
  | .refreshHashMismatch path => js "AUTHORITY_LOCK_REFRESH_HASH_MISMATCH: " ++ path
  | .emptyRefresh => js "AUTHORITY_LOCK_EMPTY_REFRESH"

-- A read of a property of null or undefined, or a call of what is no function.
inductive TypeError where
  | typeError

def authorityLockPath : JsString := js "operations/phase-1/authority-lock.json"

-- /^P1-O0[1-9]$/
def operationIdPattern : Regex CodeUnit :=
  .seq (.text (js "P1-O0")) (.one (CodeUnit.inRange '1' '9'))

def startsWithDrive : JsString → Bool
  | letter :: colon :: _ => (letter.isUpper || letter.isLower) && colon.isAny ":"
  | _ => false

-- No code point above the basic plane is refused, so the code units can be looked at one by one.
def isInvalidControl (c : CodeUnit) : Bool :=
  c.val < 32 || (127 ≤ c.val && c.val ≤ 159) || c.val == 65533

variable (runtime : ScriptRuntime)

def isSafeRepositoryPath (path : JsString) : Bool :=
  path.length > 0 &&
    !(js "/").isPrefixOf path &&
    !startsWithDrive path &&
    !path.any (CodeUnit.isAny "\\") &&
    !path.any isInvalidControl &&
    runtime.normalizeNfc path == path &&
    (path.splitOn 47).all (fun segment =>
      segment != [] && segment != js "." && segment != js "..") &&
    !path.any (CodeUnit.isAny "?*[]")

def sameJson (left right : JsValue) : Bool :=
  Json.stringify runtime.toHost left == Json.stringify runtime.toHost right

def isCanonicalUniqueStrings (values : JsValue) : Bool :=
  match values with
  | .array slots _ =>
      match slots.mapM (fun s => s.2.isString) with
      | some strings =>
          decide strings.Nodup && sameJson runtime (.ofStrings (JsString.sort strings)) values
      | none => false
  | _ => false

structure AuthorityEntries where
  entries : List (JsString × JsValue)
  paths : List JsString
  violations : List Violation

def operationIdViolations (path : JsString) (entry : JsValue) : List Violation :=
  if isCanonicalUniqueStrings runtime (entry.property (js "allowedOperationIds")) then
    match entry.property (js "allowedOperationIds") with
    | .array slots _ =>
        if slots.all (fun s => (s.2.isString.map operationIdPattern.test).getD false) then []
        else [.invalidAllowedOperationId path]
    | _ => []
  else [.nonCanonicalAllowedOperationIds path]

def collectEntry (collected : AuthorityEntries) (entry : JsValue) : AuthorityEntries :=
  match entry.property (js "path") with
  | .string path =>
      if isSafeRepositoryPath runtime path then
        if collected.entries.any (fun e => e.1 = path) then
          { collected with
            paths := collected.paths ++ [path]
            violations := collected.violations ++ [.duplicatePath path] }
        else
          { entries := collected.entries ++ [(path, entry)]
            paths := collected.paths ++ [path]
            violations := collected.violations ++ operationIdViolations runtime path entry }
      else { collected with violations := collected.violations ++ [.unsafePath (.string path)] }
  | path => { collected with violations := collected.violations ++ [.unsafePath path] }

def collectAuthorityEntries (lock : JsValue) (side : LockSide) : AuthorityEntries :=
  match lock.property (js "authorityFiles") with
  | .array slots _ =>
      let collected := (slots.map Prod.snd).foldl (collectEntry runtime) ⟨[], [], []⟩
      if sameJson runtime (.ofStrings (JsString.sort collected.paths)) (.ofStrings collected.paths) then
        collected
      else { collected with violations := collected.violations ++ [.nonCanonicalPathOrder side] }
  | _ => ⟨[], [], [.lockMalformed side]⟩

namespace AuthorityEntries

-- `entries.get(path)`
def get (entries : List (JsString × JsValue)) (path : JsString) : JsValue :=
  ((entries.find? (fun e => e.1 = path)).map Prod.snd).getD .undefined

def sortedPaths (collected : AuthorityEntries) : List JsString :=
  JsString.sort (collected.entries.map Prod.fst)

end AuthorityEntries

-- `values.includes(text)`
def includes (values : JsValue) (text : JsString) : Except TypeError Bool :=
  match values with
  | .array slots _ => .ok (slots.any fun s => s.2.isString == some text)
  | .string s => .ok (s.includes text)
  | _ => .error .typeError

-- `===` on two values of separate documents, which share no object.
def strictlyEqual : JsValue → JsValue → Bool
  | .undefined, .undefined | .null, .null => true
  | .bool b, .bool c => b == c
  | .string s, .string t => s == t
  | .number (.finite x), .number (.finite y) => x.value == y.value
  | .number (.infinity b), .number (.infinity c) => b == c
  | _, _ => false

structure PathReport where
  violations : List Violation
  refreshed : Bool

section Transition

variable (operationId : JsString) (changedPaths : List JsString)
  (actualHashes : JsString → Option JsString)

def mayChange (baseEntry : JsValue) : Except TypeError Bool :=
  if baseEntry.property (js "mutationPolicy") |> strictlyEqual (.string (js "OPERATION_SCOPED")) then
    includes (baseEntry.property (js "allowedOperationIds")) operationId
  else .ok false

def refreshViolations (path : JsString) (baseEntry : JsValue) : Except TypeError (List Violation) := do
  let allowed ← mayChange operationId baseEntry
  return (if changedPaths.elem authorityLockPath && changedPaths.elem path then []
      else [.unrelatedHashRefresh path]) ++
    if allowed then [] else [.unauthorizedHashRefresh path]

def changeViolations (path : JsString) (baseEntry headEntry : JsValue) (hashChanged : Bool) :
    Except TypeError (List Violation) := do
  let allowed ← mayChange operationId baseEntry
  -- A missing hash and an empty one are both falsy.
  let actualHash := (actualHashes path).getD []
  return (if allowed then [] else [.unauthorizedLockedAssetChange path]) ++
    (if changedPaths.elem authorityLockPath then [] else [.refreshMissing path]) ++
    (if actualHash == [] || !strictlyEqual (headEntry.property (js "sha256")) (.string actualHash) then
      [.refreshHashMismatch path] else []) ++
    if actualHash != [] && !strictlyEqual (.string actualHash) (baseEntry.property (js "sha256")) &&
      !hashChanged then [.refreshMissing path] else []

def examinePath (baseEntries headEntries : List (JsString × JsValue)) (path : JsString) :
    Except TypeError PathReport :=
  let baseEntry := AuthorityEntries.get baseEntries path
  let headEntry := AuthorityEntries.get headEntries path
  if !sameJson runtime (baseEntry.without (js "sha256")) (headEntry.without (js "sha256")) then
    .ok ⟨[.ownershipMutation path], false⟩
  else do
    let hashChanged := !strictlyEqual (baseEntry.property (js "sha256")) (headEntry.property (js "sha256"))
    let refresh ←
      (if hashChanged then refreshViolations operationId changedPaths path baseEntry else .ok [])
    let change ←
      (if changedPaths.elem path then
        changeViolations operationId changedPaths actualHashes path baseEntry headEntry hashChanged
      else .ok [])
    return ⟨refresh ++ change, hashChanged⟩

def selfHashed (headLock : JsValue) (headEntries : List (JsString × JsValue)) :
    Except TypeError (List Violation) :=
  match headLock with
  | .null | .undefined => .error .typeError
  | _ =>
      match headLock.property (js "excludedSelfPath") with
      | .string path => .ok (if headEntries.any (fun e => e.1 = path) then [.selfHashed] else [])
      | _ => .ok []

def validateOperationAuthorityLockTransition (baseLock headLock : JsValue) :
    Except TypeError (List Violation) :=
  let topLevel :=
    if sameJson runtime (baseLock.without (js "authorityFiles")) (headLock.without (js "authorityFiles")) then
      []
    else [.topLevelMutation]
  let base := collectAuthorityEntries runtime baseLock .base
  let head := collectAuthorityEntries runtime headLock .head
  let violations := topLevel ++ base.violations ++ head.violations
  if !sameJson runtime (.ofStrings base.sortedPaths) (.ofStrings head.sortedPaths) then
    .ok (violations ++ [.pathSetMutation])
  else do
    let self ← selfHashed headLock head.entries
    let reports ← base.sortedPaths.mapM
      (examinePath runtime operationId changedPaths actualHashes base.entries head.entries)
    let empty :=
      if changedPaths.elem authorityLockPath && !reports.any (·.refreshed) then [.emptyRefresh]
      else []
    return violations ++ self ++ reports.flatMap (·.violations) ++ empty

end Transition

end ScopePolicy

end Aseos
