import Aseos.Release.ReleasePath

namespace Aseos.Release

abbrev Bytes := List Utf8.Byte

-- What stands at a path of an artifact: `link` is any symbolic link or junction.
inductive Node where
  | file (bytes : Bytes)
  | directory (entries : List (JsString × Node))
  | link
  | special

-- The names of a directory are distinct, and no name holds a separator.
inductive Named : Node → Prop
  | file (bytes) : Named (.file bytes)
  | directory {entries} : (entries.map Prod.fst).Nodup →
      (∀ entry ∈ entries, entry.1 ≠ [] ∧ 47 ∉ entry.1) → (∀ entry ∈ entries, Named entry.2) →
      Named (.directory entries)
  | link : Named .link
  | special : Named .special

-- The tree under the artifact root, and the paths that the process may not read.
structure Artifact where
  root : Node
  denied : List JsString → Bool
  named : Named root

inductive IoError where
  | missing
  | failed
  deriving DecidableEq

namespace Node

def child : Node → JsString → Except IoError Node
  | .directory entries, name =>
      match entries.find? fun entry => entry.1 = name with
      | some entry => .ok entry.2
      | none => .error .missing
  | .link, _ => .error .failed
  | .file _, _ => .error .failed
  | .special, _ => .error .failed

-- What stands at a path that no link is on.
def lookup (node : Node) : List JsString → Except IoError Node
  | [] => .ok node
  | name :: names => node.child name >>= fun next => next.lookup names

def isPlain : Node → Bool
  | .file _ | .directory _ => true
  | .link | .special => false

end Node

section Files

variable (host : ReleaseHost) (artifact : Artifact)

def missingPayload {α : Type} (path : JsString) : IoError → Except VerificationError α
  | .missing => fail .releasePayloadMissing path
  | .failed => fail .releasePayloadUnreadable path

-- The components of the path that are still to come, below `node`.
def assertNoLinkComponents (path : JsString) (node : Node) :
    List JsString → Except VerificationError Unit
  | [] => .ok ()
  | name :: names =>
      match node.child name with
      | .error e => missingPayload path e
      | .ok .link => fail .unsafePayloadPath (path ++ js " traverses a symbolic link or junction")
      | .ok next => assertNoLinkComponents path next names

-- `relative(root, resolve(root, ...segments))`, by segments
def fromRoot : List JsString → List JsString → List JsString
  | normalized, [] => normalized
  | normalized, name :: names =>
      if name = [] ∨ name = js "." then fromRoot normalized names
      else if name = js ".." then
        match normalized.getLast? with
        | none => fromRoot [js ".."] names
        | some last =>
            if last = js ".." then fromRoot (normalized ++ [js ".."]) names
            else fromRoot normalized.dropLast names
      else fromRoot (normalized ++ [name]) names

-- Without a link on the way the real path is the path itself.
def resolvePayloadFile (path : JsString) : Except VerificationError (List JsString) := do
  let candidate := fromRoot [] (segments path)
  require .unsafePayloadPath (path ++ js " escapes artifact root")
    (candidate ≠ [] ∧ candidate.head? ≠ some (js ".."))
  assertNoLinkComponents path artifact.root (segments path)
  if artifact.denied candidate then fail .releasePayloadUnreadable path
  else return candidate

def readFile (path : List JsString) : Except VerificationError Bytes :=
  match artifact.root.lookup path with
  | .ok (.file bytes) => if artifact.denied path then .error .other else .ok bytes
  | _ => .error .other

mutual

-- The rest of `listArtifactFiles` for one entry, whose path has been checked.
def listNode (path : JsString) : Node → Except VerificationError (List JsString)
  | .link => fail .unsafePayloadPath (path ++ js " is a symbolic link or junction")
  | .directory entries =>
      if artifact.denied (segments path) then fail .releaseArtifactUnreadable path
      else listEntries path entries
  | .file _ => .ok [path]
  | .special => fail .unsafePayloadPath (path ++ js " is not a regular file or directory")

def listEntries (directory : JsString) :
    List (JsString × Node) → Except VerificationError (List JsString)
  | [] => .ok []
  | (name, node) :: entries => do
      let path := if directory = [] then name else directory ++ js "/" ++ name
      let _ ← assertReleasePath host (.string path) (js "artifact entry")
      let files ← listNode path node
      let rest ← listEntries directory entries
      return files ++ rest

end

def listArtifactFiles : Except VerificationError (List JsString) :=
  match artifact.root with
  | .directory entries =>
      if artifact.denied [] then fail .releaseArtifactUnreadable (js ".")
      else listEntries host artifact [] entries
  | _ => fail .releaseArtifactUnreadable (js ".")

end Files

section Listing

variable {host : ReleaseHost} {artifact : Artifact} {node : Node} {entries : List (JsString × Node)}

structure Listed (path : List JsString) (node : Node) (files : List JsString) : Prop where
  mem (p : JsString) : p ∈ files ↔
    ∃ names bytes, node.lookup names = .ok (.file bytes) ∧ p = [47].intercalate (path ++ names)
  plain (names : List JsString) (n : Node) : node.lookup names = .ok n → n.isPlain = true

theorem find_entry (hnodup : (entries.map Prod.fst).Nodup) {entry : JsString × Node}
    (hentry : entry ∈ entries) : entries.find? (fun e => e.1 = entry.1) = some entry := by
  induction entries with
  | nil => cases hentry
  | cons e entries ih =>
    obtain ⟨hnew, hnodup⟩ := List.nodup_cons.mp hnodup
    rw [List.find?_cons]
    obtain rfl | hentry := List.mem_cons.mp hentry
    · simp
    · have hne : e.1 ≠ entry.1 := fun heq => hnew (heq ▸ List.mem_map_of_mem hentry)
      simpa [hne] using ih hnodup hentry

theorem lookup_cons {name : JsString} {names : List JsString} {n : Node}
    (hnodup : (entries.map Prod.fst).Nodup) :
    (Node.directory entries).lookup (name :: names) = .ok n ↔
      ∃ entry ∈ entries, entry.1 = name ∧ entry.2.lookup names = .ok n := by
  rw [Node.lookup, Except.bind_eq_ok]
  constructor
  · rintro ⟨next, hchild, hnext⟩
    rw [Node.child] at hchild
    split at hchild
    · rename_i entry hfind
      obtain rfl := Except.ok.inj hchild
      exact ⟨entry, List.mem_of_find?_eq_some hfind, by simpa using List.find?_some hfind, hnext⟩
    · cases hchild
  · rintro ⟨entry, hentry, rfl, hnext⟩
    exact ⟨entry.2, by rw [Node.child, find_entry hnodup hentry], hnext⟩

theorem intercalate_snoc (path : List JsString) (hne : path ≠ []) (name : JsString) :
    [47].intercalate (path ++ [name]) = [47].intercalate path ++ js "/" ++ name := by
  have hslash : js "/" = [47] := by decide
  induction path with
  | nil => exact absurd rfl hne
  | cons first path ih =>
    cases path with
    | nil => simp [hslash]
    | cons second path =>
      simp only [List.cons_append, List.intercalate_cons_cons, List.append_assoc] at ih ⊢
      rw [ih (by simp)]

theorem intercalate_ne_nil {path : List JsString} (hne : path ≠ []) (h : ∀ name ∈ path, name ≠ []) :
    [47].intercalate path ≠ ([] : JsString) := by
  cases path with
  | nil => exact absurd rfl hne
  | cons first path =>
    have hfirst := h first (.head _)
    cases path <;> simp [hfirst]

theorem entryPath {path : List JsString} (h : ∀ name ∈ path, name ≠ []) (name : JsString) :
    (if [47].intercalate path = [] then name else [47].intercalate path ++ js "/" ++ name) =
      [47].intercalate (path ++ [name]) := by
  cases path with
  | nil => simp
  | cons first path =>
    rw [if_neg (intercalate_ne_nil (by simp) h), intercalate_snoc _ (by simp)]

theorem listEntries_ok {path : List JsString} {files : List JsString}
    (hpath : ∀ name ∈ path, name ≠ []) (hnames : ∀ entry ∈ entries, entry.1 ≠ [])
    (hnodes : ∀ entry ∈ entries, ∀ path files, (∀ name ∈ path, name ≠ []) → path ≠ [] →
      listNode host artifact ([47].intercalate path) entry.2 = .ok files →
      Listed path entry.2 files)
    (h : listEntries host artifact ([47].intercalate path) entries = .ok files) :
    (∀ p, p ∈ files ↔ ∃ entry ∈ entries, ∃ names bytes,
      entry.2.lookup names = .ok (.file bytes) ∧
        p = [47].intercalate (path ++ entry.1 :: names)) ∧
      ∀ entry ∈ entries, ∀ names n, entry.2.lookup names = .ok n → n.isPlain = true := by
  induction entries generalizing files with
  | nil =>
    rw [listEntries] at h
    obtain rfl := Except.ok.inj h
    simp
  | cons entry entries ih =>
    obtain ⟨name, node⟩ := entry
    rw [listEntries] at h
    obtain ⟨_, -, h⟩ := Except.bind_eq_ok.mp h
    obtain ⟨first, hfirst, h⟩ := Except.bind_eq_ok.mp h
    obtain ⟨rest, hrest, h⟩ := Except.bind_eq_ok.mp h
    obtain rfl := Except.ok.inj h
    rw [entryPath hpath] at hfirst
    have hlisted := hnodes (name, node) (.head _) (path ++ [name]) first
      (fun n hn => by
        obtain hn | hn := List.mem_append.mp hn
        · exact hpath n hn
        · obtain rfl := List.mem_singleton.mp hn
          exact hnames _ (.head _)) (by simp) hfirst
    obtain ⟨hmem, hplain⟩ := ih (fun entry hentry => hnames entry (.tail _ hentry))
      (fun entry hentry => hnodes entry (.tail _ hentry)) hrest
    refine ⟨fun p => ?_, fun entry hentry => ?_⟩
    · rw [List.mem_append, hlisted.mem, hmem]
      simp only [List.append_assoc, List.singleton_append, List.mem_cons, exists_eq_or_imp]
    · obtain rfl | hentry := List.mem_cons.mp hentry
      · exact hlisted.plain
      · exact hplain entry hentry

theorem directory_listed {path : List JsString} {files : List JsString}
    (hnodup : (entries.map Prod.fst).Nodup)
    (h : (∀ p, p ∈ files ↔ ∃ entry ∈ entries, ∃ names bytes,
      entry.2.lookup names = .ok (.file bytes) ∧
        p = [47].intercalate (path ++ entry.1 :: names)) ∧
      ∀ entry ∈ entries, ∀ names n, entry.2.lookup names = .ok n → n.isPlain = true) :
    Listed path (.directory entries) files where
  mem p := by
    rw [h.1]
    constructor
    · rintro ⟨entry, hentry, names, bytes, hlookup, rfl⟩
      exact ⟨entry.1 :: names, bytes, (lookup_cons hnodup).mpr ⟨entry, hentry, rfl, hlookup⟩, rfl⟩
    · rintro ⟨names, bytes, hlookup, rfl⟩
      cases names with
      | nil => cases hlookup
      | cons name names =>
        obtain ⟨entry, hentry, rfl, hbelow⟩ := (lookup_cons hnodup).mp hlookup
        exact ⟨entry, hentry, names, bytes, hbelow, rfl⟩
  plain names n hlookup := by
    cases names with
    | nil =>
      obtain rfl := Except.ok.inj hlookup
      rfl
    | cons name names =>
      obtain ⟨entry, hentry, -, hbelow⟩ := (lookup_cons hnodup).mp hlookup
      exact h.2 entry hentry names n hbelow

theorem listNode_ok (hnamed : Named node) : ∀ path files, (∀ name ∈ path, name ≠ []) →
    path ≠ [] → listNode host artifact ([47].intercalate path) node = .ok files →
    Listed path node files := by
  induction hnamed with
  | file bytes =>
    intro path files hpath hne h
    rw [listNode] at h
    obtain rfl := Except.ok.inj h
    refine ⟨fun p => ?_, fun names n hlookup => ?_⟩
    · rw [List.mem_singleton]
      constructor
      · rintro rfl
        exact ⟨[], bytes, rfl, by rw [List.append_nil]⟩
      · rintro ⟨names, other, hlookup, rfl⟩
        cases names with
        | nil => rw [List.append_nil]
        | cons name names => cases hlookup
    · cases names with
      | nil =>
        obtain rfl := Except.ok.inj hlookup
        rfl
      | cons name names => cases hlookup
  | directory hnodup hnames _ ih =>
    intro path files hpath hne h
    rw [listNode] at h
    split at h
    · cases h
    · exact directory_listed hnodup
        (listEntries_ok hpath (fun entry hentry => (hnames entry hentry).1) ih h)
  | link | special =>
    intro path files hpath hne h
    rw [listNode] at h
    cases h

theorem listArtifactFiles_ok {files : List JsString}
    (h : listArtifactFiles host artifact = .ok files) :
    Listed [] artifact.root files ∧ ∀ bytes, artifact.root ≠ .file bytes := by
  have hnamed := artifact.named
  unfold listArtifactFiles at h
  split at h
  · rename_i entries hroot
    rw [hroot] at hnamed ⊢
    cases hnamed with
    | directory hnodup hnames hchildren =>
      split at h
      · cases h
      · exact ⟨directory_listed hnodup (listEntries_ok (by simp)
          (fun entry hentry => (hnames entry hentry).1)
          (fun entry hentry => listNode_ok (hchildren entry hentry)) h), nofun⟩
  · cases h

theorem lookup_names (hnamed : Named node) {names : List JsString} {n : Node}
    (h : node.lookup names = .ok n) : ∀ name ∈ names, 47 ∉ name := by
  induction hnamed generalizing names with
  | directory hnodup hnames _ ih =>
    cases names with
    | nil => simp
    | cons name names =>
      obtain ⟨entry, hentry, rfl, hlookup⟩ := (lookup_cons hnodup).mp h
      exact List.forall_mem_cons.mpr ⟨(hnames entry hentry).2, ih entry hentry hlookup⟩
  | file | link | special =>
    cases names with
    | nil => simp
    | cons name names => cases h

theorem mem_listArtifactFiles {files : List JsString}
    (h : listArtifactFiles host artifact = .ok files) (p : JsString) :
    p ∈ files ↔ ∃ bytes, artifact.root.lookup (segments p) = .ok (.file bytes) := by
  obtain ⟨hlisted, hroot⟩ := listArtifactFiles_ok h
  rw [hlisted.mem]
  constructor
  · rintro ⟨names, bytes, hlookup, rfl⟩
    have hne : names ≠ [] := by
      rintro rfl
      exact hroot bytes (Except.ok.inj hlookup)
    rw [List.nil_append, segments_intercalate (lookup_names artifact.named hlookup) hne]
    exact ⟨bytes, hlookup⟩
  · rintro ⟨bytes, hlookup⟩
    exact ⟨segments p, bytes, hlookup, by rw [List.nil_append, intercalate_segments]⟩

end Listing

section Reading

variable {artifact : Artifact} {path : JsString}

theorem fromRoot_safe {names normalized : List JsString}
    (h : ∀ name ∈ names, isSafeSegment name = true) :
    fromRoot normalized names = normalized ++ names := by
  induction names generalizing normalized with
  | nil => rw [fromRoot, List.append_nil]
  | cons name names ih =>
    have hname := h name (.head _)
    simp only [isSafeSegment, Bool.and_eq_true, bne_iff_ne] at hname
    obtain ⟨⟨⟨⟨⟨hempty, hdot⟩, hparent⟩, -⟩, -⟩, -⟩ := hname
    rw [fromRoot, if_neg (by simp [hempty, hdot]), if_neg hparent,
      ih fun n hn => h n (.tail _ hn), List.append_assoc, List.singleton_append]

theorem resolvePayloadFile_ok (hsafe : SafePath path) {candidate : List JsString}
    (h : resolvePayloadFile artifact path = .ok candidate) : candidate = segments path := by
  rw [resolvePayloadFile] at h
  obtain ⟨_, -, h⟩ := Except.bind_eq_ok.mp h
  obtain ⟨_, -, h⟩ := Except.bind_eq_ok.mp h
  split at h
  · cases h
  · obtain rfl := Except.ok.inj h
    rw [fromRoot_safe hsafe.safe, List.nil_append]

theorem readFile_ok {names : List JsString} {bytes : Bytes}
    (h : readFile artifact names = .ok bytes) : artifact.root.lookup names = .ok (.file bytes) := by
  rw [readFile] at h
  split at h
  · rename_i hlookup
    split at h
    · cases h
    · obtain rfl := Except.ok.inj h
      exact hlookup
  · cases h

end Reading

end Aseos.Release
