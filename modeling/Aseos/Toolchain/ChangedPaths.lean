import Aseos.Library.Lexicographic
import Aseos.Toolchain.GitPaths
import Mathlib.Data.Char

namespace Aseos

namespace ScopePolicy

inductive AmendmentViolation where
  | nonCanonical
  | invalidPath (path : JsString)
  | extraPath (path : JsString)
  | missingExactPath (path : JsString)
  | nonExactPath (path : JsString)
  deriving DecidableEq

def AmendmentViolation.message : AmendmentViolation → JsString
  | .nonCanonical => js "NON_CANONICAL_GOVERNANCE_AMENDMENT_CHANGED_PATHS"
  | .invalidPath path => js "INVALID_PATH: " ++ path
  | .extraPath path => js "GOVERNANCE_AMENDMENT_EXTRA_PATH: " ++ path
  | .missingExactPath path => js "GOVERNANCE_AMENDMENT_MISSING_EXACT_PATH: " ++ path
  | .nonExactPath path => js "GOVERNANCE_AMENDMENT_NON_EXACT_PATH: " ++ path

section Definitions

variable (runtime : ScriptRuntime)

-- By the UTF-8 encodings of the paths, as `compareCanonicalPaths` does.
def sortCanonicalPaths (paths : List JsString) : List JsString := sortBy JsString.utf8 paths

-- From what git has written of the committed, the uncommitted and the untracked changes.
def changedPathsFrom (committedDiff worktreeDiff untrackedFiles : Bytes) :
    Except GitPathError (List JsString) := do
  let tracked ← gitPaths runtime "COMMITTED_DIFF" committedDiff
  let worktree ← gitPaths runtime "WORKTREE_DIFF" worktreeDiff
  let untracked ← gitPaths runtime "UNTRACKED_FILES" untrackedFiles
  return sortCanonicalPaths (tracked ++ worktree ++ untracked).eraseDups

def changedPathViolations (allowed : List JsString) (path : JsString) : List AmendmentViolation :=
  if !isSafeRepositoryPath runtime path then [.invalidPath path]
  else if path ∉ allowed then [.extraPath path]
  else []

def exactPathViolations (changedPaths exact : List JsString) : List AmendmentViolation :=
  (exact.filter (· ∉ changedPaths)).map .missingExactPath ++
    (changedPaths.filter (· ∉ exact)).map .nonExactPath

def validateGovernanceAmendmentChangedPaths (changedPaths allowedChangedPaths : List JsString)
    (exactAmendmentPaths : Option (List JsString)) : List AmendmentViolation :=
  (if isCanonicalUniqueStrings runtime (.ofStrings changedPaths) then [] else [.nonCanonical]) ++
    changedPaths.flatMap (changedPathViolations runtime allowedChangedPaths) ++
    (exactAmendmentPaths.map (exactPathViolations changedPaths)).getD []

end Definitions

section Encodings

open Utf8

theorem encodeChar_lt {c d : Char} (h : c < d) (s t : Bytes) :
    encodeChar c ++ s < encodeChar d ++ t := by
  have hlt : c.toNat < d.toNat := h
  have hc : c.toNat < 55296 ∨ 57343 < c.toNat ∧ c.toNat < 1114112 := c.valid
  have hd : d.toNat < 55296 ∨ 57343 < d.toNat ∧ d.toNat < 1114112 := d.valid
  have hdigits (n : ℕ) : n / 4096 = n / 64 / 64 ∧ n / 262144 = n / 64 / 64 / 64 := by omega
  unfold encodeChar
  rw [(hdigits c.toNat).1, (hdigits c.toNat).2, (hdigits d.toNat).1, (hdigits d.toNat).2]
  split_ifs <;>
    simp only [List.cons_append, List.nil_append, List.cons_lt_cons_iff, Fin.lt_def, Fin.ext_iff] <;>
    simp (disch := omega) only [byte_val] <;>
    omega

theorem encode_strictMono : StrictMono encode := fun l m h =>
  Lexicographic.flatMap_lt (f := encodeChar) (fun c => by unfold encodeChar; split_ifs <;> simp) h
    fun _ _ _ _ _ _ _ hcd => encodeChar_lt hcd

-- The characters whose code units are out of order: a surrogate pair stands below `U+E000`.
def Inverted (c d : Char) : Prop := 65536 ≤ c.toNat ∧ 57344 ≤ d.toNat ∧ d.toNat < 65536

theorem utf16_lt {c d : Char} (h : Inverted c d ∨ c < d ∧ ¬ Inverted d c) (s t : JsString) :
    utf16 c ++ s < utf16 d ++ t := by
  have hc : c.toNat < 55296 ∨ 57343 < c.toNat ∧ c.toNat < 1114112 := c.valid
  have hd : d.toNat < 55296 ∨ 57343 < d.toNat ∧ d.toNat < 1114112 := d.valid
  have hlt : c < d ↔ c.toNat < d.toNat := Iff.rfl
  rw [hlt, Inverted, Inverted] at h
  unfold utf16
  split_ifs <;>
    simp only [List.cons_append, List.nil_append, List.cons_lt_cons_iff, Fin.lt_def, Fin.ext_iff,
      Fin.val_ofNat] <;>
    omega

def Crossing (p q : JsString) : Prop :=
  ∃ common c d s t, p.chars = common ++ c :: s ∧ q.chars = common ++ d :: t ∧ Inverted c d

theorem utf16Text_lt {p q : JsString} (h : p.chars < q.chars) (hcrossing : ¬ Crossing q p) :
    utf16Text p.chars < utf16Text q.chars := by
  refine Lexicographic.flatMap_lt (fun c => by unfold utf16; split_ifs <;> simp) h ?_
  intro common c d s t hp hq hcd
  exact utf16_lt (.inr ⟨hcd, fun hinverted => hcrossing ⟨common, d, c, t, s, hq, hp, hinverted⟩⟩)

theorem Crossing.utf16Text_lt {p q : JsString} (h : Crossing p q) :
    utf16Text p.chars < utf16Text q.chars ∧ q.chars < p.chars := by
  obtain ⟨common, c, d, s, t, hp, hq, hinverted⟩ := h
  rw [hp, hq]
  have hdc : d < c := show d.toNat < c.toNat from lt_of_lt_of_le hinverted.2.2 hinverted.1
  constructor
  · rw [utf16Text, utf16Text, List.flatMap_append, List.flatMap_append, List.flatMap_cons,
      List.flatMap_cons]
    exact List.append_left_lt (utf16_lt (.inl hinverted) _ _)
  · exact List.append_left_lt (List.cons_lt_cons_iff.mpr (.inl hdc))

end Encodings

section Orders

variable {runtime : ScriptRuntime}

theorem splitGitPaths_ok {label : String} {pending raw : Bytes} {paths : List JsString}
    (h : splitGitPaths runtime label pending raw = .ok paths) :
    ∀ path ∈ paths, ∃ bytes, gitPath runtime label bytes = .ok path := by
  induction raw generalizing pending paths with
  | nil =>
    obtain rfl := Except.ok.inj h
    simp
  | cons b raw ih =>
    rw [splitGitPaths] at h
    split at h
    · obtain ⟨path, hpath, h⟩ := Except.bind_eq_ok.mp h
      obtain ⟨rest, hrest, h⟩ := Except.bind_eq_ok.mp h
      obtain rfl := Except.ok.inj h
      exact List.forall_mem_cons.mpr ⟨⟨pending, hpath⟩, ih hrest⟩
    · exact ih h

structure Reported (runtime : ScriptRuntime) (path : JsString) : Prop where
  text : utf16Text path.chars = path
  safe : isSafeRepositoryPath runtime path = true

theorem gitPaths_reported {label : String} {raw : Bytes} {paths : List JsString}
    (h : gitPaths runtime label raw = .ok paths) : ∀ path ∈ paths, Reported runtime path := by
  unfold gitPaths at h
  split at h
  · obtain rfl := Except.ok.inj h
    simp
  · split at h
    · cases h
    · obtain ⟨texts, htexts, h⟩ := Except.bind_eq_ok.mp h
      split at h
      · obtain rfl := Except.ok.inj h
        intro path hpath
        obtain ⟨bytes, hbytes⟩ := splitGitPaths_ok htexts path hpath
        obtain ⟨htext, hsafe⟩ := gitPath_eq_ok.mp hbytes
        rw [decodeText_eq] at htext
        obtain ⟨chars, -, rfl⟩ := Option.map_eq_some_iff.mp htext
        exact ⟨by rw [JsString.chars_utf16Text], hsafe⟩
      · cases h

theorem isCanonicalUniqueStrings_ofStrings {strings : List JsString} :
    isCanonicalUniqueStrings runtime (.ofStrings strings) = true ↔
      strings.Nodup ∧ JsString.sort strings = strings := by
  have hstrings (l : List JsString) : (l.map fun s => (SlotKind.data, JsValue.string s)).mapM
      (fun slot => slot.2.isString) = some l := by
    induction l with
    | nil => rfl
    | cons s l ih =>
      rw [List.map_cons, List.mapM_cons, ih]
      rfl
  have hsame : sameJson runtime (.ofStrings (JsString.sort strings)) (.ofStrings strings) = true ↔
      JsString.sort strings = strings :=
    ⟨eq_of_sameJson, fun h => by rw [h]; exact beq_self_eq_true _⟩
  rw [JsValue.ofStrings, isCanonicalUniqueStrings, hstrings]
  simp only [Bool.and_eq_true, decide_eq_true_eq]
  exact and_congr_right fun _ => hsame

theorem nodup_eraseDups (l : List JsString) : l.eraseDups.Nodup := by
  induction hlength : l.length using Nat.strong_induction_on generalizing l with
  | _ n ih =>
    cases l with
    | nil => exact List.nodup_nil
    | cons a l =>
      have hshorter : (l.filter fun b => !b == a).length < n := by
        have := List.length_filter_le (fun b => !b == a) l
        rw [List.length_cons] at hlength
        omega
      rw [List.eraseDups_cons]
      exact List.nodup_cons.mpr ⟨by simp, ih _ hshorter _ rfl⟩

theorem changedPathsFrom_ok {committedDiff worktreeDiff untrackedFiles : Bytes}
    {tracked worktree untracked : List JsString}
    (htracked : gitPaths runtime "COMMITTED_DIFF" committedDiff = .ok tracked)
    (hworktree : gitPaths runtime "WORKTREE_DIFF" worktreeDiff = .ok worktree)
    (huntracked : gitPaths runtime "UNTRACKED_FILES" untrackedFiles = .ok untracked) :
    changedPathsFrom runtime committedDiff worktreeDiff untrackedFiles =
      .ok (sortCanonicalPaths (tracked ++ worktree ++ untracked).eraseDups) := by
  rw [changedPathsFrom, htracked, Except.ok_bind, hworktree, Except.ok_bind, huntracked]
  rfl

theorem sort_sortCanonicalPaths {paths : List JsString}
    (h : ∀ path ∈ paths, Reported runtime path) :
    JsString.sort (sortCanonicalPaths paths) = sortCanonicalPaths paths ↔
      ∀ p ∈ paths, ∀ q ∈ paths, ¬ Crossing p q := by
  have hperm : (sortCanonicalPaths paths).Perm paths := sortBy_perm _ _
  have hsorted : (sortCanonicalPaths paths).Pairwise fun p q => p.utf8 ≤ q.utf8 :=
    sortBy_pairwise _ _
  constructor
  · intro hsame p hp q hq hcrossing
    obtain ⟨hunits, hchars⟩ := hcrossing.utf16Text_lt
    rw [(h p hp).text, (h q hq).text] at hunits
    have hbytes : q.utf8 < p.utf8 := encode_strictMono hchars
    have hunitsSorted := JsString.sort_pairwise (sortCanonicalPaths paths)
    rw [hsame] at hunitsSorted
    have hagree : ∀ ⦃p⦄, p ∈ sortCanonicalPaths paths → ∀ ⦃q⦄, q ∈ sortCanonicalPaths paths →
        ¬ (q.utf8 < p.utf8 ∧ p < q) :=
      List.Pairwise.forall_of_forall_of_flip (fun p _ h => lt_irrefl p h.2)
        (hsorted.imp fun hpq h => absurd h.1 (not_lt_of_ge hpq))
        (hunitsSorted.imp fun hpq h => absurd h.2 (not_lt_of_ge hpq))
    exact hagree (hperm.mem_iff.mpr hp) (hperm.mem_iff.mpr hq) ⟨hbytes, hunits⟩
  · intro hcrossing
    refine sortBy_eq_self ((hsorted.imp_of_mem fun {p q} hp hq hpq => ?_))
    have hp := hperm.mem_iff.mp hp
    have hq := hperm.mem_iff.mp hq
    obtain hlt | heq := lt_or_eq_of_le (encode_strictMono.le_iff_le.mp hpq)
    · have hunits := utf16Text_lt hlt (hcrossing q hq p hp)
      rw [(h p hp).text, (h q hq).text] at hunits
      exact hunits.le
    · exact le_of_eq (by rw [← (h p hp).text, heq, (h q hq).text])

theorem validate_nonCanonical {paths allowed : List JsString} {exact : Option (List JsString)} :
    .nonCanonical ∉ validateGovernanceAmendmentChangedPaths runtime paths allowed exact ↔
      isCanonicalUniqueStrings runtime (.ofStrings paths) = true := by
  have hpaths : .nonCanonical ∉ paths.flatMap (changedPathViolations runtime allowed) := by
    intro h
    obtain ⟨path, -, h⟩ := List.mem_flatMap.mp h
    unfold changedPathViolations at h
    split_ifs at h <;> simp at h
  have hexact : .nonCanonical ∉ (exact.map (exactPathViolations paths)).getD [] := by
    cases exact <;> simp [exactPathViolations]
  rw [validateGovernanceAmendmentChangedPaths]
  split
  · rename_i hcanonical
    simp [hpaths, hexact, hcanonical]
  · rename_i hcanonical
    simp [hcanonical]

theorem validate_exact {paths allowed exact : List JsString}
    (hcanonical : isCanonicalUniqueStrings runtime (.ofStrings paths) = true)
    (hsafe : ∀ path ∈ paths, isSafeRepositoryPath runtime path = true)
    (hallowed : ∀ path ∈ exact, path ∈ allowed) (hexact : ∀ path, path ∈ paths ↔ path ∈ exact) :
    validateGovernanceAmendmentChangedPaths runtime paths allowed (some exact) = [] := by
  have hpaths : paths.flatMap (changedPathViolations runtime allowed) = [] := by
    refine List.flatMap_eq_nil_iff.mpr fun path hpath => ?_
    rw [changedPathViolations, hsafe path hpath, Bool.not_true, if_neg Bool.false_ne_true,
      if_neg (not_not.mpr (hallowed path ((hexact path).mp hpath)))]
  have hboth : exactPathViolations paths exact = [] := by
    simp [exactPathViolations, hexact]
  rw [validateGovernanceAmendmentChangedPaths, if_pos hcanonical, hpaths, Option.map_some, hboth]
  rfl

def OrdersAgree (runtime : ScriptRuntime) (committedDiff worktreeDiff untrackedFiles : Bytes) :
    Prop :=
  ∃ paths, changedPathsFrom runtime committedDiff worktreeDiff untrackedFiles = .ok paths ∧
    isCanonicalUniqueStrings runtime (.ofStrings paths) = true ∧
    (∀ allowed exact, .nonCanonical ∉
      validateGovernanceAmendmentChangedPaths runtime paths allowed exact) ∧
    ∀ allowed exact, (∀ path ∈ exact, path ∈ allowed) → (∀ path, path ∈ paths ↔ path ∈ exact) →
      validateGovernanceAmendmentChangedPaths runtime paths allowed (some exact) = []

theorem path_orders_agree (runtime : ScriptRuntime)
    (committedDiff worktreeDiff untrackedFiles : Bytes) (tracked worktree untracked : List JsString)
    (htracked : gitPaths runtime "COMMITTED_DIFF" committedDiff = .ok tracked)
    (hworktree : gitPaths runtime "WORKTREE_DIFF" worktreeDiff = .ok worktree)
    (huntracked : gitPaths runtime "UNTRACKED_FILES" untrackedFiles = .ok untracked) :
    OrdersAgree runtime committedDiff worktreeDiff untrackedFiles ↔
      ∀ p ∈ tracked ++ worktree ++ untracked, ∀ q ∈ tracked ++ worktree ++ untracked,
        ¬ Crossing p q := by
  have hreported : ∀ path ∈ tracked ++ worktree ++ untracked, Reported runtime path := by
    simp only [List.forall_mem_append]
    exact ⟨⟨gitPaths_reported htracked, gitPaths_reported hworktree⟩, gitPaths_reported huntracked⟩
  have hperm : (sortCanonicalPaths (tracked ++ worktree ++ untracked).eraseDups).Perm
      (tracked ++ worktree ++ untracked).eraseDups := sortBy_perm _ _
  have hchanged := changedPathsFrom_ok htracked hworktree huntracked
  have hsort := @sort_sortCanonicalPaths runtime (tracked ++ worktree ++ untracked).eraseDups
    fun path hpath => hreported path (List.mem_eraseDups.mp hpath)
  simp only [List.mem_eraseDups] at hsort
  constructor
  · rintro ⟨paths, hpaths, hcanonical, -⟩
    obtain rfl := Except.ok.inj (hchanged.symm.trans hpaths)
    exact hsort.mp (isCanonicalUniqueStrings_ofStrings.mp hcanonical).2
  · intro hcrossing
    have hcanonical := (@isCanonicalUniqueStrings_ofStrings runtime _).mpr
      ⟨hperm.nodup_iff.mpr (nodup_eraseDups _), hsort.mpr hcrossing⟩
    refine ⟨_, hchanged, hcanonical, fun _ _ => validate_nonCanonical.mpr hcanonical,
      fun allowed exact hallowed hexact => ?_⟩
    refine validate_exact hcanonical (fun path hpath => ?_) hallowed hexact
    exact (hreported path (List.mem_eraseDups.mp (hperm.mem_iff.mp hpath))).safe

-- `U+E000` and `U+10000` are new files: their bytes are in the other order than their code units.
theorem crossing_paths_refused :
    ¬ OrdersAgree sampleScript [] [] [238, 128, 128, 0, 240, 144, 128, 128, 0] := by
  rintro ⟨paths, hpaths, hcanonical, -⟩
  have hchanged : changedPathsFrom sampleScript [] [] [238, 128, 128, 0, 240, 144, 128, 128, 0] =
      .ok [[57344], [55296, 56320]] := by decide
  obtain rfl := Except.ok.inj (hchanged.symm.trans hpaths)
  revert hcanonical
  decide

theorem not_crossing {p q : JsString}
    (h : q.chars.all (fun d => d.toNat < 57344 || 65536 ≤ d.toNat) = true) : ¬Crossing p q := by
  rintro ⟨common, c, d, s, t, -, hq, -, hleast, hmost⟩
  have hd := List.all_eq_true.mp h d (hq ▸ List.mem_append_right _ (List.mem_cons_self ..))
  rw [Bool.or_eq_true, decide_eq_true_eq, decide_eq_true_eq] at hd
  omega

theorem sample_path_orders_agree :
    OrdersAgree sampleScript [97, 0] [240, 144, 128, 128, 0] [195, 169, 0] := by
  have hplain : ∀ q ∈ [js "a"] ++ [[55296, 56320]] ++ [[233]],
      (JsString.chars q).all (fun d => d.toNat < 57344 || 65536 ≤ d.toNat) = true := by decide
  exact (path_orders_agree sampleScript [97, 0] [240, 144, 128, 128, 0] [195, 169, 0] [js "a"]
    [[55296, 56320]] [[233]] (by decide) (by decide) (by decide)).mpr
      fun p _ q hq => not_crossing (hplain q hq)

end Orders

end ScopePolicy

end Aseos
