import Aseos.Release.CanonicalEncoders
import Aseos.Toolchain.AuthorityLock

namespace Aseos

namespace ScopePolicy

open Release (decodeText)

abbrev Bytes := List Utf8.Byte

inductive GitPathError where
  | unterminated (label : String)
  | nonUtf8 (label : String)
  | nonCanonical (path : JsString)
  | duplicate (label : String)
  deriving DecidableEq

def GitPathError.message : GitPathError → JsString
  | .unterminated label => js ("UNTERMINATED_GIT_PATH_OUTPUT: " ++ label)
  | .nonUtf8 label => js ("NON_UTF8_GIT_PATH: " ++ label)
  | .nonCanonical path => js "NON_CANONICAL_GIT_PATH: " ++ JsonText.quote path
  | .duplicate label => js ("DUPLICATE_GIT_PATH: " ++ label)

section Decoding

variable (runtime : ScriptRuntime) (label : String)

def gitPath (bytes : Bytes) : Except GitPathError JsString :=
  match decodeText bytes with
  | none => .error (.nonUtf8 label)
  | some path =>
      if isSafeRepositoryPath runtime path then .ok path else .error (.nonCanonical path)

-- The bytes still to come, after those of an unfinished path.
def splitGitPaths : Bytes → Bytes → Except GitPathError (List JsString)
  | _, [] => .ok []
  | pending, b :: bytes =>
      if b = 0 then do
        let path ← gitPath runtime label pending
        let paths ← splitGitPaths [] bytes
        return path :: paths
      else splitGitPaths (pending ++ [b]) bytes

-- `raw` is what git has written.
def gitPaths (raw : Bytes) : Except GitPathError (List JsString) :=
  if raw = [] then .ok []
  else if raw.getLast? ≠ some 0 then .error (.unterminated label)
  else do
    let paths ← splitGitPaths runtime label [] raw
    if paths.Nodup then return paths else .error (.duplicate label)

end Decoding

section Lists

variable {runtime : ScriptRuntime} {label : String}

-- A path list as git writes it.
def terminated (paths : List Bytes) : Bytes := paths.flatMap (· ++ [0])

theorem splitGitPaths_terminated {paths : List Bytes} (h : ∀ path ∈ paths, 0 ∉ path) :
    splitGitPaths runtime label [] (terminated paths) = paths.mapM (gitPath runtime label) := by
  have hpath (pending path rest : Bytes) (hpath : 0 ∉ path) :
      splitGitPaths runtime label pending (path ++ 0 :: rest) =
        (gitPath runtime label (pending ++ path) >>= fun text =>
          splitGitPaths runtime label [] rest >>= fun texts => .ok (text :: texts)) := by
    induction path generalizing pending with
    | nil =>
      rw [List.nil_append, splitGitPaths, if_pos rfl, List.append_nil]
      rfl
    | cons b path ih =>
      obtain ⟨hb, hpath⟩ := not_or.mp (mt List.mem_cons.mpr hpath)
      rw [List.cons_append, splitGitPaths, if_neg (Ne.symm hb), ih _ hpath, List.append_assoc]
      rfl
  induction paths with
  | nil => rfl
  | cons path paths ih =>
    obtain ⟨hfirst, hrest⟩ := List.forall_mem_cons.mp h
    rw [terminated, List.flatMap_cons, List.append_assoc, List.singleton_append,
      hpath [] path _ hfirst, List.nil_append, ← terminated, ih hrest, List.mapM_cons]
    rfl

theorem gitPaths_terminated {paths : List Bytes} (h : ∀ path ∈ paths, 0 ∉ path) :
    gitPaths runtime label (terminated paths) =
      (paths.mapM (gitPath runtime label) >>= fun texts =>
        if texts.Nodup then .ok texts else .error (.duplicate label)) := by
  rw [gitPaths, splitGitPaths_terminated h]
  cases paths using List.reverseRecOn with
  | nil => rfl
  | append_singleton paths path _ =>
    have hlast : (terminated (paths ++ [path])).getLast? = some 0 := by simp [terminated]
    rw [if_neg (by intro hnil; rw [hnil] at hlast; cases hlast), if_neg (by simpa using hlast)]
    rfl

theorem gitPath_eq_ok {bytes : Bytes} {path : JsString} :
    gitPath runtime label bytes = .ok path ↔
      decodeText bytes = some path ∧ isSafeRepositoryPath runtime path = true := by
  unfold gitPath
  split
  · rename_i hnone
    simp [hnone]
  · rename_i text htext
    rw [htext]
    split
    · rename_i hsafe
      exact ⟨fun h => ⟨congrArg some (Except.ok.inj h), Except.ok.inj h ▸ hsafe⟩,
        fun h => congrArg _ (Option.some.inj h.1)⟩
    · rename_i hunsafe
      constructor
      · intro h
        cases h
      · exact fun h => absurd (Option.some.inj h.1 ▸ h.2) hunsafe

theorem gitPaths_eq_ok {paths : List Bytes} (h : ∀ path ∈ paths, 0 ∉ path)
    {texts : List JsString} : gitPaths runtime label (terminated paths) = .ok texts ↔
      List.Forall₂ (fun path text => decodeText path = some text ∧
        isSafeRepositoryPath runtime text = true) paths texts ∧ texts.Nodup := by
  rw [gitPaths_terminated h, Except.bind_eq_ok]
  constructor
  · rintro ⟨texts, htexts, h⟩
    split at h
    · rename_i hnodup
      obtain rfl := Except.ok.inj h
      exact ⟨(Except.mapM_eq_ok.mp htexts).imp fun _ _ => gitPath_eq_ok.mp, hnodup⟩
    · cases h
  · rintro ⟨htexts, hnodup⟩
    exact ⟨texts, Except.mapM_eq_ok.mpr (htexts.imp fun _ _ => gitPath_eq_ok.mpr), if_pos hnodup⟩

end Lists

section Marks

open Utf8 EventStream

def utf8Chars (bytes : Bytes) : Option (List Char) :=
  match decode [] bytes with
  | some (text, []) => some text
  | _ => none

def utf8Text (bytes : Bytes) : Option JsString := (utf8Chars bytes).map utf16Text

-- EF BB BF, which a decoder takes for the mark of the encoding.
def hasMark (bytes : Bytes) : Bool := [239, 187, 191].isPrefixOf bytes

theorem utf8Chars_eq_some {bytes : Bytes} {text : List Char} :
    utf8Chars bytes = some text ↔ bytes = encode text := by
  constructor
  · intro h
    unfold utf8Chars at h
    split at h
    · rename_i hdecode
      obtain rfl := Option.some.inj h
      simpa using decode_eq hdecode
    · cases h
  · rintro rfl
    rw [utf8Chars, decode_encode]

theorem utf8Text_eq_some {bytes : Bytes} {text : JsString} (h : utf8Text bytes = some text) :
    text.utf8 = bytes := by
  obtain ⟨chars, hchars, rfl⟩ := Option.map_eq_some_iff.mp h
  rw [JsString.utf8, JsString.chars_utf16Text, utf8Chars_eq_some.mp hchars]

theorem decodeText_eq (bytes : Bytes) :
    decodeText bytes = (utf8Chars bytes).map fun text => utf16Text (withoutMark true text) := by
  unfold decodeText utf8Chars
  cases decode [] bytes with
  | none => rfl
  | some p =>
    obtain ⟨text, held⟩ := p
    cases held <;> rfl

theorem hasMark_encode (text : List Char) :
    hasMark (encode text) = true ↔ text.head? = some byteOrderMark := by
  have hmark : encodeChar byteOrderMark = [239, 187, 191] := by decide
  constructor
  · intro h
    obtain ⟨rest, hrest⟩ := List.isPrefixOf_iff_prefix.mp h
    have hdecode := decode_encode text
    have hfirst : decode [] [239, 187, 191] = some ([byteOrderMark], []) := by decide
    rw [← hrest, decode_append, hfirst, Option.bind_some] at hdecode
    obtain ⟨q, -, hq⟩ := Option.map_eq_some_iff.mp hdecode
    rw [← (Prod.mk.inj hq).1]
    rfl
  · intro h
    obtain ⟨rest, rfl⟩ := List.head?_eq_some_iff.mp h
    rw [encode, List.flatMap_cons, hmark, hasMark]
    exact List.isPrefixOf_iff_prefix.mpr (List.prefix_append _ _)

theorem decodeText_of_not_hasMark {bytes : Bytes} (h : hasMark bytes = false) :
    decodeText bytes = utf8Text bytes := by
  rw [decodeText_eq, utf8Text]
  refine Option.map_congr fun text htext => ?_
  rw [utf8Chars_eq_some.mp htext] at h
  have hhead : text.head? ≠ some byteOrderMark := fun hhead => by
    rw [(hasMark_encode text).mpr hhead] at h
    cases h
  simp [withoutMark, hhead]

theorem utf8_of_hasMark {bytes : Bytes} {text : JsString} (hmark : hasMark bytes = true)
    (h : decodeText bytes = some text) : text.utf8 ≠ bytes := by
  rw [decodeText_eq] at h
  obtain ⟨chars, hchars, rfl⟩ := Option.map_eq_some_iff.mp h
  rw [utf8Chars_eq_some.mp hchars] at hmark ⊢
  obtain ⟨rest, rfl⟩ := List.head?_eq_some_iff.mp ((hasMark_encode chars).mp hmark)
  have hrest : withoutMark true (byteOrderMark :: rest) = rest := by simp [withoutMark]
  rw [hrest, JsString.utf8, JsString.chars_utf16Text]
  intro heq
  have hlength := congrArg List.length heq
  have hmarked : (encodeChar byteOrderMark).length = 3 := by decide
  rw [encode, encode, List.flatMap_cons, List.length_append, hmarked] at hlength
  omega

end Marks

section Faithfulness

variable {runtime : ScriptRuntime} {label : String} {paths : List Bytes}

structure PathList (paths : List Bytes) : Prop where
  distinct : paths.Nodup
  nonempty : ∀ path ∈ paths, path ≠ []
  unterminated : ∀ path ∈ paths, 0 ∉ path

def SafeText (runtime : ScriptRuntime) (text : Option JsString) : Prop :=
  ∃ path, text = some path ∧ isSafeRepositoryPath runtime path = true

def DecodesFaithfully (runtime : ScriptRuntime) (label : String) (paths : List Bytes) : Prop :=
  (∀ texts, gitPaths runtime label (terminated paths) = .ok texts →
    texts.map some = paths.map utf8Text ∧
      terminated (texts.map JsString.utf8) = terminated paths) ∧
  ((∀ path ∈ paths, SafeText runtime (utf8Text path)) →
    ∃ texts, gitPaths runtime label (terminated paths) = .ok texts)

def RefusedUnmarked (runtime : ScriptRuntime) (paths : List Bytes) : Prop :=
  (∃ path ∈ paths, ¬ SafeText runtime (decodeText path)) ∨ ¬ (paths.map decodeText).Nodup

theorem forall₂_of_safe (h : ∀ path ∈ paths, SafeText runtime (decodeText path)) :
    ∃ texts, texts.map some = paths.map decodeText ∧ List.Forall₂ (fun path text =>
      decodeText path = some text ∧ isSafeRepositoryPath runtime text = true) paths texts := by
  induction paths with
  | nil => exact ⟨[], rfl, .nil⟩
  | cons path paths ih =>
    obtain ⟨⟨text, htext, hsafe⟩, hrest⟩ := List.forall_mem_cons.mp h
    obtain ⟨texts, hmap, hall⟩ := ih hrest
    exact ⟨text :: texts, by rw [List.map_cons, List.map_cons, hmap, htext], .cons ⟨htext, hsafe⟩ hall⟩

theorem map_decodeText {texts : List JsString} (h : List.Forall₂ (fun path text =>
    decodeText path = some text ∧ isSafeRepositoryPath runtime text = true) paths texts) :
    paths.map decodeText = texts.map some := by
  induction h with
  | nil => rfl
  | cons hfirst _ ih => rw [List.map_cons, List.map_cons, hfirst.1, ih]

theorem gitPaths_returns_iff (h : PathList paths) :
    (∃ texts, gitPaths runtime label (terminated paths) = .ok texts) ↔
      ¬ RefusedUnmarked runtime paths := by
  constructor
  · rintro ⟨texts, htexts⟩
    obtain ⟨hall, hnodup⟩ := (gitPaths_eq_ok h.unterminated).mp htexts
    rintro (⟨path, hpath, hunsafe⟩ | hcollide)
    · obtain ⟨text, -, hsafe⟩ := forall₂_left hall path hpath
      exact hunsafe ⟨text, hsafe⟩
    · exact hcollide (map_decodeText hall ▸ hnodup.map (Option.some_injective _))
  · intro hrefused
    obtain ⟨hsafe, hnodup⟩ := not_or.mp hrefused
    obtain ⟨texts, htexts, hall⟩ := @forall₂_of_safe runtime paths
      fun path hpath => by_contra fun hunsafe => hsafe ⟨path, hpath, hunsafe⟩
    refine ⟨texts, (gitPaths_eq_ok h.unterminated).mpr ⟨hall, ?_⟩⟩
    rw [not_not, ← htexts] at hnodup
    exact hnodup.of_map some

theorem refused_of_hasMark (h : PathList paths) (hfaithful : DecodesFaithfully runtime label paths)
    {path : Bytes} (hpath : path ∈ paths) (hmark : hasMark path = true) :
    RefusedUnmarked runtime paths := by
  by_contra hrefused
  obtain ⟨texts, htexts⟩ := (gitPaths_returns_iff h).mpr hrefused
  obtain ⟨hall, -⟩ := (gitPaths_eq_ok h.unterminated).mp htexts
  have hsame := (map_decodeText hall).trans (hfaithful.1 texts htexts).1
  obtain ⟨text, -, htext, -⟩ := forall₂_left hall path hpath
  exact utf8_of_hasMark hmark htext
    (utf8Text_eq_some (List.map_inj_left.mp hsame path hpath ▸ htext))

theorem faithful_of_not_hasMark (h : PathList paths) (hmark : ∀ path ∈ paths, hasMark path = false) :
    DecodesFaithfully runtime label paths := by
  have htext : ∀ path ∈ paths, decodeText path = utf8Text path := fun path hpath =>
    decodeText_of_not_hasMark (hmark path hpath)
  refine ⟨fun texts htexts => ?_, fun hsafe => (gitPaths_returns_iff h).mpr ?_⟩
  · obtain ⟨hall, -⟩ := (gitPaths_eq_ok h.unterminated).mp htexts
    have hsame : texts.map some = paths.map utf8Text :=
      (map_decodeText hall).symm.trans (List.map_inj_left.mpr htext)
    refine ⟨hsame, congrArg terminated ?_⟩
    have hbytes : List.Forall₂ (fun (path : Bytes) text => JsString.utf8 text = path) paths texts := by
      have heq := List.forall₂_eq_eq_eq ▸ hsame.symm
      rw [List.forall₂_map_left_iff, List.forall₂_map_right_iff] at heq
      exact heq.imp fun _ _ => utf8Text_eq_some
    clear hall hsame htexts h hmark htext
    induction hbytes with
    | nil => rfl
    | cons hfirst _ ih => rw [List.map_cons, hfirst, ih]
  · rintro (⟨path, hpath, hunsafe⟩ | hcollide)
    · exact hunsafe (htext path hpath ▸ hsafe path hpath)
    · refine hcollide (List.Nodup.map_on (fun p hp q hq heq => ?_) h.distinct)
      rw [htext p hp, htext q hq] at heq
      obtain ⟨text, hp, -⟩ := hsafe p hp
      rw [← utf8Text_eq_some hp, utf8Text_eq_some (heq ▸ hp)]

theorem git_paths_faithful (runtime : ScriptRuntime) (label : String) (paths : List Bytes)
    (h : PathList paths) : DecodesFaithfully runtime label paths ↔
      (∀ path ∈ paths, hasMark path = false) ∨
        RefusedUnmarked runtime paths ∧ ∃ path ∈ paths, ¬ SafeText runtime (utf8Text path) := by
  constructor
  · intro hfaithful
    by_cases hmarks : ∀ path ∈ paths, hasMark path = false
    · exact .inl hmarks
    · obtain ⟨path, hpath, hmark⟩ := not_forall₂.mp hmarks
      have hrefused := refused_of_hasMark h hfaithful hpath (Bool.eq_true_of_not_eq_false hmark)
      refine .inr ⟨hrefused, by_contra fun hsafe => ?_⟩
      refine (gitPaths_returns_iff h).mp (hfaithful.2 fun path hpath => ?_) hrefused
      exact by_contra fun hunsafe => hsafe ⟨path, hpath, hunsafe⟩
  · rintro (hmarks | ⟨hrefused, path, hpath, hunsafe⟩)
    · exact faithful_of_not_hasMark h hmarks
    · exact ⟨fun texts htexts => absurd hrefused ((gitPaths_returns_iff h).mp ⟨texts, htexts⟩),
        fun hsafe => absurd (hsafe path hpath) hunsafe⟩

theorem marked_path_renamed :
    ¬ DecodesFaithfully sampleScript "WORKTREE_DIFF" [[239, 187, 191, 97]] := by
  intro h
  have hpaths : gitPaths sampleScript "WORKTREE_DIFF" (terminated [[239, 187, 191, 97]]) =
      .ok [js "a"] := by decide +kernel
  have hsame := (h.1 _ hpaths).1
  revert hsame
  decide

theorem sample_git_paths_faithful :
    DecodesFaithfully sampleScript "WORKTREE_DIFF" [[97], [195, 169]] :=
  (git_paths_faithful sampleScript "WORKTREE_DIFF" [[97], [195, 169]]
    ⟨by decide, by decide, by decide⟩).mpr (.inl (by decide))

end Faithfulness

end ScopePolicy

end Aseos
