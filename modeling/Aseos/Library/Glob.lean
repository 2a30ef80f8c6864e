import Mathlib.Data.List.Forall2
import Aseos.Library.Regex

namespace Aseos

namespace Regex

variable {α : Type*}

theorem mem_lang_all {rs : List (Regex α)} {w : List α} :
    w ∈ (all rs).lang ↔
      ∃ parts : List (List α), w = parts.flatten ∧
        List.Forall₂ (fun r part => part ∈ r.lang) rs parts := by
  induction rs generalizing w with
  | nil => simp [all]
  | cons r rs ih =>
    have hseq : (all (r :: rs)).lang = (seq r (all rs)).lang := by
      cases rs with
      | nil => exact (mul_one r.lang).symm
      | cons s rs => rfl
    rw [hseq, mem_lang_seq]
    constructor
    · rintro ⟨u, hu, v, hv, rfl⟩
      obtain ⟨parts, rfl, hparts⟩ := ih.mp hv
      exact ⟨u :: parts, rfl, .cons hu hparts⟩
    · rintro ⟨parts, rfl, hparts⟩
      cases hparts with
      | cons hu hparts => exact ⟨_, hu, _, ih.mpr ⟨_, rfl, hparts⟩, rfl⟩

theorem mem_lang_star_one {p : α → Bool} {w : List α} :
    w ∈ (star (one p)).lang ↔ ∀ a ∈ w, p a = true := by
  induction w with
  | nil => simpa using mem_lang_star.mpr ⟨[], rfl, by simp⟩
  | cons a w ih =>
    rw [cons_mem_lang_star, List.forall_mem_cons, ← ih]
    constructor
    · rintro ⟨u, ⟨b, hb, hab⟩, v, hv, rfl⟩
      obtain ⟨rfl, rfl⟩ := List.cons.inj hab
      exact ⟨hb, hv⟩
    · rintro ⟨ha, hw⟩
      exact ⟨[], ⟨a, ha, rfl⟩, w, hw, rfl⟩

end Regex

inductive GlobToken (α : Type*) where
  | anything
  | segment
  | character
  | literal (c : α)

structure GlobAlphabet (α : Type*) where
  wildcard : α
  single : α
  separator : α

namespace GlobAlphabet

variable {α : Type*} (alphabet : GlobAlphabet α)

section Reading

variable [DecidableEq α]

-- Pairs of wildcards are read from left to right.
def tokens : List α → List (GlobToken α)
  | [] => []
  | [c] =>
      if c = alphabet.wildcard then [.segment]
      else if c = alphabet.single then [.character]
      else [.literal c]
  | c :: d :: pattern =>
      if c = alphabet.wildcard then
        if d = alphabet.wildcard then .anything :: tokens pattern
        else .segment :: tokens (d :: pattern)
      else if c = alphabet.single then .character :: tokens (d :: pattern)
      else .literal c :: tokens (d :: pattern)

theorem tokens_cons_of_ne {c : α} (hc : c ≠ alphabet.wildcard) (pattern : List α) :
    alphabet.tokens (c :: pattern) =
      (if c = alphabet.single then .character else .literal c) :: alphabet.tokens pattern := by
  cases pattern <;> simp only [tokens, if_neg hc] <;> split <;> rfl

theorem literal_mem_tokens {pattern : List α} {c : α}
    (h : GlobToken.literal c ∈ alphabet.tokens pattern) :
    c ≠ alphabet.wildcard ∧ c ≠ alphabet.single := by
  fun_induction tokens alphabet pattern <;> grind

end Reading

def Stands (crossed : α → Prop) : GlobToken α → List α → Prop
  | .anything, part => ∀ c ∈ part, crossed c
  | .segment, part => alphabet.separator ∉ part
  | .character, part => ∃ c, c ≠ alphabet.separator ∧ part = [c]
  | .literal c, part => part = [c]

def TokensMatch (crossed : α → Prop) (l : List (GlobToken α)) (path : List α) : Prop :=
  ∃ parts : List (List α), path = parts.flatten ∧ List.Forall₂ (alphabet.Stands crossed) l parts

def Matches [DecidableEq α] (pattern path : List α) : Prop :=
  alphabet.TokensMatch (fun _ => True) (alphabet.tokens pattern) path

variable {alphabet}

theorem Stands.mono {crossed crossed' : α → Prop} {token : GlobToken α} {part : List α}
    (h : alphabet.Stands crossed token part) (hc : ∀ c ∈ part, crossed c → crossed' c) :
    alphabet.Stands crossed' token part := by
  cases token with
  | anything => exact fun c hmem => hc c hmem (h c hmem)
  | segment => exact h
  | character => exact h
  | literal c => exact h

theorem TokensMatch.mono {crossed crossed' : α → Prop} {l : List (GlobToken α)} {path : List α}
    (h : alphabet.TokensMatch crossed l path) (hc : ∀ c ∈ path, crossed c → crossed' c) :
    alphabet.TokensMatch crossed' l path := by
  obtain ⟨parts, rfl, hparts⟩ := h
  refine ⟨parts, rfl, ?_⟩
  induction hparts with
  | nil => exact .nil
  | @cons token part l parts hpart _ ih =>
    rw [List.flatten_cons] at hc
    exact .cons (hpart.mono fun c hmem => hc c (List.mem_append_left _ hmem))
      (ih fun c hmem => hc c (List.mem_append_right _ hmem))

section Expression

variable [DecidableEq α] (alphabet) (crossed : α → Bool)

def expression : GlobToken α → Regex α
  | .anything => .star (.one crossed)
  | .segment => .star (.one fun c => c ≠ alphabet.separator)
  | .character => .one fun c => c ≠ alphabet.separator
  | .literal c => .one (· = c)

variable {alphabet crossed}

theorem mem_lang_expression {token : GlobToken α} {part : List α} :
    part ∈ (alphabet.expression crossed token).lang ↔
      alphabet.Stands (fun c => crossed c = true) token part := by
  cases token with
  | anything => exact Regex.mem_lang_star_one
  | segment =>
    rw [expression, Regex.mem_lang_star_one, Stands]
    constructor
    · exact fun h hmem => of_decide_eq_true (h _ hmem) rfl
    · exact fun h c hmem => decide_eq_true fun hc => h (hc ▸ hmem)
  | character => simp [expression, Stands]
  | literal c => simp [expression, Stands]

theorem mem_lang_expressions {l : List (GlobToken α)} {path : List α} :
    path ∈ (Regex.all (l.map (alphabet.expression crossed))).lang ↔
      alphabet.TokensMatch (fun c => crossed c = true) l path := by
  rw [Regex.mem_lang_all]
  refine exists_congr fun parts => and_congr_right fun _ => ?_
  rw [List.forall₂_map_left_iff]
  simp only [mem_lang_expression]

end Expression

end GlobAlphabet

end Aseos
