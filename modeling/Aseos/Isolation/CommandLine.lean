import Mathlib.Data.List.TakeWhile
import Aseos.Js.Text
import Aseos.Library.Arguments

namespace Aseos.Isolation

namespace NetChar

def quote : CodeUnit := 34

def backslash : CodeUnit := 92

-- Char.IsWhiteSpace: the categories Zs, Zl and Zp, U+0009 to U+000D and U+0085.
def isWhiteSpace (c : CodeUnit) : Bool :=
  (9 ≤ c.val && c.val ≤ 13) || c.val == 32 || c.val == 133 || c.val == 160 || c.val == 5760 ||
    (8192 ≤ c.val && c.val ≤ 8202) || c.val == 8232 || c.val == 8233 || c.val == 8239 ||
    c.val == 8287 || c.val == 12288

end NetChar

-- The StringBuilder of Quote and its count of the backslashes that wait.
structure Quoting where
  output : JsString := [NetChar.quote]
  slashes : ℕ := 0

def Quoting.append (q : Quoting) (character : CodeUnit) : Quoting :=
  if character = NetChar.backslash then { q with slashes := q.slashes + 1 }
  else if character = NetChar.quote then
    { output := q.output ++ List.replicate (q.slashes * 2 + 1) NetChar.backslash ++
        [NetChar.quote] }
  else { output := q.output ++ List.replicate q.slashes NetChar.backslash ++ [character] }

def Quoting.close (q : Quoting) : JsString :=
  q.output ++ List.replicate (q.slashes * 2) NetChar.backslash ++ [NetChar.quote]

def needsNoQuotes (value : JsString) : Bool :=
  0 < value.length && value.all fun c => !NetChar.isWhiteSpace c && c != NetChar.quote

def quote (value : JsString) : JsString :=
  if needsNoQuotes value then value
  else (value.foldl Quoting.append {}).close

-- String.Join(" ", values.Select(Quote)).
def joinQuoted (values : List JsString) : JsString := [32].intercalate (values.map quote)

def commandLine (executable : JsString) (arguments : Option (List JsString)) : JsString :=
  joinQuoted (executable :: arguments.getD [])

-- CommandLineToArgvW behind the program name: a blank or a tab separates, U+0000 ends the text.
def argvRules : ArgumentRules CodeUnit where
  backslash := NetChar.backslash
  quote := NetChar.quote
  separates c := c.val == 32 || c.val == 9
  ends c := c.val == 0
  quote_ne_backslash := by decide
  backslash_joins := by decide

theorem isWhiteSpace_of_separates {c : CodeUnit} (h : argvRules.separates c = true) :
    NetChar.isWhiteSpace c = true := by
  obtain h | h := Bool.or_eq_true_iff.mp h <;>
    simp [NetChar.isWhiteSpace, eq_of_beq h]

theorem needsNoQuotes_iff {value : JsString} :
    needsNoQuotes value = true ↔
      value ≠ [] ∧ ∀ c ∈ value, NetChar.isWhiteSpace c = false ∧ c ≠ NetChar.quote := by
  simp [needsNoQuotes, List.length_pos_iff]

theorem needsNoQuotes_plain {value : JsString} (h : needsNoQuotes value = true) :
    ∀ c ∈ value, c ≠ argvRules.quote ∧ argvRules.separates c = false := by
  intro c hc
  obtain ⟨hspace, hquote⟩ := (needsNoQuotes_iff.mp h).2 c hc
  refine ⟨hquote, Bool.eq_false_iff.mpr fun hsep => ?_⟩
  exact Bool.false_ne_true (hspace.symm.trans (isWhiteSpace_of_separates hsep))

section Quoted

open ArgumentReader

variable {finished : List JsString}

structure Quoting.Tracks (finished : List JsString) (q : Quoting) (value : JsString) : Prop where
  run : ∃ argument,
    ({ finished := finished } : ArgumentReader CodeUnit).run argvRules q.output =
      { quoted := true, argument := some argument, finished := finished } ∧
    argument ++ List.replicate q.slashes NetChar.backslash = value

theorem Quoting.Tracks.start : Quoting.Tracks finished {} [] :=
  ⟨[], by
    rw [show (({} : Quoting)).output = [argvRules.quote] from rfl, run_cons, run_nil,
      step_quote_even (n := 0) rfl]
    rfl, rfl⟩

theorem Quoting.Tracks.append {q : Quoting} {value : JsString} (h : q.Tracks finished value)
    (character : CodeUnit) : (q.append character).Tracks finished (value ++ [character]) := by
  obtain ⟨argument, hrun, rfl⟩ := h.run
  by_cases hb : character = NetChar.backslash
  · subst hb
    exact ⟨argument, by simpa [Quoting.append] using hrun, by
      simp [Quoting.append, List.replicate_succ']⟩
  by_cases hq : character = NetChar.quote
  · subst hq
    refine ⟨argument ++ List.replicate q.slashes NetChar.backslash ++ [NetChar.quote], ?_, ?_⟩
    · rw [Quoting.append, if_neg hb, if_pos rfl]
      rw [run_append, run_append, hrun, show NetChar.backslash = argvRules.backslash from rfl,
        run_slashes, show NetChar.quote = argvRules.quote from rfl, run_cons, run_nil,
        step_quote_odd (n := q.slashes) (by simp [Nat.mul_comm])]
      rfl
    · simp [Quoting.append, hb]
  · refine ⟨argument ++ List.replicate q.slashes NetChar.backslash ++ [character], ?_, ?_⟩
    · rw [Quoting.append, if_neg hb, if_neg hq]
      rw [run_append, run_append, hrun, show NetChar.backslash = argvRules.backslash from rfl,
        run_slashes, run_cons, run_nil, step_character hb hq (.inl rfl)]
      simp [ArgumentReader.text]
    · simp [Quoting.append, hb, hq]

theorem Quoting.tracks (value : JsString) :
    (value.foldl Quoting.append {}).Tracks finished value := by
  induction value using List.reverseRecOn with
  | nil => exact .start
  | append_singleton value character ih =>
    rw [List.foldl_append]
    exact ih.append character

theorem Quoting.Tracks.close {q : Quoting} {value : JsString} (h : q.Tracks finished value) :
    (({ finished := finished } : ArgumentReader CodeUnit).run argvRules q.close).Holds argvRules
      finished value := by
  obtain ⟨argument, hrun, rfl⟩ := h.run
  rw [Quoting.close, run_append, run_append, hrun,
    show NetChar.backslash = argvRules.backslash from rfl, run_slashes,
    show NetChar.quote = argvRules.quote from rfl, run_cons, run_nil,
    step_quote_even (n := q.slashes) (by simp [Nat.mul_comm])]
  exact ⟨rfl, rfl, by simp [ArgumentReader.text], rfl⟩

theorem quote_holds (value : JsString) :
    (({ finished := finished } : ArgumentReader CodeUnit).run argvRules (quote value)).Holds
      argvRules finished value := by
  rw [quote]
  split
  · rename_i h
    obtain ⟨c, s, rfl⟩ := List.exists_cons_of_ne_nil (needsNoQuotes_iff.mp h).1
    exact run_plain (needsNoQuotes_plain h)
  · exact (Quoting.tracks value).close

end Quoted

section Terminator

variable {value : JsString}

theorem Quoting.append_output {q : Quoting} (hq : ∀ c ∈ q.output, argvRules.ends c = false)
    {character : CodeUnit} (hc : argvRules.ends character = false) :
    ∀ c ∈ (q.append character).output, argvRules.ends c = false := by
  unfold Quoting.append
  split
  · exact hq
  split <;>
    · simp only [List.forall_mem_append, List.forall_mem_singleton, List.mem_replicate]
      refine ⟨⟨hq, ?_⟩, by first | exact hc | rfl⟩
      rintro c ⟨-, rfl⟩
      rfl

theorem Quoting.output_goesOn (h : ∀ c ∈ value, argvRules.ends c = false) :
    ∀ c ∈ (value.foldl Quoting.append {}).output, argvRules.ends c = false := by
  induction value using List.reverseRecOn with
  | nil => exact fun c hc => List.mem_singleton.mp hc ▸ rfl
  | append_singleton value character ih =>
    obtain ⟨hvalue, hc⟩ := List.forall_mem_append.mp h
    rw [List.foldl_append]
    exact append_output (ih hvalue) (hc character List.mem_cons_self)

theorem quote_goesOn (h : ∀ c ∈ value, argvRules.ends c = false) :
    ∀ c ∈ quote value, argvRules.ends c = false := by
  rw [quote]
  split
  · exact h
  simp only [Quoting.close, List.forall_mem_append, List.forall_mem_singleton,
    List.mem_replicate]
  refine ⟨⟨Quoting.output_goesOn h, ?_⟩, rfl⟩
  rintro c ⟨-, rfl⟩
  rfl

theorem joinQuoted_goesOn {values : List JsString}
    (h : ∀ value ∈ values, ∀ c ∈ value, argvRules.ends c = false) :
    ∀ c ∈ joinQuoted values, argvRules.ends c = false := by
  induction values with
  | nil => exact fun c hc => absurd hc List.not_mem_nil
  | cons value values ih =>
    obtain ⟨hvalue, hvalues⟩ := List.forall_mem_cons.mp h
    cases values with
    | nil => simpa [joinQuoted] using quote_goesOn hvalue
    | cons next values =>
      have hrest := ih hvalues
      rw [joinQuoted, List.map_cons] at hrest
      rw [joinQuoted, List.map_cons, List.map_cons, List.intercalate_cons_cons]
      exact List.forall_mem_append.mpr ⟨List.forall_mem_append.mpr
        ⟨quote_goesOn hvalue, fun c hc => List.mem_singleton.mp hc ▸ rfl⟩, hrest⟩

end Terminator

theorem quoted_arguments_round_trip {values : List JsString} (h : ∀ value ∈ values, 0 ∉ value) :
    argvRules.arguments (joinQuoted values) = values := by
  have hgoes : ∀ value ∈ values, ∀ c ∈ value, argvRules.ends c = false := by
    refine fun value hv c hc => Bool.eq_false_iff.mpr fun h0 => h value hv ?_
    rwa [show c = 0 from Fin.ext (eq_of_beq h0)] at hc
  have htext : (joinQuoted values).takeWhile (fun c => !argvRules.ends c) = joinQuoted values :=
    List.takeWhile_eq_self_iff.mpr fun c hc => by simp [joinQuoted_goesOn hgoes c hc]
  rw [ArgumentRules.arguments, htext]
  have hrun := @ArgumentRules.run_intercalate _ argvRules _ quote 32 (by decide) rfl values
    (fun argument _ finished => quote_holds argument) []
  exact hrun

theorem sample_arguments_round_trip :
    argvRules.arguments (joinQuoted [js "a b\\", [], js "\\\"", js "c\\"]) =
      [js "a b\\", [], js "\\\"", js "c\\"] :=
  quoted_arguments_round_trip (by decide)

end Aseos.Isolation
