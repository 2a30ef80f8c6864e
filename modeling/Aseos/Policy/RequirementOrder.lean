import Aseos.Policy.Requirements
import Mathlib.Order.Bounds.Basic

namespace Aseos

section Extrema

variable {α : Type}

def GreatestOf [LE α] (s : Set α) : Option α → Prop
  | none => s = ∅
  | some a => IsGreatest s a

def LeastOf [LE α] (s : Set α) : Option α → Prop
  | none => s = ∅
  | some a => IsLeast s a

variable [PartialOrder α] {s : Set α} {a b : Option α}

theorem GreatestOf.unique (ha : GreatestOf s a) (hb : GreatestOf s b) : a = b := by
  cases a with
  | none =>
    obtain rfl : s = ∅ := ha
    cases b with
    | none => rfl
    | some b => exact absurd hb.1 (Set.notMem_empty b)
  | some a =>
    cases b with
    | none =>
      obtain rfl : s = ∅ := hb
      exact absurd ha.1 (Set.notMem_empty a)
    | some b => rw [IsGreatest.unique ha hb]

theorem LeastOf.unique (ha : LeastOf s a) (hb : LeastOf s b) : a = b :=
  GreatestOf.unique (α := αᵒᵈ) ha hb

end Extrema

namespace Policy

instance : PartialOrder IsolationLevel where
  le a b := a = b ∨ a = .processRestricted
  le_refl a := .inl rfl
  le_trans a b c := by
    rintro (rfl | rfl) (rfl | rfl) <;> simp
  le_antisymm a b := by
    rintro (rfl | rfl) (h | h) <;> simp_all

theorem IsolationLevel.le_def {a b : IsolationLevel} :
    a ≤ b ↔ a = b ∨ a = .processRestricted := Iff.rfl

theorem PositiveInteger.value_injective :
    Function.Injective fun n : PositiveInteger => n.number.value := by
  rintro ⟨⟨a, negA, _, hnegA⟩, hposA⟩ ⟨⟨b, negB, _, hnegB⟩, hposB⟩ (rfl : a = b)
  have hone : 1 ≤ a := by
    simp only [JsNumber.isPositiveSafeInteger, Bool.and_eq_true, decide_eq_true_eq] at hposA
    exact hposA.2
  have hne : a ≠ 0 := by
    rintro rfl
    norm_num at hone
  cases negA with
  | true => exact absurd (hnegA rfl) hne
  | false =>
    cases negB with
    | true => exact absurd (hnegB rfl) hne
    | false => rfl

instance : LinearOrder PositiveInteger :=
  LinearOrder.lift' (fun n => n.number.value) PositiveInteger.value_injective

def StringSet.elements (s : StringSet) : Set (Option JsString) :=
  {e | (∃ t ∈ s.strings, e = some t) ∨ 0 < s.holes ∧ e = none}

@[simp] theorem StringSet.some_mem_elements {s : StringSet} {t : JsString} :
    some t ∈ s.elements ↔ t ∈ s.strings := by
  simp [StringSet.elements]

@[simp] theorem StringSet.none_mem_elements {s : StringSet} :
    none ∈ s.elements ↔ 0 < s.holes := by
  simp [StringSet.elements]

def SortedUnion (elements : Set (Option JsString)) : Option StringSet → Prop
  | none => elements = ∅
  | some s => elements.Nonempty ∧ s.elements = elements

theorem StringSet.elements_injective : Function.Injective StringSet.elements := by
  intro s t h
  have hstrings : s.strings = t.strings := by
    refine List.Perm.eq_of_pairwise' s.sorted t.sorted
      ((List.perm_ext_iff_of_nodup s.nodup t.nodup).mpr fun e => ?_)
    rw [← StringSet.some_mem_elements, h, StringSet.some_mem_elements]
  have hholes : 0 < s.holes ↔ 0 < t.holes := by
    rw [← StringSet.none_mem_elements, h, StringSet.none_mem_elements]
  have hs := s.holes_le
  have ht := t.holes_le
  cases s
  cases t
  obtain rfl := hstrings
  congr
  dsimp only at *
  omega

theorem SortedUnion.unique {elements : Set (Option JsString)} {a b : Option StringSet}
    (ha : SortedUnion elements a) (hb : SortedUnion elements b) : a = b := by
  cases a with
  | none =>
    cases b with
    | none => rfl
    | some b => exact absurd hb.1 (Set.not_nonempty_iff_eq_empty.mpr ha)
  | some a =>
    cases b with
    | none => exact absurd ha.1 (Set.not_nonempty_iff_eq_empty.mpr hb)
    | some b => rw [StringSet.elements_injective (ha.2.trans hb.2.symm)]

namespace PolicyRequirements

def scopes (q : PolicyRequirements) : Set (Option JsString) :=
  {e | ∃ s ∈ q.permissionScopes, e ∈ s.elements}

-- `q ≤ r`: whatever satisfies `r` satisfies `q`.
instance : Preorder PolicyRequirements where
  le q r :=
    q.scopes ⊆ r.scopes ∧
    (∀ a ∈ q.minimumIsolationLevel, ∃ b ∈ r.minimumIsolationLevel, a ≤ b) ∧
    (∀ a ∈ q.timeoutMs, ∃ b ∈ r.timeoutMs, b ≤ a) ∧
    (∀ a ∈ q.maxConcurrency, ∃ b ∈ r.maxConcurrency, b ≤ a) ∧
    (q.postVerificationRequired = some true → r.postVerificationRequired = some true)
  le_refl q := ⟨subset_rfl, fun a ha => ⟨a, ha, le_rfl⟩, fun a ha => ⟨a, ha, le_rfl⟩,
    fun a ha => ⟨a, ha, le_rfl⟩, id⟩
  le_trans q r t := by
    rintro ⟨hscopes, hlevel, htimeout, hconcurrency, hpost⟩
      ⟨hscopes', hlevel', htimeout', hconcurrency', hpost'⟩
    refine ⟨hscopes.trans hscopes', fun a ha => ?_, fun a ha => ?_, fun a ha => ?_, hpost' ∘ hpost⟩
    · obtain ⟨b, hb, hab⟩ := hlevel a ha
      obtain ⟨c, hc, hbc⟩ := hlevel' b hb
      exact ⟨c, hc, hab.trans hbc⟩
    · obtain ⟨b, hb, hba⟩ := htimeout a ha
      obtain ⟨c, hc, hcb⟩ := htimeout' b hb
      exact ⟨c, hc, hcb.trans hba⟩
    · obtain ⟨b, hb, hba⟩ := hconcurrency a ha
      obtain ⟨c, hc, hcb⟩ := hconcurrency' b hb
      exact ⟨c, hc, hcb.trans hba⟩

end PolicyRequirements

section Demands

variable {α : Type} (field : PolicyRequirements → Option α) (rules : Set PolicyRequirements)

def demanded : Set α := {a | ∃ q ∈ rules, field q = some a}

def demandedScopes : Set (Option JsString) := {e | ∃ q ∈ rules, e ∈ q.scopes}

theorem demanded_insert (q : PolicyRequirements) :
    demanded field (insert q rules) = demanded field rules ∪ {a | field q = some a} := by
  ext a
  simp [demanded, or_comm]

theorem demandedScopes_insert (q : PolicyRequirements) :
    demandedScopes (insert q rules) = demandedScopes rules ∪ q.scopes := by
  ext e
  simp [demandedScopes, or_comm]

end Demands

theorem mergeIsolation_greatest {s : Set IsolationLevel}
    {isolation candidate merged : Option IsolationLevel} (h : GreatestOf s isolation)
    (hmerge : mergeIsolation isolation candidate = some merged) :
    GreatestOf (s ∪ {a | candidate = some a}) merged := by
  cases candidate with
  | none =>
    obtain rfl := Option.some.inj hmerge
    simpa using h
  | some candidate =>
    cases isolation with
    | none =>
      obtain rfl : s = ∅ := h
      obtain rfl := Option.some.inj hmerge
      simp [GreatestOf, IsGreatest, upperBounds]
    | some level =>
      by_cases hlevel : level = .processRestricted
      · -- Only PROCESS_RESTRICTED has been asked for, and it is below the candidate.
        subst hlevel
        obtain rfl := Option.some.inj hmerge
        refine ⟨.inr rfl, ?_⟩
        rintro a (ha | ha)
        · exact .inr ((h.2 ha).elim id id)
        · exact (Option.some.inj ha).ge
      · have hstay : merged = some level ∧ candidate ≤ level := by
          rw [IsolationLevel.le_def]
          cases level <;> cases candidate <;> simp_all [mergeIsolation]
        obtain ⟨rfl, hle⟩ := hstay
        refine ⟨.inl h.1, ?_⟩
        rintro a (ha | ha)
        · exact h.2 ha
        · exact Option.some.inj ha ▸ hle

theorem PositiveInteger.min_eq (a b : PositiveInteger) : a.min b = Min.min a b := by
  by_cases h : a ≤ b
  · rw [min_eq_left h]
    exact if_neg (not_lt.mpr h)
  · rw [min_eq_right (le_of_not_ge h)]
    exact if_pos (lt_of_not_ge h)

theorem mergeMinimum_least {s : Set PositiveInteger} {current : Option PositiveInteger}
    (h : LeastOf s current) (candidate : Option PositiveInteger) :
    LeastOf (s ∪ {a | candidate = some a}) (mergeMinimum current candidate) := by
  cases candidate with
  | none => cases current <;> simpa [mergeMinimum] using h
  | some candidate =>
    have hsingle : {a | some candidate = some a} = ({candidate} : Set PositiveInteger) := by
      ext a
      simp [eq_comm]
    rw [hsingle]
    cases current with
    | none =>
      obtain rfl : s = ∅ := h
      simp [mergeMinimum, LeastOf]
    | some current =>
      rw [mergeMinimum, PositiveInteger.min_eq]
      exact IsLeast.union h isLeast_singleton

structure Accumulates (rules : Set PolicyRequirements) (m : Merge) : Prop where
  strings : ∀ t, t ∈ m.permissionScopes.strings ↔ some t ∈ demandedScopes rules
  holes : 0 < m.permissionScopes.holes ↔ none ∈ demandedScopes rules
  isolation : GreatestOf (demanded (·.minimumIsolationLevel) rules) m.isolation
  timeoutMs : LeastOf (demanded (·.timeoutMs) rules) m.timeoutMs
  maxConcurrency : LeastOf (demanded (·.maxConcurrency) rules) m.maxConcurrency
  postVerificationRequired : m.postVerificationRequired = true ↔
    ∃ q ∈ rules, q.postVerificationRequired = some true

theorem accumulates_empty : Accumulates ∅ Merge.empty where
  strings := by simp [Merge.empty, demandedScopes]
  holes := by simp [Merge.empty, demandedScopes]
  isolation := by simp [Merge.empty, demanded, GreatestOf]
  timeoutMs := by simp [Merge.empty, demanded, LeastOf]
  maxConcurrency := by simp [Merge.empty, demanded, LeastOf]
  postVerificationRequired := by simp [Merge.empty]

theorem Accumulates.add {rules : Set PolicyRequirements} {m m' : Merge} {q : PolicyRequirements}
    (h : Accumulates rules m) (hadd : Merge.add m q = some m') :
    Accumulates (insert q rules) m' := by
  rw [Merge.add_eq] at hadd
  obtain ⟨isolation, hmerge, rfl⟩ := Option.map_eq_some_iff.mp hadd
  refine ⟨fun t => ?_, ?_, ?_, ?_, ?_, ?_⟩
  · rw [demandedScopes_insert, Set.mem_union, ← h.strings]
    cases hscopes : q.permissionScopes with
    | none => simp [PolicyRequirements.scopes, hscopes]
    | some scopes => simp [PolicyRequirements.scopes, hscopes, UniqueStrings.union, mem_addStrings]
  · rw [demandedScopes_insert, Set.mem_union, ← h.holes]
    cases hscopes : q.permissionScopes with
    | none => simp [PolicyRequirements.scopes, hscopes]
    | some scopes => simp [PolicyRequirements.scopes, hscopes, UniqueStrings.union]
  · rw [demanded_insert]
    exact mergeIsolation_greatest h.isolation hmerge
  · rw [demanded_insert]
    exact mergeMinimum_least h.timeoutMs _
  · rw [demanded_insert]
    exact mergeMinimum_least h.maxConcurrency _
  · simp [h.postVerificationRequired, or_comm]

theorem Accumulates.run {requirements : List PolicyRequirements} {rules : Set PolicyRequirements}
    {m m' : Merge} (h : Accumulates rules m) (hrun : requirements.foldlM Merge.add m = some m') :
    Accumulates (rules ∪ {q | q ∈ requirements}) m' := by
  induction requirements generalizing rules m with
  | nil =>
    obtain rfl := Option.some.inj hrun
    simpa using h
  | cons q requirements ih =>
    rw [List.foldlM_cons, Option.bind_eq_bind, Option.bind_eq_some_iff] at hrun
    obtain ⟨next, hadd, hrest⟩ := hrun
    have hset : insert q rules ∪ {r | r ∈ requirements} = rules ∪ {r | r ∈ q :: requirements} := by
      ext r
      simp only [Set.mem_union, Set.mem_insert_iff, Set.mem_ofPred_eq, List.mem_cons]
      tauto
    exact hset ▸ ih (h.add hadd) hrest

structure Merged (rules : Set PolicyRequirements) (merged : PolicyRequirements) : Prop where
  permissionScopes : SortedUnion (demandedScopes rules) merged.permissionScopes
  minimumIsolationLevel :
    GreatestOf (demanded (·.minimumIsolationLevel) rules) merged.minimumIsolationLevel
  timeoutMs : LeastOf (demanded (·.timeoutMs) rules) merged.timeoutMs
  maxConcurrency : LeastOf (demanded (·.maxConcurrency) rules) merged.maxConcurrency
  postVerificationRequired : merged.postVerificationRequired = some true ↔
    ∃ q ∈ rules, q.postVerificationRequired = some true
  notRequired : merged.postVerificationRequired ≠ some false

theorem Accumulates.sort_elements {rules : Set PolicyRequirements} {m : Merge}
    (h : Accumulates rules m) : m.permissionScopes.sort.elements = demandedScopes rules := by
  ext e
  cases e with
  | none =>
    rw [StringSet.none_mem_elements]
    exact h.holes
  | some t =>
    rw [StringSet.some_mem_elements, ← h.strings]
    exact (JsString.sort_perm _).mem_iff

theorem Accumulates.nonempty_iff {rules : Set PolicyRequirements} {m : Merge}
    (h : Accumulates rules m) :
    (demandedScopes rules).Nonempty ↔
      m.permissionScopes.strings.length + m.permissionScopes.holes > 0 := by
  constructor
  · rintro ⟨e, he⟩
    cases e with
    | none =>
      have hholes := h.holes.mpr he
      omega
    | some t =>
      have hlength := List.length_pos_of_mem ((h.strings t).mpr he)
      omega
  · intro hpos
    by_cases hholes : 0 < m.permissionScopes.holes
    · exact ⟨none, h.holes.mp hholes⟩
    · obtain ⟨t, ht⟩ := List.exists_mem_of_length_pos (l := m.permissionScopes.strings) (by omega)
      exact ⟨some t, (h.strings t).mp ht⟩

theorem Accumulates.merged {rules : Set PolicyRequirements} {m : Merge} (h : Accumulates rules m) :
    Merged rules m.value where
  permissionScopes := by
    unfold Merge.value
    dsimp only
    split
    · rename_i hpos
      exact ⟨h.nonempty_iff.mpr hpos, h.sort_elements⟩
    · rename_i hzero
      exact Set.not_nonempty_iff_eq_empty.mp (mt h.nonempty_iff.mp hzero)
  minimumIsolationLevel := h.isolation
  timeoutMs := h.timeoutMs
  maxConcurrency := h.maxConcurrency
  postVerificationRequired := by
    rw [← h.postVerificationRequired]
    cases hpost : m.postVerificationRequired <;> simp [Merge.value, hpost]
  notRequired := by
    cases hpost : m.postVerificationRequired <;> simp [Merge.value, hpost]

theorem mergeRequirements_merged {requirements : List PolicyRequirements}
    {merged : PolicyRequirements} (h : mergeRequirements requirements = some merged) :
    Merged {q | q ∈ requirements} merged := by
  obtain ⟨m, hm, rfl⟩ := Option.map_eq_some_iff.mp h
  simpa using (accumulates_empty.run hm).merged

theorem Merged.unique {rules : Set PolicyRequirements} {a b : PolicyRequirements}
    (ha : Merged rules a) (hb : Merged rules b) : a = b := by
  have hscopes := ha.permissionScopes.unique hb.permissionScopes
  have hlevel := ha.minimumIsolationLevel.unique hb.minimumIsolationLevel
  have htimeout := ha.timeoutMs.unique hb.timeoutMs
  have hconcurrency := ha.maxConcurrency.unique hb.maxConcurrency
  have hpost : a.postVerificationRequired = some true ↔ b.postVerificationRequired = some true :=
    ha.postVerificationRequired.trans hb.postVerificationRequired.symm
  have hna := ha.notRequired
  have hnb := hb.notRequired
  cases a with | mk _ _ _ _ postA =>
  cases b with | mk _ _ _ _ postB =>
  have hposts : postA = postB := by
    cases postA with
    | none => cases postB with
      | none => rfl
      | some v => cases v <;> simp_all
    | some v => cases v with
      | false => exact absurd rfl hna
      | true => exact (hpost.mp rfl).symm
  simp_all

section Strictness

variable {rules : Set PolicyRequirements} {merged : PolicyRequirements}

theorem Merged.scopes_eq (h : Merged rules merged) : merged.scopes = demandedScopes rules := by
  have hunion := h.permissionScopes
  ext e
  cases hscopes : merged.permissionScopes with
  | none =>
    rw [hscopes] at hunion
    have hempty : demandedScopes rules = ∅ := hunion
    simp [PolicyRequirements.scopes, hscopes, hempty]
  | some s =>
    rw [hscopes] at hunion
    simp [PolicyRequirements.scopes, hscopes, ← hunion.2]

theorem exists_ge_of_greatestOf {α : Type} [LE α] {s : Set α} {greatest : Option α} {a : α}
    (h : GreatestOf s greatest) (ha : a ∈ s) : ∃ b ∈ greatest, a ≤ b := by
  cases greatest with
  | none =>
    obtain rfl : s = ∅ := h
    exact absurd ha (Set.notMem_empty a)
  | some b => exact ⟨b, rfl, h.2 ha⟩

theorem exists_le_of_leastOf {α : Type} [LE α] {s : Set α} {least : Option α} {a : α}
    (h : LeastOf s least) (ha : a ∈ s) : ∃ b ∈ least, b ≤ a :=
  @exists_ge_of_greatestOf αᵒᵈ _ s least a h ha

theorem mem_of_greatestOf {α : Type} [LE α] {s : Set α} {greatest : Option α} {a : α}
    (h : GreatestOf s greatest) (ha : a ∈ greatest) : a ∈ s := by
  obtain rfl : greatest = some a := ha
  exact h.1

theorem mem_of_leastOf {α : Type} [LE α] {s : Set α} {least : Option α} {a : α}
    (h : LeastOf s least) (ha : a ∈ least) : a ∈ s := by
  obtain rfl : least = some a := ha
  exact h.1

theorem Merged.isLUB (h : Merged rules merged) : IsLUB rules merged := by
  constructor
  · -- Each rule's own requirements are met.
    intro q hq
    refine ⟨fun e he => h.scopes_eq ▸ ⟨q, hq, he⟩, fun a ha => ?_, fun a ha => ?_, fun a ha => ?_,
      fun hpost => h.postVerificationRequired.mpr ⟨q, hq, hpost⟩⟩
    · exact exists_ge_of_greatestOf h.minimumIsolationLevel ⟨q, hq, ha⟩
    · exact exists_le_of_leastOf h.timeoutMs ⟨q, hq, ha⟩
    · exact exists_le_of_leastOf h.maxConcurrency ⟨q, hq, ha⟩
  · -- What the merge asks for, some rule asks for.
    intro bound hbound
    refine ⟨fun e he => ?_, fun a ha => ?_, fun a ha => ?_, fun a ha => ?_, fun hpost => ?_⟩
    · obtain ⟨q, hq, heq⟩ := h.scopes_eq ▸ he
      exact (hbound hq).1 heq
    · obtain ⟨q, hq, hqa⟩ := mem_of_greatestOf h.minimumIsolationLevel ha
      exact (hbound hq).2.1 a hqa
    · obtain ⟨q, hq, hqa⟩ := mem_of_leastOf h.timeoutMs ha
      exact (hbound hq).2.2.1 a hqa
    · obtain ⟨q, hq, hqa⟩ := mem_of_leastOf h.maxConcurrency ha
      exact (hbound hq).2.2.2.1 a hqa
    · obtain ⟨q, hq, hqa⟩ := h.postVerificationRequired.mp hpost
      exact (hbound hq).2.2.2.2 hqa

end Strictness

theorem mergeRequirements_none (requirements : List PolicyRequirements) :
    mergeRequirements requirements = none ↔
      ∃ q ∈ requirements, ∃ r ∈ requirements, ∃ a ∈ q.minimumIsolationLevel,
        ∃ b ∈ r.minimumIsolationLevel, a ≠ .processRestricted ∧ b ≠ .processRestricted ∧
          a ≠ b := by
  rw [← Option.not_isSome_iff_eq_none, mergeRequirements_isSome]
  constructor
  · intro h
    simp only [Compatible, CompatibleLevels, not_forall] at h
    obtain ⟨a, ⟨q, hq, ha⟩, b, ⟨r, hr, hb⟩, hna, hnb, hab⟩ := h
    exact ⟨q, hq, r, hr, a, ha, b, hb, hna, hnb, hab⟩
  · rintro ⟨q, hq, r, hr, a, ha, b, hb, hna, hnb, hab⟩ h
    exact hab (h a ⟨q, hq, ha⟩ b ⟨r, hr, hb⟩ hna hnb)

theorem mergeRequirements_congr {requirements requirements' : List PolicyRequirements}
    (h : ∀ q, q ∈ requirements' ↔ q ∈ requirements) :
    mergeRequirements requirements' = mergeRequirements requirements := by
  have hset : {q | q ∈ requirements'} = {q | q ∈ requirements} := Set.ext h
  have hsome : (mergeRequirements requirements').isSome = true ↔
      (mergeRequirements requirements).isSome = true := by
    rw [mergeRequirements_isSome, mergeRequirements_isSome, hset]
  cases hmerged : mergeRequirements requirements with
  | none => simpa [hmerged] using hsome
  | some merged =>
    obtain ⟨merged', hmerged'⟩ := Option.isSome_iff_exists.mp (hsome.mpr (by simp [hmerged]))
    have hfirst := hset ▸ mergeRequirements_merged hmerged'
    rw [hmerged', hfirst.unique (mergeRequirements_merged hmerged)]

theorem mergeRequirements_least_upper_bound (requirements : List PolicyRequirements) :
    (∀ requirements' : List PolicyRequirements,
      (∀ q, q ∈ requirements' ↔ q ∈ requirements) →
        mergeRequirements requirements' = mergeRequirements requirements) ∧
    (mergeRequirements requirements = none ↔
      ∃ q ∈ requirements, ∃ r ∈ requirements, ∃ a ∈ q.minimumIsolationLevel,
        ∃ b ∈ r.minimumIsolationLevel, a ≠ .processRestricted ∧ b ≠ .processRestricted ∧
          a ≠ b) ∧
    (∀ merged, mergeRequirements requirements = some merged →
      Merged {q | q ∈ requirements} merged ∧ IsLUB {q | q ∈ requirements} merged) := by
  refine ⟨fun requirements' h => mergeRequirements_congr h, mergeRequirements_none requirements,
    fun merged h => ?_⟩
  have hmerged := mergeRequirements_merged h
  exact ⟨hmerged, hmerged.isLUB⟩

end Policy

end Aseos
