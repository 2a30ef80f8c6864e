import Aseos.Policy.Evaluate

namespace Aseos.Policy

def CompatibleLevels (levels : Set IsolationLevel) : Prop :=
  ∀ a ∈ levels, ∀ b ∈ levels, a ≠ .processRestricted → b ≠ .processRestricted → a = b

def Compatible (requirements : Set PolicyRequirements) : Prop :=
  CompatibleLevels {level | ∃ q ∈ requirements, q.minimumIsolationLevel = some level}

def Demanding (q : PolicyRequirements) : Prop :=
  (∃ s ∈ q.permissionScopes, s.strings.length + s.holes > 0) ∨
    q.minimumIsolationLevel.isSome ∨ q.timeoutMs.isSome ∨ q.maxConcurrency.isSome ∨
    q.postVerificationRequired = some true

theorem mergeIsolation_spec (isolation candidate : Option IsolationLevel) :
    match mergeIsolation isolation candidate with
    | none => ∃ a ∈ isolation, ∃ b ∈ candidate,
        a ≠ .processRestricted ∧ b ≠ .processRestricted ∧ a ≠ b
    | some merged =>
        (∀ level, level ≠ .processRestricted →
          (merged = some level ↔ isolation = some level ∨ candidate = some level)) ∧
        merged.isSome = (isolation.isSome || candidate.isSome) := by
  cases candidate with
  | none => cases isolation <;> simp [mergeIsolation]
  | some candidate =>
    cases isolation with
    | none => simp [mergeIsolation]
    | some level => cases level <;> cases candidate <;> simp [mergeIsolation] <;>
        (intro level; cases level <;> simp)

def levelsOf (m : Merge) (requirements : List PolicyRequirements) : Set IsolationLevel :=
  {level | m.isolation = some level ∨ ∃ q ∈ requirements, q.minimumIsolationLevel = some level}

theorem compatibleLevels_congr {s t : Set IsolationLevel}
    (h : ∀ level, level ≠ .processRestricted → (level ∈ s ↔ level ∈ t)) :
    CompatibleLevels s ↔ CompatibleLevels t := by
  constructor
  · intro hs a ha b hb hna hnb
    exact hs a ((h a hna).mpr ha) b ((h b hnb).mpr hb) hna hnb
  · intro ht a ha b hb hna hnb
    exact ht a ((h a hna).mp ha) b ((h b hnb).mp hb) hna hnb

theorem Merge.add_eq (m : Merge) (q : PolicyRequirements) :
    Merge.add m q = (mergeIsolation m.isolation q.minimumIsolationLevel).map fun isolation => {
      permissionScopes := match q.permissionScopes with
        | none => m.permissionScopes
        | some scopes => m.permissionScopes.union scopes
      isolation := isolation
      timeoutMs := mergeMinimum m.timeoutMs q.timeoutMs
      maxConcurrency := mergeMinimum m.maxConcurrency q.maxConcurrency
      postVerificationRequired :=
        m.postVerificationRequired || q.postVerificationRequired == some true } := by
  unfold Merge.add
  cases mergeIsolation m.isolation q.minimumIsolationLevel <;> rfl

theorem foldlM_add_isSome (requirements : List PolicyRequirements) (m : Merge) :
    (requirements.foldlM Merge.add m).isSome = true ↔
      CompatibleLevels (levelsOf m requirements) := by
  induction requirements generalizing m with
  | nil =>
    refine iff_of_true rfl ?_
    rintro a (ha | ⟨_, ⟨⟩, -⟩) b (hb | ⟨_, ⟨⟩, -⟩) - -
    exact Option.some.inj (ha.symm.trans hb)
  | cons q requirements ih =>
    have hspec := mergeIsolation_spec m.isolation q.minimumIsolationLevel
    rw [List.foldlM_cons, Merge.add_eq]
    cases hmerge : mergeIsolation m.isolation q.minimumIsolationLevel with
    | none =>
      rw [hmerge] at hspec
      obtain ⟨a, ha, b, hb, hna, hnb, hab⟩ := hspec
      refine iff_of_false (by simp) fun hlevels => ?_
      exact hab (hlevels a (.inl ha) b (.inr ⟨q, by simp, hb⟩) hna hnb)
    | some merged =>
      rw [hmerge] at hspec
      refine (ih _).trans (compatibleLevels_congr fun level hlevel => ?_)
      simp [levelsOf, hspec.1 level hlevel, or_assoc]

theorem mergeRequirements_isSome (requirements : List PolicyRequirements) :
    (mergeRequirements requirements).isSome = true ↔ Compatible {q | q ∈ requirements} := by
  rw [mergeRequirements, Option.isSome_map, foldlM_add_isSome]
  simp [levelsOf, Merge.empty, Compatible]

theorem mergeMinimum_isSome (a b : Option PositiveInteger) :
    (mergeMinimum a b).isSome = (a.isSome || b.isSome) := by
  cases a <;> cases b <;> rfl

theorem addStrings_eq_nil {set more : List JsString} :
    addStrings set more = [] ↔ set = [] ∧ more = [] := by
  simp only [List.eq_nil_iff_forall_not_mem, mem_addStrings, not_or, forall_and]

theorem union_nonempty (u : UniqueStrings 256) (s : StringSet) :
    (u.union s).strings.length + (u.union s).holes > 0 ↔
      u.strings.length + u.holes > 0 ∨ s.strings.length + s.holes > 0 := by
  have hstrings : (u.union s).strings = [] ↔ u.strings = [] ∧ s.strings = [] := addStrings_eq_nil
  have hholes : (u.union s).holes = max u.holes s.holes := rfl
  simp only [← List.length_eq_zero_iff] at hstrings
  omega

theorem add_nonEmpty {m m' : Merge} {q : PolicyRequirements} (h : Merge.add m q = some m') :
    m'.value.nonEmpty = true ↔ m.value.nonEmpty = true ∨ Demanding q := by
  have hspec := mergeIsolation_spec m.isolation q.minimumIsolationLevel
  rw [Merge.add_eq] at h
  cases hmerge : mergeIsolation m.isolation q.minimumIsolationLevel with
  | none => simp [hmerge] at h
  | some merged =>
    rw [hmerge] at hspec h
    obtain rfl := Option.some.inj h
    cases hscopes : q.permissionScopes with
    | none =>
      simp [Merge.value, PolicyRequirements.nonEmpty, Demanding, hspec.2, mergeMinimum_isSome,
        hscopes]
      grind
    | some scopes =>
      have hunion := union_nonempty m.permissionScopes scopes
      simp [Merge.value, PolicyRequirements.nonEmpty, Demanding, hspec.2, mergeMinimum_isSome,
        hscopes, hunion]
      grind

theorem foldlM_add_nonEmpty {requirements : List PolicyRequirements} {m m' : Merge}
    (h : requirements.foldlM Merge.add m = some m') :
    m'.value.nonEmpty = true ↔ m.value.nonEmpty = true ∨ ∃ q ∈ requirements, Demanding q := by
  induction requirements generalizing m with
  | nil =>
    obtain rfl := Option.some.inj h
    simp
  | cons q requirements ih =>
    rw [List.foldlM_cons, Option.bind_eq_bind, Option.bind_eq_some_iff] at h
    obtain ⟨next, hadd, hrest⟩ := h
    rw [ih hrest, add_nonEmpty hadd]
    simp [or_assoc]

theorem mergeRequirements_nonEmpty {requirements : List PolicyRequirements}
    {merged : PolicyRequirements} (h : mergeRequirements requirements = some merged) :
    merged.nonEmpty = true ↔ ∃ q ∈ requirements, Demanding q := by
  obtain ⟨m, hm, rfl⟩ := Option.map_eq_some_iff.mp h
  rw [foldlM_add_nonEmpty hm]
  simp [Merge.empty, Merge.value, PolicyRequirements.nonEmpty]

end Aseos.Policy
