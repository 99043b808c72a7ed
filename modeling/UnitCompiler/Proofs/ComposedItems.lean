import UnitCompiler.Proofs.EmissionCopies

namespace UnitCompiler

namespace Origin

def IsShared (base : Nat) (o : Origin) : Prop :=
  ∀ k ∈ o.number?, k ≤ base

theorem number?_renumber (lab : Nat → Nat) (o : Origin) : (o.renumber lab).number? = o.number?.map lab := by
  cases o <;> rfl

theorem renumber_eq_self {lab : Nat → Nat} {o : Origin} (h : ∀ k ∈ o.number?, lab k = k) : o.renumber lab = o := by
  cases o <;> simp_all [renumber, number?]

theorem renumber_inj {lab : Nat → Nat} {o o' : Origin}
    (hlab : ∀ j ∈ o.number?, ∀ k ∈ o'.number?, lab j = lab k → j = k) (h : o.renumber lab = o'.renumber lab) :
    o = o' := by
  cases o <;> cases o' <;> simp_all [renumber, number?]

end Origin

namespace Emission

/-- Lists of items that can follow one another in any order, once the numbers behind `base` are told apart. -/
structure Composable (base : Nat) (ess : List (List Emission)) : Prop where
  nodup : ∀ es ∈ ess, (definedBy es).Nodup
  nest : ∀ es ∈ ess, (es.foldlM Emission.nest false).isSome = true
  disjoint : ess.Pairwise fun es fs =>
    ∀ o : Origin, o.IsShared base → o.text ∈ definedBy es → o.text ∉ definedBy fs

theorem Composable.perm {base : Nat} {ess fss : List (List Emission)} (h : Composable base ess)
    (hperm : ess.Perm fss) : Composable base fss := by
  refine ⟨fun es hes => h.nodup es (hperm.mem_iff.mpr hes), fun es hes => h.nest es (hperm.mem_iff.mpr hes), ?_⟩
  exact hperm.pairwise h.disjoint fun hdisjoint o hshared hmem hmem' => hdisjoint o hshared hmem' hmem

structure Renumbers (base lo mid start next hi : Nat) (lab : Nat → Nat) : Prop where
  fixed : ∀ k ≤ base, lab k = k
  moved : ∀ k, base < k → k ≤ hi → lo < lab k ∧ lab k ≤ mid ∨ start < lab k ∧ lab k ≤ next
  injective : ∀ j k, j ≤ hi → k ≤ hi → lab j = lab k → j = k

section Piece

variable {base lo mid start next hi : Nat} {lab : Nat → Nat} {f : Bool → Option Bool} {es es' : List Emission}

theorem Renumbers.renumber_shared (h : Renumbers base lo mid start next hi lab) {o : Origin}
    (ho : o.IsShared base) : o.renumber lab = o :=
  Origin.renumber_eq_self fun k hk => h.fixed k (ho k hk)

/-- What is shared is defined in both lists or in none. -/
theorem Tracks.shared_iff (h : Tracks lab hi f es es') (hlab : Renumbers base lo mid start next hi lab)
    (hlo : base ≤ lo) (hstart : base ≤ start) {o : Origin} (ho : o.IsShared base) :
    o.text ∈ definedBy es' ↔ o.text ∈ definedBy es := by
  obtain ⟨os, hos, hos', hbound⟩ := h.labels
  rw [hos, hos']
  refine ⟨fun hmem => ?_, fun hmem => ?_⟩
  · obtain ⟨p, hp, hpo⟩ := List.mem_map.mp hmem
    have hpo : p.renumber lab = o := Origin.text_injective hpo
    have hshared : p.IsShared base := by
      intro k hk
      have hle : lab k ≤ base := by
        apply ho
        rw [← hpo, Origin.number?_renumber]
        exact Option.mem_map_of_mem lab hk
      by_contra hlt
      obtain hmoved | hmoved := hlab.moved k (Nat.lt_of_not_le hlt) (hbound p hp k hk) <;> omega
    rw [hlab.renumber_shared hshared] at hpo
    exact List.mem_map.mpr ⟨p, hp, by rw [hpo]⟩
  · obtain ⟨p, hp, hpo⟩ := List.mem_map.mp hmem
    refine List.mem_map.mpr ⟨p, hp, ?_⟩
    rw [Origin.text_injective hpo, hlab.renumber_shared ho]

theorem Tracks.numbers (h : Tracks lab hi f es es') (hlab : Renumbers base lo mid start next hi lab)
    {label : String} (hmem : label ∈ definedBy es') :
    ∃ o : Origin, o.text = label ∧
      ∀ k ∈ o.number?, k ≤ base ∨ lo < k ∧ k ≤ mid ∨ start < k ∧ k ≤ next := by
  obtain ⟨os, -, hos', hbound⟩ := h.labels
  rw [hos'] at hmem
  obtain ⟨o, ho, rfl⟩ := List.mem_map.mp hmem
  refine ⟨_, rfl, fun k hk => ?_⟩
  rw [Origin.number?_renumber] at hk
  obtain ⟨j, hj, rfl⟩ := Option.mem_map.mp hk
  by_cases hle : j ≤ base
  · left
    rw [hlab.fixed j hle]
    exact hle
  · exact Or.inr (hlab.moved j (Nat.lt_of_not_le hle) (hbound o ho j hj))

theorem Tracks.nodup_iff (h : Tracks lab hi f es es') (hlab : Renumbers base lo mid start next hi lab) :
    (definedBy es').Nodup ↔ (definedBy es).Nodup := by
  obtain ⟨os, hos, hos', hbound⟩ := h.labels
  rw [hos, hos']
  have htext : ∀ x ∈ os, ∀ y ∈ os, x.text = y.text → x = y := fun x _ y _ => Origin.text_injective
  have hrenumbered : ∀ x ∈ os, ∀ y ∈ os, (x.renumber lab).text = (y.renumber lab).text → x = y := by
    intro x hx y hy heq
    refine Origin.renumber_inj ?_ (Origin.text_injective heq)
    exact fun j hj k hk => hlab.injective j k (hbound x hx j hj) (hbound y hy k hk)
  exact ⟨fun hnodup => (hnodup.of_map _).map_on htext, fun hnodup => (hnodup.of_map _).map_on hrenumbered⟩

end Piece

/-- The items are those of the lists, one after another, renumbered. The numbers that each of them takes are behind
those of the lists before, some of them from behind `lo` to `last` and the others from behind `start`. -/
inductive Assembled (base last : Nat) : Nat → Nat → List (List Emission) → List Emission → Prop
  | nil {lo start : Nat} : Assembled base last lo start [] []
  | cons {lo mid start next hi : Nat} {lab : Nat → Nat} {es es' rest : List Emission}
      {ess : List (List Emission)} (h : Tracks lab hi some es es')
      (hlab : Renumbers base lo mid start next hi lab)
      (hle : base ≤ lo ∧ lo ≤ mid ∧ mid ≤ last ∧ last ≤ start ∧ start ≤ next)
      (hrest : Assembled base last mid next ess rest) :
      Assembled base last lo start (es :: ess) (es' ++ rest)

namespace Assembled

variable {base last lo start : Nat} {ess : List (List Emission)} {items : List Emission}

theorem shared_iff (h : Assembled base last lo start ess items) {o : Origin} (ho : o.IsShared base) :
    o.text ∈ definedBy items ↔ ∃ es ∈ ess, o.text ∈ definedBy es := by
  induction h with
  | nil => simp [definedBy]
  | cons h hlab hle _ ih =>
    simp [ih, h.shared_iff hlab hle.1 (by omega) ho]

theorem numbers (h : Assembled base last lo start ess items) {label : String} (hmem : label ∈ definedBy items) :
    ∃ o : Origin, o.text = label ∧ ∀ k ∈ o.number?, k ≤ base ∨ lo < k ∧ k ≤ last ∨ start < k := by
  induction h with
  | nil => cases hmem
  | cons h hlab hle _ ih =>
    rw [definedBy_append] at hmem
    obtain hmem | hmem := List.mem_append.mp hmem
    · obtain ⟨o, ho, hk⟩ := h.numbers hlab hmem
      refine ⟨o, ho, fun k hmem => ?_⟩
      have hcases := hk k hmem
      omega
    · obtain ⟨o, ho, hk⟩ := ih hmem
      refine ⟨o, ho, fun k hmem => ?_⟩
      have hcases := hk k hmem
      omega

/-- No label is defined twice if that is so for each of the lists, and no two of them share one. -/
theorem nodup_iff (h : Assembled base last lo start ess items) :
    (definedBy items).Nodup ↔ (∀ es ∈ ess, (definedBy es).Nodup) ∧ ess.Pairwise fun es fs =>
      ∀ o : Origin, o.IsShared base → o.text ∈ definedBy es → o.text ∉ definedBy fs := by
  induction h with
  | nil => simp [definedBy]
  | @cons lo mid start next hi lab es es' rest ess h hlab hle hrest ih =>
    rw [definedBy_append, List.nodup_append, h.nodup_iff hlab, ih, List.forall_mem_cons, List.pairwise_cons]
    have hdisjoint : (∀ a ∈ definedBy es', ∀ b ∈ definedBy rest, a ≠ b) ↔ ∀ fs ∈ ess, ∀ o : Origin,
        o.IsShared base → o.text ∈ definedBy es → o.text ∉ definedBy fs := by
      refine ⟨fun hne fs hfs o ho hmem hmem' => ?_, fun hall label hmem label' hmem' heq => ?_⟩
      · exact hne _ ((h.shared_iff hlab hle.1 (by omega) ho).mpr hmem) _
          ((hrest.shared_iff ho).mpr ⟨fs, hfs, hmem'⟩) rfl
      · subst heq
        -- a number behind the base tells the lists apart
        obtain ⟨o, rfl, hk⟩ := h.numbers hlab hmem
        obtain ⟨p, hp, hk'⟩ := hrest.numbers hmem'
        obtain rfl := Origin.text_injective hp
        have hshared : p.IsShared base := by
          intro k hmem
          have hcases := hk k hmem
          have hcases' := hk' k hmem
          omega
        obtain ⟨fs, hfs, hmem'⟩ := (hrest.shared_iff hshared).mp hmem'
        exact hall fs hfs p hshared ((h.shared_iff hlab hle.1 (by omega) hshared).mp hmem) hmem'
    rw [hdisjoint]
    tauto

/-- The functions of the lists do not nest if those of each list do not. -/
theorem nest_iff (h : Assembled base last lo start ess items) :
    (items.foldlM Emission.nest false).isSome = true ↔
      ∀ es ∈ ess, (es.foldlM Emission.nest false).isSome = true := by
  induction h with
  | nil => simp
  | cons h _ _ _ ih =>
    rw [List.foldlM_append, h.nest, List.forall_mem_cons, ← ih]
    obtain hnone | hsome := h.ends false
    · simp [hnone]
    · simp [hsome]

/-- The items are fit for a listing exactly if the lists can be composed. -/
theorem composable_iff (h : Assembled base last lo start ess items) :
    (definedBy items).Nodup ∧ (items.foldlM Emission.nest false).isSome = true ↔ Composable base ess := by
  rw [h.nodup_iff, h.nest_iff]
  exact ⟨fun hall => ⟨hall.1.1, hall.2, hall.1.2⟩, fun hc => ⟨⟨hc.nodup, hc.disjoint⟩, hc.nest⟩⟩

end Assembled

end Emission

end UnitCompiler
