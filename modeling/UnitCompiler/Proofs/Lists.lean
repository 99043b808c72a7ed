import Mathlib.Data.List.Forall2

namespace UnitCompiler

section Search

theorem find?_unique {α : Type} {l : List α} {p : α → Bool} {x : α} (hx : x ∈ l) (hp : p x = true)
    (h : ∀ y ∈ l, p y = true → y = x) (rest : List α) : (l ++ rest).find? p = some x := by
  rw [List.find?_append]
  cases hfind : l.find? p with
  | none => exact absurd hp (List.find?_eq_none.mp hfind x hx)
  | some y =>
    rw [h y (List.mem_of_find?_eq_some hfind) (List.find?_some hfind)]
    rfl

theorem lookup_of_find? {α : Type} {l : List (String × α)} {p : String → Bool} {x : String × α}
    (h : l.find? (fun y => p y.1) = some x) : l.lookup x.1 = some x.2 := by
  induction l with
  | nil => cases h
  | cons y l ih =>
    rw [List.find?_cons] at h
    cases hp : p y.1 with
    | true =>
      simp only [hp] at h
      cases h
      rw [List.lookup_cons, beq_self_eq_true]
    | false =>
      simp only [hp] at h
      -- an entry under the name that is asked for would have been found before
      have hne : x.1 ≠ y.1 := by
        intro heq
        have hx := List.find?_some h
        simp only [heq, hp] at hx
        cases hx
      rw [List.lookup_cons, beq_eq_false_iff_ne.mpr hne]
      exact ih h

theorem getElem?_concat_eq_some {α : Type} {l : List α} {a b : α} {i : Nat} :
    (l ++ [a])[i]? = some b ↔ l[i]? = some b ∨ (i = l.length ∧ b = a) := by
  rw [List.getElem?_append]
  split
  · rename_i hlt
    simp [Nat.ne_of_lt hlt]
  · rename_i hge
    have hnone : l[i]? = none := List.getElem?_eq_none (Nat.le_of_not_lt hge)
    rw [hnone, List.getElem?_singleton]
    simp only [reduceCtorEq, false_or]
    split
    · rename_i hzero
      simp [eq_comm, Nat.le_antisymm (Nat.le_of_sub_eq_zero hzero) (Nat.le_of_not_lt hge)]
    · rename_i hpos
      simp only [reduceCtorEq, false_iff, not_and]
      rintro rfl
      exact absurd (Nat.sub_self _) hpos

end Search

section Modify

variable {α γ : Type} {f : α → α} {g : α → List γ}

theorem mem_modify {l : List α} {i : Nat} {a : α} (h : a ∈ l.modify i f) : a ∈ l ∨ ∃ b ∈ l, a = f b := by
  obtain ⟨j, hj⟩ := List.mem_iff_getElem?.mp h
  rw [List.getElem?_modify] at hj
  obtain ⟨b, hb, hab⟩ := Option.map_eq_some_iff.mp hj
  have hmem : b ∈ l := List.mem_of_getElem? hb
  split at hab
  · exact Or.inr ⟨b, hmem, hab.symm⟩
  · exact Or.inl (hab ▸ hmem)

theorem flatMap_modify_eq (h : ∀ a, g (f a) = g a) (l : List α) (i : Nat) :
    (l.modify i f).flatMap g = l.flatMap g := by
  induction l generalizing i with
  | nil => simp
  | cons a l ih => cases i <;> simp [h, ih]

theorem flatMap_modify_perm {b : γ} (h : ∀ a, g (f a) = g a ++ [b]) {l : List α} {i : Nat}
    (hi : i < l.length) : ((l.modify i f).flatMap g).Perm (l.flatMap g ++ [b]) := by
  induction l generalizing i with
  | nil => exact absurd hi (Nat.not_lt_zero i)
  | cons a l ih =>
    cases i with
    | zero =>
      simp only [List.modify_zero_cons, List.flatMap_cons, h, List.append_assoc]
      exact List.perm_append_comm.append_left (g a)
    | succ i =>
      simp only [List.modify_succ_cons, List.flatMap_cons, List.append_assoc]
      exact (ih (Nat.lt_of_succ_lt_succ hi)).append_left (g a)

end Modify

section Pointwise

variable {α β γ : Type} {R : α → β → Prop}

theorem exists_of_forall₂ {l : List α} {l' : List β} (h : List.Forall₂ R l l') {b : β} (hb : b ∈ l') :
    ∃ a ∈ l, R a b := by
  induction h with
  | nil => cases hb
  | @cons a b' l l' hab _ ih =>
    obtain rfl | hb := List.mem_cons.mp hb
    · exact ⟨a, List.mem_cons_self, hab⟩
    · obtain ⟨a', ha', hR⟩ := ih hb
      exact ⟨a', List.mem_cons_of_mem _ ha', hR⟩

/-- The block of an element stands in the concatenation of all of them. -/
theorem exists_block {S : α → List β → Prop} {l : List α} {blocks : List (List β)} (h : List.Forall₂ S l blocks)
    {a : α} (ha : a ∈ l) : ∃ front block back, S a block ∧ blocks.flatten = front ++ block ++ back := by
  induction h with
  | nil => cases ha
  | @cons a' block l blocks hblock _ ih =>
    obtain rfl | ha := List.mem_cons.mp ha
    · exact ⟨[], block, blocks.flatten, hblock, rfl⟩
    · obtain ⟨front, block', back, hblock', heq⟩ := ih ha
      refine ⟨block ++ front, block', back, hblock', ?_⟩
      rw [List.flatten_cons, heq]
      simp only [List.append_assoc]

theorem forall₂_zip {S : α → γ → Prop} {T : α → β × γ → Prop} {xs : List α} {ys : List β} {zs : List γ}
    (h : List.Forall₂ R xs ys) (h' : List.Forall₂ S xs zs) (hT : ∀ x y z, R x y → S x z → T x (y, z)) :
    List.Forall₂ T xs (ys.zip zs) := by
  induction h generalizing zs with
  | nil => exact .nil
  | cons hxy _ ih =>
    cases h' with
    | cons hxz hrest => exact .cons (hT _ _ _ hxy hxz) (ih hrest)

theorem forall₂_mapIdx {S : α → γ → Prop} {xs : List α} {ys : List β} (h : List.Forall₂ R xs ys) {f : Nat → β → γ}
    (hf : ∀ k x y, R x y → S x (f k y)) : List.Forall₂ S xs (ys.mapIdx f) := by
  induction h generalizing f with
  | nil => exact .nil
  | cons hxy _ ih =>
    rw [List.mapIdx_cons]
    exact .cons (hf 0 _ _ hxy) (ih fun k => hf (k + 1))

end Pointwise

section Failing

variable {ε α γ : Type} {f : α → Except ε γ} {l : List α}

/-- A list is mapped as far as its first element that fails. -/
theorem mapM_cases (f : α → Except ε γ) (l : List α) :
    (∃ xs, l.mapM f = .ok xs ∧ l.find? (fun a => !(f a).isOk) = none) ∨
      ∃ a d, l.mapM f = .error d ∧ l.find? (fun a => !(f a).isOk) = some a ∧ f a = .error d := by
  induction l with
  | nil => exact Or.inl ⟨[], rfl, rfl⟩
  | cons a l ih =>
    rw [List.mapM_cons]
    cases hf : f a with
    | error d => exact Or.inr ⟨a, d, rfl, List.find?_cons_of_pos (by rw [hf]; rfl), hf⟩
    | ok x =>
      have hskip : (a :: l).find? (fun a => !(f a).isOk) = l.find? fun a => !(f a).isOk :=
        List.find?_cons_of_neg (by rw [hf]; exact Bool.false_ne_true)
      rw [hskip]
      obtain ⟨xs, hxs, hfind⟩ | ⟨a', d, hd, hfind, ha'⟩ := ih
      · exact Or.inl ⟨x :: xs, by rw [hxs]; rfl, hfind⟩
      · exact Or.inr ⟨a', d, by rw [hd]; rfl, hfind, ha'⟩

theorem exists_mapM_eq_ok (h : ∀ x ∈ l, ∃ y, f x = .ok y) : ∃ ys, l.mapM f = .ok ys := by
  obtain ⟨ys, hys, -⟩ | ⟨a, d, -, hfind, ha⟩ := mapM_cases f l
  · exact ⟨ys, hys⟩
  · obtain ⟨y, hy⟩ := h a (List.mem_of_find?_eq_some hfind)
    cases ha.symm.trans hy

theorem forall₂_of_mapM_eq_ok {ys : List γ} (h : l.mapM f = .ok ys) :
    List.Forall₂ (fun x y => f x = .ok y) l ys := by
  induction l generalizing ys with
  | nil =>
    cases h
    exact .nil
  | cons x l ih =>
    rw [List.mapM_cons] at h
    cases hx : f x with
    | error e => rw [hx] at h; cases h
    | ok y =>
      cases hl : l.mapM f with
      | error e => rw [hx, hl] at h; cases h
      | ok zs =>
        rw [hx, hl] at h
        cases h
        exact .cons hx (ih hl)

theorem exists_of_mapM_eq_ok {ys : List γ} (h : l.mapM f = .ok ys) {y : γ} (hy : y ∈ ys) : ∃ x ∈ l, f x = .ok y :=
  exists_of_forall₂ (forall₂_of_mapM_eq_ok h) hy

end Failing

end UnitCompiler
