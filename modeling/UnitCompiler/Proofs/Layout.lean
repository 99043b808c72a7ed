import UnitCompiler.Proofs.Blocks

namespace UnitCompiler.Frame

theorem place_cons_param {env : ScopeId} {r : Record} (h : r.kind.has .param = true)
    (params locals : Nat) (rest : List (ScopeId × Record)) :
    place params locals ((env, r) :: rest) =
      ⟨env, r.name, r.ty, paramBase + wordSize * params, true⟩ :: place (params + 1) locals rest := by
  rw [place, if_pos h]

theorem place_cons_local {env : ScopeId} {r : Record} (h : r.kind.has .param = false)
    (params locals : Nat) (rest : List (ScopeId × Record)) :
    place params locals ((env, r) :: rest) =
      ⟨env, r.name, r.ty, -(wordSize * (locals + 1)), false⟩ :: place params (locals + 1) rest := by
  rw [place, if_neg (by simp [h])]

/-- Parameters take the words from `params` on, upward, and other variables the words from `locals` on,
downward. -/
theorem place_bounds {params locals : Nat} {l : List (ScopeId × Record)} {s : Slot}
    (hs : s ∈ place params locals l) :
    (∃ k < ((place params locals l).filter Slot.isParam).length,
      s.offset = paramBase + wordSize * (params + k : Nat)) ∨
    ∃ k < ((place params locals l).filter fun s => !s.isParam).length,
      s.offset = -(wordSize * (locals + k + 1 : Nat)) := by
  induction l generalizing params locals with
  | nil => cases hs
  | cons head rest ih =>
    obtain ⟨env, r⟩ := head
    -- the head takes the first place of its sort, and moves the others of that sort by one
    cases h : r.kind.has .param with
    | true =>
      rw [place_cons_param h] at hs ⊢
      rw [List.filter_cons_of_pos rfl, List.filter_cons_of_neg (by simp), List.length_cons]
      obtain rfl | hs := List.mem_cons.mp hs
      · exact Or.inl ⟨0, Nat.succ_pos _, rfl⟩
      · obtain ⟨k, hk, hoffset⟩ | hlocal := ih hs
        · refine Or.inl ⟨k + 1, Nat.succ_lt_succ hk, ?_⟩
          rw [hoffset, Nat.add_assoc, Nat.add_comm 1 k]
        · exact Or.inr hlocal
    | false =>
      rw [place_cons_local h] at hs ⊢
      rw [List.filter_cons_of_neg (by simp), List.filter_cons_of_pos (by simp), List.length_cons]
      obtain rfl | hs := List.mem_cons.mp hs
      · exact Or.inr ⟨0, Nat.succ_pos _, rfl⟩
      · obtain hparam | ⟨k, hk, hoffset⟩ := ih hs
        · exact Or.inl hparam
        · refine Or.inr ⟨k + 1, Nat.succ_lt_succ hk, ?_⟩
          rw [hoffset, Nat.add_right_comm locals 1 k, Nat.add_assoc locals k 1]

/-- The offset is that of a word of the frame with `size` bytes of variables and `args` of arguments. -/
def Holds (size args : Nat) (offset : Int) : Prop :=
  4 ∣ offset ∧ (-size ≤ offset ∧ offset ≤ -4 ∨ 8 ≤ offset ∧ offset < 8 + args)

theorem slot_holds {c : Context} {env : ScopeId} {s : Slot} (hs : s ∈ (layout c env).slots) :
    Holds (layout c env).size (layout c env).argBytes s.offset := by
  obtain ⟨k, hk, hoffset⟩ | ⟨k, hk, hoffset⟩ := place_bounds hs
  · have hlt : k < (layout c env).params.length := hk
    simp only [paramBase, wordSize] at hoffset
    refine ⟨?_, Or.inr ?_⟩
    · omega
    · simp only [argBytes, wordSize]
      omega
  · have hlt : k < (layout c env).locals.length := hk
    simp only [wordSize] at hoffset
    refine ⟨?_, Or.inl ?_⟩
    · omega
    · simp only [size, wordSize]
      omega

theorem exists_of_offset? {f : Frame} {env : ScopeId} {name : String} {offset : Int}
    (h : f.offset? env name = some offset) :
    ∃ s ∈ f.slots, s.env = env ∧ s.name = name ∧ s.offset = offset := by
  unfold offset? at h
  obtain ⟨s, hs, rfl⟩ := Option.map_eq_some_iff.mp h
  have hfound := List.find?_some hs
  rw [Bool.and_eq_true, beq_iff_eq, beq_iff_eq] at hfound
  exact ⟨s, List.mem_of_find?_eq_some hs, hfound.1, hfound.2, rfl⟩

theorem offset?_holds {c : Context} {env e : ScopeId} {name : String} {offset : Int}
    (h : (layout c env).offset? e name = some offset) :
    Holds (layout c env).size (layout c env).argBytes offset := by
  obtain ⟨s, hs, -, -, rfl⟩ := exists_of_offset? h
  exact slot_holds hs

/-- No two variables of a frame share a word. -/
theorem place_nodup (params locals : Nat) (l : List (ScopeId × Record)) :
    ((place params locals l).map Slot.offset).Nodup := by
  induction l generalizing params locals with
  | nil => exact List.nodup_nil
  | cons head rest ih =>
    obtain ⟨env, r⟩ := head
    cases h : r.kind.has .param with
    | true =>
      rw [place_cons_param h, List.map_cons, List.nodup_cons]
      refine ⟨?_, ih _ _⟩
      intro hmem
      obtain ⟨s, hs, heq⟩ := List.mem_map.mp hmem
      obtain ⟨k, -, hoffset⟩ | ⟨k, -, hoffset⟩ := place_bounds hs <;>
        simp only [paramBase, wordSize] at hoffset heq <;> omega
    | false =>
      rw [place_cons_local h, List.map_cons, List.nodup_cons]
      refine ⟨?_, ih _ _⟩
      intro hmem
      obtain ⟨s, hs, heq⟩ := List.mem_map.mp hmem
      obtain ⟨k, -, hoffset⟩ | ⟨k, -, hoffset⟩ := place_bounds hs <;>
        simp only [paramBase, wordSize] at hoffset heq <;> omega

theorem offset?_injective {c : Context} {func env env' : ScopeId} {name name' : String} {offset : Int}
    (h : (layout c func).offset? env name = some offset)
    (h' : (layout c func).offset? env' name' = some offset) : env = env' ∧ name = name' := by
  obtain ⟨s, hs, rfl, rfl, hoffset⟩ := exists_of_offset? h
  obtain ⟨s', hs', rfl, rfl, hoffset'⟩ := exists_of_offset? h'
  have heq : s = s' :=
    List.inj_on_of_nodup_map (place_nodup 0 0 _) hs hs' (hoffset.trans hoffset'.symm)
  rw [heq]
  exact ⟨rfl, rfl⟩

def paramSlot (env : ScopeId) (k : Nat) (r : Record) : Slot :=
  ⟨env, r.name, r.ty, paramBase + wordSize * k, true⟩

/-- Parameters that come first have the first slots. -/
theorem place_append_params {env : ScopeId} {ps : List Record} (hps : ∀ r ∈ ps, r.kind.has .param = true)
    (params locals : Nat) (rest : List (ScopeId × Record)) :
    place params locals (ps.map (fun r => (env, r)) ++ rest) =
      (ps.mapIdx fun k r => paramSlot env (params + k) r) ++ place (params + ps.length) locals rest := by
  induction ps generalizing params with
  | nil => rfl
  | cons r ps ih =>
    obtain ⟨hr, hps⟩ := List.forall_mem_cons.mp hps
    rw [List.map_cons, List.cons_append, place_cons_param hr, ih hps, List.mapIdx_cons,
      List.length_cons, List.cons_append]
    simp only [Nat.add_assoc, Nat.add_comm 1]
    rfl

theorem filter_place_locals {l : List (ScopeId × Record)} (hl : ∀ x ∈ l, x.2.kind.has .param = false)
    (params locals : Nat) : (place params locals l).filter Slot.isParam = [] := by
  induction l generalizing locals with
  | nil => rfl
  | cons head rest ih =>
    obtain ⟨hhead, hrest⟩ := List.forall_mem_cons.mp hl
    rw [place_cons_local hhead, List.filter_cons_of_neg (by simp)]
    exact ih hrest _

end UnitCompiler.Frame
