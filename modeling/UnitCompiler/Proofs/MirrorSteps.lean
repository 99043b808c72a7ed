import UnitCompiler.Proofs.Mirror

namespace UnitCompiler

open Context

def Target.Fits (l : Shift) (t t' : Table) : Target → Prop
  | .scope env => t.Answers l t' ∧ (env ≠ root → t.Mirrors l t')
  | .fields _ | .params _ => t.Mirrors l t'

theorem Target.Fits.answers {l : Shift} {t t' : Table} {target : Target} (h : target.Fits l t t') :
    t.Answers l t' := by
  cases target with
  | scope => exact h.1
  | fields | params => exact Table.Mirrors.answers h

theorem Target.Fits.concat {l : Shift} {t t' : Table} {target : Target} (h : target.Fits l t t')
    {r r' : Record} (hr : r.Mirrors l r') :
    target.Fits l ⟨t.records ++ [r]⟩ ⟨t'.records ++ [r']⟩ := by
  cases target with
  | scope => exact ⟨h.1.concat hr, fun hne => (h.2 hne).concat hr⟩
  | fields | params => exact Table.Mirrors.concat h hr

theorem Table.Mirrors.layOut {l : Shift} {t t' : Table} (h : t.Mirrors l t') (word : UInt32) :
    (t.layOut word).Mirrors l (t'.layOut word) := by
  have hmap : ∀ {rs rs' : List Record} (f : Nat → Record → Record), List.Forall₂ (Record.Mirrors l) rs rs' →
      (∀ k r r', r.Mirrors l r' → (f k r).Mirrors l (f k r')) →
      List.Forall₂ (Record.Mirrors l) (rs.mapIdx f) (rs'.mapIdx f) := by
    intro rs rs' f hrs hf
    induction hrs generalizing f with
    | nil => exact .nil
    | cons hr _ ih =>
      rw [List.mapIdx_cons, List.mapIdx_cons]
      exact .cons (hf 0 _ _ hr) (ih _ fun k => hf (k + 1))
  exact hmap _ h fun k r r' hr => ⟨hr.name, hr.ty, hr.kind⟩

/-- The tables that a run may change: those of its own scopes and types, and those that `own` holds of. -/
def Target.Open (l : Shift) (own : Target → Prop) : Target → Prop
  | .scope env => env = root → own (.scope root)
  | .fields ty => l.Live own ty
  | .params ty => l.floor ≤ ty

def Target.Among (done : TypeId → Prop) : Target → Prop
  | .fields ty => done ty
  | .scope _ | .params _ => False

structure Scope.Stays (s s' : Scope) : Prop where
  kind : s'.kind = s.kind
  parent : s'.parent = s.parent
  symbol : s'.symbol = s.symbol

theorem Scope.stays_ite {f : Scope → Scope} (hf : ∀ s, Scope.Stays s (f s)) (p : Prop) [Decidable p] (s : Scope) :
    s.Stays (if p then f s else s) := by
  split
  · exact hf s
  · exact ⟨rfl, rfl, rfl⟩

namespace Context.Mirror

variable {l : Shift} {own : Target → Prop} {b c c' : Context} {env : ScopeId}

theorem size_shift (h : Mirror l own b c c') : l.ty c.types.size = c'.types.size := by
  rw [Shift.ty_of_le h.floor, h.size]

theorem length_shift (h : Mirror l own b c c') : l.env c.scopes.length = c'.scopes.length := by
  rw [Shift.env_of_ne (Nat.ne_of_gt h.pos), h.length]

theorem freshLabel (h : Mirror l own b c c') : Mirror l own b c.freshLabel.2 c'.freshLabel.2 :=
  { h with
    issued := Nat.le_succ_of_le h.issued
    labels := by
      change c'.labels + 1 = c.labels + 1 + l.labels
      rw [h.labels, Nat.add_right_comm]
    keeps := ⟨h.keeps.types, h.keeps.scopes, Nat.le_succ_of_le h.keeps.labels, h.keeps.root⟩ }

theorem moves_freshLabel (h : Mirror l own b c c') : l.Moves c.freshLabel.1 c'.freshLabel.1 := by
  refine ⟨c.labels + 1, rfl, ?_⟩
  have hlt : ¬ c.labels + 1 ≤ l.issued := Nat.not_le.mpr (Nat.lt_succ_of_le h.issued)
  rw [Shift.number, if_neg hlt, Context.freshLabel, h.labels, Nat.add_right_comm]

/-- The image of a scope is the outermost scope or none of those that the second run began with. -/
theorem env_ne (h : Mirror l own b c c') {e k : ScopeId} {s : Scope} (hk : k ≠ root)
    (hs : b.scopes[k]? = some s) : l.env e ≠ k := by
  have hlt := (List.getElem?_eq_some_iff.mp hs).1
  by_cases he : e = root
  · simpa [he] using hk.symm
  · rw [Shift.env_of_ne he]
    have hbase := h.baseScopes
    have hpos : 0 < e := Nat.pos_of_ne_zero he
    simp only [ScopeId] at *
    omega

/-- A change to a scope of the second run leaves alone what that run began with. -/
theorem keeps_modifyScope (h : Mirror l own b c c') {e : ScopeId} {f' : Scope → Scope}
    (hroot : e = root → own (.scope root) ∨ ∀ s : Scope, s.Agrees (f' s)) :
    Keeps (l.Owned own) b (c'.modifyScope (l.env e) f') := by
  refine ⟨h.keeps.types, ?_, h.keeps.labels, ?_⟩
  · intro k s hk hs
    simp [h.keeps.scopes hk hs, h.env_ne hk hs]
  · intro hown
    refine (h.keeps.root hown).trans ?_
    rw [scope_modifyScope]
    split
    · rename_i he
      obtain hopen | hagrees := hroot (Shift.env_strictMono.injective (he.1.trans Shift.env_root.symm))
      · exact absurd ⟨.scope root, hopen, congrArg Target.scope Shift.env_root⟩ hown
      · exact hagrees _
    · exact .refl _

theorem modifyScope (h : Mirror l own b c c') {e : ScopeId} {f f' : Scope → Scope}
    (hf : ∀ {s s'}, Scope.Mirrors l (e ≠ root) s s' → (f s).Mirrors l (e ≠ root) (f' s'))
    (hstays : ∀ s, Scope.Stays s (f s)) (hstays' : ∀ s, Scope.Stays s (f' s))
    (hyounger : ∀ s, ∀ k ∈ (f s).children, k ∈ s.children ∨ e < k ∧ k < c.scopes.length)
    (hroot : e = root → own (.scope root) ∨ ∀ s : Scope, s.Agrees (f' s)) :
    Mirror l own b (c.modifyScope e f) (c'.modifyScope (l.env e) f') := by
  have hscope : ∀ {k s}, (c.modifyScope e f).scopes[k]? = some s →
      ∃ s₀, c.scopes[k]? = some s₀ ∧ s = if e = k then f s₀ else s₀ := by
    intro k s hs
    obtain ⟨s₀, hs₀, heq⟩ := getElem?_modifyScope_eq_some.mp hs
    exact ⟨s₀, hs₀, heq.symm⟩
  have hlength := length_modifyScope c e f
  have hlength' := length_modifyScope c' (l.env e) f'
  refine { h with
    pos := hlength.symm ▸ h.pos, length := ?_, scopes := ?_, symbols := ?_, rising := ?_, blocks := ?_,
    younger := ?_, keeps := h.keeps_modifyScope hroot }
  · intro k s hs
    obtain ⟨s₀, hs₀, rfl⟩ := hscope hs
    obtain ⟨s', hs', hmirror⟩ := h.scopes hs₀
    rw [getElem?_modifyScope, hs']
    refine ⟨_, rfl, ?_⟩
    dsimp only
    -- scopes are renumbered one to one, so the copy changes the same scope and no other
    by_cases hek : e = k
    · subst hek
      rw [if_pos rfl, if_pos rfl]
      exact hf hmirror
    · rw [if_neg hek, if_neg fun heq => hek (Shift.env_strictMono.injective heq)]
      exact hmirror
  · intro k s s' hk hs hs'
    obtain ⟨s₀, hs₀, rfl⟩ := hscope hs
    obtain ⟨s₁, hs₁, rfl⟩ := getElem?_modifyScope_eq_some.mp hs'
    rw [(Scope.stays_ite hstays (e = k) s₀).symbol, (Scope.stays_ite hstays' (l.env e = l.env k) s₁).symbol]
    exact h.symbols hk hs₀ hs₁
  · intro k p s hs hp
    obtain ⟨s₀, hs₀, rfl⟩ := hscope hs
    rw [(Scope.stays_ite hstays (e = k) s₀).parent] at hp
    exact h.rising hs₀ hp
  · intro k s hs hk
    obtain ⟨s₀, hs₀, rfl⟩ := hscope hs
    have hstay := Scope.stays_ite hstays (e = k) s₀
    rw [hstay.kind] at hk
    rw [hstay.parent]
    exact h.blocks hs₀ hk
  · intro k s hk hs j hj
    obtain ⟨s₀, hs₀, rfl⟩ := hscope hs
    rw [hlength]
    split at hj
    · rename_i hek
      subst hek
      -- a child was there before, or it has just been opened
      obtain hold | hnew := hyounger s₀ j hj
      · exact h.younger hk hs₀ j hold
      · exact hnew
    · exact h.younger hk hs₀ j hj
  · rw [hlength, hlength']
    exact h.length

theorem keeps_setType (h : Mirror l own b c c') {id : TypeId} {u' t' : Ty} (hu' : c'.types.get? (l.ty id) = some u')
    (hid : own (.fields id) ∧ u'.Refills t' ∨ l.floor ≤ id) {k : TypeId} {v : Ty} (hv : b.types.get? k = some v) :
    ∃ v', (c'.types.set (l.ty id) t').get? k = some v' ∧ (v' = v ∨ l.Owned own (.fields k) ∧ v.Refills v') := by
  rw [get?_set, hu', Option.map_some]
  by_cases hk : l.ty id = k
  · rw [if_pos hk]
    refine ⟨t', rfl, Or.inr ?_⟩
    obtain ⟨hown, hrefill⟩ | hle := hid
    · subst hk
      have howned : l.Owned own (.fields (l.ty id)) := ⟨.fields id, hown, rfl⟩
      obtain ⟨v', hv', hor⟩ := h.keeps.types hv
      obtain rfl : v' = u' := Option.some.inj (hv'.symm.trans hu')
      obtain rfl | ⟨-, hrefill'⟩ := hor
      · exact ⟨howned, hrefill⟩
      · exact ⟨howned, hrefill'.trans hrefill⟩
    · -- a type behind the floor moves behind all types of the base
      have hlt : k < b.types.size := lt_size_of_get? hv
      rw [← hk, Shift.ty_of_le hle, h.base] at hlt
      exact absurd hlt (Nat.not_lt.mpr (Nat.add_le_add_right hle _))
  · rw [if_neg hk]
    exact h.keeps.types hv

/-- A type behind those that both contexts share, or the struct under check, may be replaced. -/
theorem setType (h : Mirror l own b c c') {id : TypeId} {u u' t t' : Ty} (hu : c.types.get? id = some u)
    (hu' : c'.types.get? (l.ty id) = some u') (ht : t.Mirrors l (l.Live own id) t')
    (hid : own (.fields id) ∧ u'.Refills t' ∨ l.floor ≤ id) :
    Mirror l own b { c with types := c.types.set id t } { c' with types := c'.types.set (l.ty id) t' } := by
  have hsize : (c.types.set id t).size = c.types.size := List.length_set
  have hsize' : (c'.types.set (l.ty id) t').size = c'.types.size := List.length_set
  refine { h with
    floor := hsize.symm ▸ h.floor, size := ?_, types := ?_,
    keeps := ⟨h.keeps_setType hu' hid, h.keeps.scopes, h.keeps.labels, h.keeps.root⟩ }
  · intro k v hv
    simp only [get?_set, hu, Option.map_some] at hv
    simp only [get?_set, hu', Option.map_some]
    by_cases hk : id = k
    · subst hk
      rw [if_pos rfl] at hv ⊢
      cases hv
      exact ⟨t', rfl, ht⟩
    · rw [if_neg hk] at hv
      rw [if_neg fun heq => hk (Shift.ty_injective heq)]
      exact h.types hv
  · rw [hsize, hsize']
    exact h.size

theorem addType (h : Mirror l own b c c') (env : ScopeId) {t t' : Ty} (ht : ∀ live, t.Mirrors l live t') :
    Mirror l own b (c.addType env t).2 (c'.addType (l.env env) t').2 := by
  have hadd : Mirror l own b { c with types := (c.types.add t).2 } { c' with types := (c'.types.add t').2 } := by
    have hsize : (c.types.add t).2.size = c.types.size + 1 := List.length_append
    have hsize' : (c'.types.add t').2.size = c'.types.size + 1 := List.length_append
    refine { h with
      floor := ?_, size := ?_, types := ?_, keeps := ⟨?_, h.keeps.scopes, h.keeps.labels, h.keeps.root⟩ }
    · intro k v hv
      change (c.types.types ++ [t])[k]? = some v at hv
      change ∃ v', (c'.types.types ++ [t'])[l.ty k]? = some v' ∧ _
      obtain hold | ⟨rfl, rfl⟩ := getElem?_concat_eq_some.mp hv
      · obtain ⟨v', hv', hmirror⟩ := h.types hold
        exact ⟨v', getElem?_concat_eq_some.mpr (Or.inl hv'), hmirror⟩
      · exact ⟨t', getElem?_concat_eq_some.mpr (Or.inr ⟨h.size_shift, rfl⟩), ht _⟩
    · rw [hsize]
      exact Nat.le_succ_of_le h.floor
    · rw [hsize, hsize', h.size, Nat.add_right_comm]
    · intro k v hv
      obtain ⟨v', hv', hor⟩ := h.keeps.types hv
      exact ⟨v', (get?_add_of_lt (lt_size_of_get? hv') t').trans hv', hor⟩
  exact hadd.modifyScope (fun hs => ⟨hs.kind, hs.parent, hs.answers, hs.labels, hs.decls, hs.children⟩)
    (fun _ => ⟨rfl, rfl, rfl⟩) (fun _ => ⟨rfl, rfl, rfl⟩) (fun _ _ hk => Or.inl hk)
    fun _ => Or.inr fun _ => ⟨rfl, rfl, rfl, rfl⟩

theorem addScope (h : Mirror l own b c c') {s s' : Scope} (hs : ∀ inner, s.Mirrors l inner s')
    (hsymbol : l.Moves s.symbol s'.symbol) (hparent : ∀ p, s.parent = some p → p < c.scopes.length)
    (hblock : s.kind = .block → ∃ p, s.parent = some p ∧ p ≠ root) (hchildren : s.children = []) :
    Mirror l own b { c with scopes := c.scopes ++ [s] } { c' with scopes := c'.scopes ++ [s'] } := by
  have hold' : ∀ {k u}, c'.scopes[k]? = some u → (c'.scopes ++ [s'])[k]? = some u :=
    fun hu => getElem?_concat_eq_some.mpr (Or.inl hu)
  have hnew' : (c'.scopes ++ [s'])[l.env c.scopes.length]? = some s' :=
    getElem?_concat_eq_some.mpr (Or.inr ⟨h.length_shift, rfl⟩)
  refine { h with
    pos := ?_, length := ?_, scopes := ?_, symbols := ?_, rising := ?_, blocks := ?_, younger := ?_,
    keeps := ⟨h.keeps.types, ?_, h.keeps.labels, ?_⟩ }
  · simp
  · intro k u hu
    obtain hold | ⟨rfl, rfl⟩ := getElem?_concat_eq_some.mp hu
    · obtain ⟨u', hu', hmirror⟩ := h.scopes hold
      exact ⟨u', hold' hu', hmirror⟩
    · exact ⟨s', hnew', hs _⟩
  · intro k u u' hk hu hu'
    obtain hold | ⟨rfl, rfl⟩ := getElem?_concat_eq_some.mp hu
    · obtain ⟨v, hv, -⟩ := h.scopes hold
      obtain rfl : v = u' := Option.some.inj ((hold' hv).symm.trans hu')
      exact h.symbols hk hold hv
    · obtain rfl : s' = u' := Option.some.inj (hnew'.symm.trans hu')
      exact hsymbol
  · intro k p u hu hp
    obtain hold | ⟨rfl, rfl⟩ := getElem?_concat_eq_some.mp hu
    · exact h.rising hold hp
    · exact hparent p hp
  · intro k u hu hk
    obtain hold | ⟨rfl, rfl⟩ := getElem?_concat_eq_some.mp hu
    · exact h.blocks hold hk
    · exact hblock hk
  · intro k u hk hu j hj
    obtain hold | ⟨rfl, rfl⟩ := getElem?_concat_eq_some.mp hu
    · obtain ⟨hlt, hlength⟩ := h.younger hk hold j hj
      exact ⟨hlt, by simpa using Nat.lt_succ_of_lt hlength⟩
    -- nothing is inside the new scope yet
    · rw [hchildren] at hj
      exact absurd hj List.not_mem_nil
  · simp only [List.length_append, List.length_singleton, h.length, Nat.add_right_comm]
  · exact fun hk hu => hold' (h.keeps.scopes hk hu)
  · intro hown
    refine (h.keeps.root hown).trans ?_
    have hpos : root < c'.scopes.length := h.pos_right
    unfold Context.scope
    rw [List.getElem?_append_left hpos]
    exact .refl _

theorem table? (h : Mirror l own b c c') {target : Target} (htarget : target.Open l own) :
    Option.Rel (fun t t' => target.Fits l t t') (c.table? target) (c'.table? (target.shift l)) := by
  cases target with
  | scope env => exact Option.Rel.some (show (Target.scope env).Fits l _ _ from
      ⟨(h.scope env).answers, (h.scope env).decls⟩)
  | fields ty =>
    have ht := h.get? ty
    unfold Context.table? Target.shift
    dsimp only
    generalize c'.types.get? (l.ty ty) = y at ht ⊢
    generalize c.types.get? ty = x at ht ⊢
    cases ht with
    | none => exact .none
    | some ht =>
      cases ht with
      | struct hfields => exact Option.Rel.some (show (Target.fields ty).Fits l _ _ from hfields htarget)
      | _ => exact .none
  | params ty =>
    have ht := h.get? ty
    unfold Context.table? Target.shift
    dsimp only
    generalize c'.types.get? (l.ty ty) = y at ht ⊢
    generalize c.types.get? ty = x at ht ⊢
    cases ht with
    | none => exact .none
    | some ht =>
      cases ht with
      | function hparams => exact .some hparams
      | _ => exact .none

theorem setTable (h : Mirror l own b c c') {target : Target} (htarget : target.Open l own) {t t' : Table}
    (ht : target.Fits l t t') :
    Mirror l own b (c.setTable target t) (c'.setTable (target.shift l) t') := by
  cases target with
  | scope env =>
    exact h.modifyScope (fun hs => ⟨hs.kind, hs.parent, ht.1, hs.labels, ht.2, hs.children⟩)
      (fun _ => ⟨rfl, rfl, rfl⟩) (fun _ => ⟨rfl, rfl, rfl⟩) (fun _ _ hk => Or.inl hk)
      fun hroot => Or.inl (htarget hroot)
  | fields ty =>
    have hty := h.get? ty
    unfold Context.setTable Target.shift
    dsimp only
    generalize hy : c'.types.get? (l.ty ty) = y at hty ⊢
    generalize hx : c.types.get? ty = x at hty ⊢
    cases hty with
    | none => exact h
    | some hty =>
      cases hty with
      -- only a struct has fields, and other types are left as they are
      | struct =>
        refine h.setType hx hy (.struct fun _ => ht) ?_
        exact htarget.imp_left fun hown => ⟨hown, _, _, _, rfl, rfl⟩
      | _ => exact h
  | params ty =>
    have hty := h.get? ty
    unfold Context.setTable Target.shift
    dsimp only
    generalize hy : c'.types.get? (l.ty ty) = y at hty ⊢
    generalize hx : c.types.get? ty = x at hty ⊢
    cases hty with
    | none => exact h
    | some hty =>
      cases hty with
      | function => exact h.setType hx hy (.function ht) (Or.inr htarget)
      | _ => exact h

theorem insert (h : Mirror l own b c c') {target : Target} (htarget : target.Open l own) {r r' : Record}
    (hr : r.Mirrors l r') (what : String) :
    Alike (fun p p' : Nat × Context => Mirror l own b p.2 p'.2) (c.insert target r what)
      (c'.insert (target.shift l) r' what) := by
  have ht := h.table? htarget
  unfold Context.insert
  generalize c'.table? (target.shift l) = y at ht ⊢
  generalize c.table? target = x at ht ⊢
  cases ht with
  | none => cases target <;> exact .error ⟨rfl, rfl, rfl⟩
  | some ht =>
    dsimp only
    unfold Table.insert
    rw [hr.name, ht.answers.contains]
    cases hc : Table.contains _ r.name with
    | true => exact .error ⟨rfl, rfl, rfl⟩
    | false => exact .ok (h.setTable htarget (ht.concat hr))

theorem layOutFields (h : Mirror l own b c c') {ty : TypeId} (hty : l.Live own ty) (word : UInt32) :
    Alike (Mirror l own b) (c.layOutFields ty word) (c'.layOutFields (l.ty ty) word) := by
  have ht := h.table? (show (Target.fields ty).Open l own from hty)
  unfold Context.layOutFields
  change Option.Rel _ _ (c'.table? (.fields (l.ty ty))) at ht
  generalize c'.table? (.fields (l.ty ty)) = y at ht ⊢
  generalize c.table? (.fields ty) = x at ht ⊢
  cases ht with
  | none => exact .error ⟨rfl, rfl, rfl⟩
  | @some t t' ht =>
    have hlaid : (t.layOut word).Mirrors l (t'.layOut word) := Table.Mirrors.layOut ht word
    exact .ok (h.setTable (show (Target.fields ty).Open l own from hty) hlaid)

theorem openFunction (h : Mirror l own b c c') {parent : ScopeId} (hparent : parent < c.scopes.length)
    (result result' : TypeId) :
    Mirror l own b (c.openFunction parent result).2 (c'.openFunction (l.env parent) result').2 := by
  refine h.freshLabel.addScope ?_ h.moves_freshLabel ?_ ?_ rfl
  · exact fun _ => ⟨rfl, rfl, fun _ => .none, rfl, fun _ => .nil, fun _ => rfl⟩
  · intro p hp
    cases hp
    exact hparent
  · exact fun hk => nomatch hk

theorem openBlock (h : Mirror l own b c c') {parent : ScopeId} (hparent : parent < c.scopes.length)
    (hroot : parent ≠ root) :
    Mirror l own b (c.openBlock parent).2 (c'.openBlock (l.env parent)).2 := by
  have hs : c.scopes[parent]? = some c.scopes[parent] := List.getElem?_eq_getElem hparent
  obtain ⟨s', hs', -⟩ := h.scopes hs
  have hsymbol : l.Moves (blockScope c parent).symbol (blockScope c' (l.env parent)).symbol := by
    change l.Moves (c.scope parent).symbol (c'.scope (l.env parent)).symbol
    rw [scope_eq hs, scope_eq hs']
    exact h.symbols hroot hs hs'
  have hadd : Mirror l own b { c with scopes := c.scopes ++ [blockScope c parent] }
      { c' with scopes := c'.scopes ++ [blockScope c' (l.env parent)] } := by
    refine h.addScope ?_ hsymbol ?_ ?_ rfl
    · exact fun _ => ⟨rfl, rfl, fun _ => .none, rfl, fun _ => .nil, fun _ => rfl⟩
    · intro p hp
      cases hp
      exact hparent
    · exact fun _ => ⟨parent, rfl, hroot⟩
  refine hadd.modifyScope (fun hs => ⟨hs.kind, hs.parent, hs.answers, hs.labels, hs.decls, fun hinner => ?_⟩)
    (fun _ => ⟨rfl, rfl, rfl⟩) (fun _ => ⟨rfl, rfl, rfl⟩) ?_ fun _ => Or.inr fun _ => ⟨rfl, rfl, rfl, rfl⟩
  · dsimp only
    rw [hs.children hinner, List.map_append, List.map_singleton, h.length_shift]
  · intro s k hk
    obtain hold | hnew := List.mem_append.mp hk
    · exact Or.inl hold
    · rw [List.mem_singleton.mp hnew]
      exact Or.inr ⟨hparent, by simp⟩

theorem modifyLabel (h : Mirror l own b c c') (henv : env ≠ root) (name : String) (f : JumpLabel → JumpLabel) :
    Mirror l own b (c.modifyLabel env name f) (c'.modifyLabel (l.env env) name f) := by
  unfold Context.modifyLabel
  rw [h.functionOf]
  refine h.modifyScope (fun hs => ⟨hs.kind, hs.parent, hs.answers, ?_, hs.decls, hs.children⟩)
    (fun _ => ⟨rfl, rfl, rfl⟩) (fun _ => ⟨rfl, rfl, rfl⟩) (fun _ _ hk => Or.inl hk)
    fun hroot => absurd hroot (h.functionOf_ne_root henv)
  exact congrArg (JumpLabel.update name f) hs.labels

theorem placeLabel (h : Mirror l own b c c') (henv : env ≠ root) (name : String) (pos : Span) :
    Alike (Mirror l own b) (c.placeLabel env name pos) (c'.placeLabel (l.env env) name pos) := by
  have hplaced : c'.isPlaced (l.env env) name = c.isPlaced env name := by
    unfold Context.isPlaced
    rw [h.functionOf, (h.scope _).labels]
  unfold Context.placeLabel
  rw [hplaced]
  split
  · exact .error ⟨rfl, rfl, rfl⟩
  · exact .ok (h.modifyLabel henv name _)

end Context.Mirror

end UnitCompiler
