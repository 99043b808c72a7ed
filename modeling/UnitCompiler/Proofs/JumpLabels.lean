import UnitCompiler.Proofs.Blocks

namespace UnitCompiler

open Context

def Stmt.labelName? : Stmt → Option String
  | .label name _ _ => some name
  | .declare _ | .block _ _ | .goto _ _ _ | .eval _ _ => none

def Stmt.labelNames (body : List Stmt) : List String :=
  (Stmt.atomsOfAll body).filterMap Stmt.labelName?

def Stmt.jump? : Stmt → Option (String × Span)
  | .goto name span _ => some (name, span)
  | .declare _ | .block _ _ | .label _ _ _ | .eval _ _ => none

/-- The jumps among the statements, at any depth, in the order of the text. -/
def Stmt.jumps (body : List Stmt) : List (String × Span) :=
  (Stmt.atomsOfAll body).filterMap Stmt.jump?

def Stmt.gotos (body : List Stmt) : List String :=
  (Stmt.jumps body).map Prod.fst

theorem Stmt.mem_gotos {body : List Stmt} {name : String} {span : Span} {old : Option ScopeId}
    (h : .goto name span old ∈ Stmt.atomsOfAll body) : name ∈ Stmt.gotos body :=
  List.mem_map.mpr ⟨(name, span), List.mem_filterMap.mpr ⟨_, h, rfl⟩, rfl⟩

@[simp] theorem Stmt.jumps_nil : Stmt.jumps [] = [] := rfl

@[simp] theorem Stmt.labelNames_nil : Stmt.labelNames [] = [] := rfl

@[simp] theorem Stmt.jumps_block (body : List Stmt) (span : Span) (rest : List Stmt) :
    Stmt.jumps (.block body span :: rest) = Stmt.jumps body ++ Stmt.jumps rest :=
  List.filterMap_append

@[simp] theorem Stmt.labelNames_block (body : List Stmt) (span : Span) (rest : List Stmt) :
    Stmt.labelNames (.block body span :: rest) = Stmt.labelNames body ++ Stmt.labelNames rest :=
  List.filterMap_append

namespace JumpLabel

/-- The entries are those of the labels jumped to and of the labels placed, and they know which of them
are placed. -/
structure Tracks (gotos placed : List String) (ls : List JumpLabel) : Prop where
  nodup : (ls.map JumpLabel.name).Nodup
  names : ∀ n, n ∈ ls.map JumpLabel.name ↔ n ∈ gotos ∨ n ∈ placed
  defined : ∀ l ∈ ls, l.defined.isSome ↔ l.name ∈ placed

theorem tracks_nil : Tracks [] [] [] := by
  refine ⟨List.nodup_nil, fun n => by simp, fun l hl => by cases hl⟩

variable {name : String} {f : JumpLabel → JumpLabel} {ls : List JumpLabel}

theorem map_name_update (hf : ∀ l, (f l).name = l.name) :
    (update name f ls).map JumpLabel.name =
      if name ∈ ls.map JumpLabel.name then ls.map JumpLabel.name
      else ls.map JumpLabel.name ++ [name] := by
  induction ls with
  | nil => simp [update, hf]
  | cons l ls ih =>
    rw [update]
    by_cases h : l.name = name
    · simp [h, hf]
    · rw [if_neg h, List.map_cons, ih]
      by_cases hmem : name ∈ ls.map JumpLabel.name
      · have hmem' : name ∈ (l :: ls).map JumpLabel.name := List.mem_cons_of_mem _ hmem
        rw [if_pos hmem, if_pos hmem', List.map_cons]
      · have hne : name ∉ (l :: ls).map JumpLabel.name := by
          rw [List.map_cons, List.mem_cons, not_or]
          exact ⟨Ne.symm h, hmem⟩
        rw [if_neg hmem, if_neg hne, List.map_cons, List.cons_append]

/-- An entry after an update is an old one under another name, or the changed one. -/
theorem mem_update (hnodup : (ls.map JumpLabel.name).Nodup) {l : JumpLabel}
    (h : l ∈ update name f ls) : l ∈ ls ∧ l.name ≠ name ∨
      ∃ l₀, l = f l₀ ∧ l₀.name = name ∧
        (l₀ ∈ ls ∨ l₀ = ⟨name, none, none⟩ ∧ name ∉ ls.map JumpLabel.name) := by
  induction ls with
  | nil =>
    rw [update, List.mem_singleton] at h
    exact Or.inr ⟨_, h, rfl, Or.inr ⟨rfl, List.not_mem_nil⟩⟩
  | cons x ls ih =>
    obtain ⟨hx, hls⟩ := List.nodup_cons.mp hnodup
    rw [update] at h
    split at h
    · rename_i hname
      obtain rfl | h := List.mem_cons.mp h
      · exact Or.inr ⟨x, rfl, hname, Or.inl List.mem_cons_self⟩
      · refine Or.inl ⟨List.mem_cons_of_mem _ h, fun hl => hx ?_⟩
        rw [hname, ← hl]
        exact List.mem_map_of_mem h
    · rename_i hname
      obtain rfl | h := List.mem_cons.mp h
      · exact Or.inl ⟨List.mem_cons_self, hname⟩
      · obtain ⟨hmem, hne⟩ | ⟨l₀, hl, hl₀, hmem | ⟨hblank, hnew⟩⟩ := ih hls h
        · exact Or.inl ⟨List.mem_cons_of_mem _ hmem, hne⟩
        · exact Or.inr ⟨l₀, hl, hl₀, Or.inl (List.mem_cons_of_mem _ hmem)⟩
        · refine Or.inr ⟨l₀, hl, hl₀, Or.inr ⟨hblank, ?_⟩⟩
          rw [List.map_cons, List.mem_cons, not_or]
          exact ⟨Ne.symm hname, hnew⟩

theorem nodup_update (hf : ∀ l, (f l).name = l.name) (h : (ls.map JumpLabel.name).Nodup) :
    ((update name f ls).map JumpLabel.name).Nodup := by
  rw [map_name_update hf]
  by_cases hmem : name ∈ ls.map JumpLabel.name
  · rwa [if_pos hmem]
  · rw [if_neg hmem]
    exact List.nodup_append_comm.mp (List.nodup_cons.mpr ⟨hmem, h⟩)

theorem mem_names_update (hf : ∀ l, (f l).name = l.name) {n : String} :
    n ∈ (update name f ls).map JumpLabel.name ↔ n ∈ ls.map JumpLabel.name ∨ n = name := by
  rw [map_name_update hf]
  by_cases hmem : name ∈ ls.map JumpLabel.name
  · rw [if_pos hmem]
    constructor
    · exact Or.inl
    · rintro (h | rfl)
      · exact h
      · exact hmem
  · rw [if_neg hmem, List.mem_append, List.mem_singleton]

variable {gotos placed : List String}

theorem Tracks.jump (h : Tracks gotos placed ls) (name : String) (pos : Span) :
    Tracks (gotos ++ [name]) placed
      (update name (fun l => { l with referenced := l.referenced.or (some pos) }) ls) := by
  refine ⟨nodup_update (fun _ => rfl) h.nodup, fun n => ?_, fun l hl => ?_⟩
  · refine (mem_names_update (by intro; rfl)).trans ?_
    rw [h.names n, List.mem_append, List.mem_singleton]
    tauto
  · obtain ⟨hmem, -⟩ | ⟨l₀, rfl, -, hmem | ⟨rfl, hnew⟩⟩ := mem_update h.nodup hl
    · exact h.defined l hmem
    · exact h.defined l₀ hmem
    · rw [h.names, not_or] at hnew
      simp [hnew.2]

theorem Tracks.place (h : Tracks gotos placed ls) (name : String) (pos : Span) :
    Tracks gotos (placed ++ [name]) (update name (fun l => { l with defined := some pos }) ls) := by
  refine ⟨nodup_update (fun _ => rfl) h.nodup, fun n => ?_, fun l hl => ?_⟩
  · refine (mem_names_update (by intro; rfl)).trans ?_
    rw [h.names n, List.mem_append, List.mem_singleton]
    tauto
  · rw [List.mem_append, List.mem_singleton]
    obtain ⟨hmem, hne⟩ | ⟨l₀, rfl, hname, -⟩ := mem_update h.nodup hl
    · rw [h.defined l hmem]
      simp [hne]
    · simp [hname]

/-- A label that was placed before would have an entry that says so. -/
theorem Tracks.not_mem_placed (h : Tracks gotos placed ls) {name : String}
    (hnew : (ls.any fun l => l.name == name && l.defined.isSome) = false) : name ∉ placed := by
  intro hmem
  obtain ⟨l, hl, rfl⟩ := List.mem_map.mp ((h.names name).mpr (Or.inr hmem))
  rw [List.any_eq_false] at hnew
  exact hnew l hl (by simpa using (h.defined l hl).mpr hmem)

end JumpLabel

namespace Context

def jumpLabels (c : Context) (env : ScopeId) : List JumpLabel :=
  (c.scope env).labels

def KeepsJumps (c c' : Context) : Prop :=
  ∀ e, c'.jumpLabels e = c.jumpLabels e

variable {c c₁ c' : Context} {env func : ScopeId}

theorem KeepsJumps.refl (c : Context) : KeepsJumps c c := fun _ => rfl

theorem KeepsJumps.trans (h : KeepsJumps c c₁) (h' : KeepsJumps c₁ c') : KeepsJumps c c' :=
  fun e => (h' e).trans (h e)

theorem jumpLabels_of_le {e : ScopeId} (h : c.scopes.length ≤ e) : c.jumpLabels e = [] := by
  unfold jumpLabels scope
  rw [List.getElem?_eq_none h]
  rfl

theorem jumpLabels_modifyScope (c : Context) (env e : ScopeId) {f : Scope → Scope}
    (hf : ∀ s, (f s).labels = s.labels) : (c.modifyScope env f).jumpLabels e = c.jumpLabels e :=
  view_modifyScope c env Scope.labels e hf

theorem keepsJumps_addScope {s : Scope} (hs : s.labels = []) (hscopes : c'.scopes = c.scopes ++ [s]) :
    KeepsJumps c c' := by
  intro e
  unfold jumpLabels scope
  rw [hscopes]
  by_cases he : e < c.scopes.length
  · rw [List.getElem?_append_left he]
  · have hge : c.scopes.length ≤ e := Nat.le_of_not_lt he
    rw [List.getElem?_append_right hge, List.getElem?_eq_none hge]
    cases hk : e - c.scopes.length with
    | zero => exact hs
    | succ k => rfl

theorem keepsJumps_addType (c : Context) (env : ScopeId) (t : Ty) : KeepsJumps c (c.addType env t).2 :=
  fun e => jumpLabels_modifyScope _ env e fun _ => rfl

theorem keepsJumps_setTable (c : Context) (target : Target) (t : Table) :
    KeepsJumps c (c.setTable target t) := by
  intro e
  cases target with
  | scope env => exact jumpLabels_modifyScope c env e fun _ => rfl
  | fields ty | params ty => simp [jumpLabels]

theorem keepsJumps_openFunction (c : Context) (parent : ScopeId) (result : TypeId) :
    KeepsJumps c (c.openFunction parent result).2 :=
  keepsJumps_addScope rfl rfl

theorem keepsJumps_openBlock (c : Context) (parent : ScopeId) :
    KeepsJumps c (c.openBlock parent).2 := by
  intro e
  have hadd (s : Scope) (hs : s.labels = []) : KeepsJumps c { c with scopes := c.scopes ++ [s] } :=
    keepsJumps_addScope hs rfl
  exact (jumpLabels_modifyScope _ parent e (by intro; rfl)).trans (hadd _ rfl e)

theorem jumpLabels_modifyLabel (hin : Within c func env) (name : String) (f : JumpLabel → JumpLabel) :
    (c.modifyLabel env name f).jumpLabels func = JumpLabel.update name f (c.jumpLabels func) := by
  have hlt : func < c.scopes.length := Nat.lt_of_le_of_lt hin.le hin.lt_length
  simp [modifyLabel, jumpLabels, hin.functionOf, hlt]

theorem jumpLabels_modifyLabel_ne (hin : Within c func env) (name : String)
    (f : JumpLabel → JumpLabel) {e : ScopeId} (he : e ≠ func) :
    (c.modifyLabel env name f).jumpLabels e = c.jumpLabels e := by
  simp [modifyLabel, jumpLabels, hin.functionOf, he.symm]

theorem GrowStep.keepsJumps (h : GrowStep c c') : KeepsJumps c c' := by
  cases h with
  | label => exact .refl c
  | addType env t => exact keepsJumps_addType c env t
  | insert h =>
    obtain ⟨t, -, -, rfl⟩ := insert_eq_ok h
    exact keepsJumps_setTable c _ _

theorem Grows.keepsJumps (h : Grows c c') : KeepsJumps c c' := by
  induction h with
  | refl => exact .refl c
  | tail _ hstep ih => exact ih.trans hstep.keepsJumps

theorem placeLabel_eq_ok {name : String} {pos : Span} (h : c.placeLabel env name pos = .ok c') :
    c.isPlaced env name = false ∧ c' = c.modifyLabel env name fun l => { l with defined := some pos } := by
  unfold placeLabel at h
  split at h
  · cases h
  · rename_i hplaced
    cases h
    exact ⟨by simpa using hplaced, rfl⟩

end Context

variable {c c' : Context} {env func : ScopeId} {body body' : List Stmt}

theorem FunctionHead.enter_keepsJumps {f : FunctionHead} {scope : ScopeId}
    (h : f.enter env c = .ok scope c') : KeepsJumps c c' := by
  obtain ⟨ty, result, params, -, -, -, hdeclared⟩ := FunctionHead.enter_eq_ok h
  exact (keepsJumps_openFunction c env result).trans hdeclared.grows.keepsJumps

theorem FunctionHead.enter_within {f : FunctionHead} {scope : ScopeId} (h : f.enter env c = .ok scope c') :
    scope = c.scopes.length ∧ Within c' scope scope := by
  obtain ⟨ty, result, params, -, -, rfl, hdeclared⟩ := FunctionHead.enter_eq_ok h
  exact ⟨rfl, (within_openFunction c env result).extends hdeclared.grows.extends⟩

/-- The statements of a function change the labels of no function that is there already but of their own. -/
theorem Stmt.Accepted.jumpLabels_ne (h : Stmt.Accepted env c body c' body') (hin : Within c func env)
    {e : ScopeId} (hlt : e < c.scopes.length) (he : e ≠ func) : c'.jumpLabels e = c.jumpLabels e := by
  induction h generalizing func e with
  | nil => rfl
  | leaf _ hd _ ih =>
    rw [ih (hin.extends hd.extends) (Nat.lt_of_lt_of_le hlt hd.extends.length) he, hd.grows.keepsJumps e]
  | struct hd _ hfields hlayout _ ih =>
    have hext := hd.extends.trans (hfields.extends.trans (extends_layOutFields hlayout))
    rw [ih (hin.extends hext) (Nat.lt_of_lt_of_le hlt hext.length) he]
    obtain ⟨t, -, rfl⟩ := layOutFields_eq_ok hlayout
    rw [keepsJumps_setTable _ _ _ e, hfields.grows.keepsJumps e, hd.grows.keepsJumps e]
  | function hd henter hbody _ ihbody ih =>
    obtain ⟨rfl, hscope⟩ := FunctionHead.enter_within henter
    have hopen := hd.extends.trans (FunctionHead.enter_extends henter)
    have hext := hopen.trans hbody.extends
    -- the body has a new scope for its jumps, and `e` is an old one
    have hne : e < _ := Nat.lt_of_lt_of_le hlt hd.extends.length
    rw [ih (hin.extends hext) (Nat.lt_of_lt_of_le hlt hext.length) he,
      ihbody hscope (Nat.lt_of_lt_of_le hlt hopen.length) (Nat.ne_of_lt hne),
      FunctionHead.enter_keepsJumps henter e, hd.grows.keepsJumps e]
  | @block env c _ _ _ _ _ _ _ hbody _ ihbody ih =>
    have hopen := extends_openBlock c env
    have hext := hopen.trans hbody.extends
    rw [ih (hin.extends hext) (Nat.lt_of_lt_of_le hlt hext.length) he,
      ihbody (within_openBlock hin) (Nat.lt_of_lt_of_le hlt hopen.length) he, keepsJumps_openBlock _ _ e]
  | @goto env c _ name span _ _ _ _ ih =>
    have hext := extends_noteJump c env name span
    rw [ih (hin.extends hext) (Nat.lt_of_lt_of_le hlt hext.length) he]
    exact jumpLabels_modifyLabel_ne hin _ _ he
  | label hplace _ ih =>
    have hext := extends_placeLabel hplace
    rw [ih (hin.extends hext) (Nat.lt_of_lt_of_le hlt hext.length) he]
    obtain ⟨-, rfl⟩ := placeLabel_eq_ok hplace
    exact jumpLabels_modifyLabel_ne hin _ _ he
  | eval _ _ ih => exact ih hin hlt he

/-- What one jump and one label make of the entries of a function, the statements of its body make of them:
blocks are included, and nested functions are not. -/
theorem Stmt.Accepted.follow {P : List (String × Span) → List String → List JumpLabel → Prop}
    (hjump : ∀ {jumps : List (String × Span)} {placed : List String} {ls : List JumpLabel} (name : String)
      (pos : Span), P jumps placed ls → P (jumps ++ [(name, pos)]) placed
        (JumpLabel.update name (fun l => { l with referenced := l.referenced.or (some pos) }) ls))
    (hplace : ∀ {jumps : List (String × Span)} {placed : List String} {ls : List JumpLabel} (name : String)
      (pos : Span), P jumps placed ls → (ls.any fun l => l.name == name && l.defined.isSome) = false →
        P jumps (placed ++ [name]) (JumpLabel.update name (fun l => { l with defined := some pos }) ls))
    (h : Stmt.Accepted env c body c' body') (hin : Within c func env)
    {jumps : List (String × Span)} {placed : List String} (hs : P jumps placed (c.jumpLabels func)) :
    P (jumps ++ Stmt.jumps body') (placed ++ Stmt.labelNames body') (c'.jumpLabels func) := by
  induction h generalizing func jumps placed with
  | nil =>
    simpa using hs
  | leaf _ hd _ ih =>
    rw [← hd.grows.keepsJumps func] at hs
    exact ih (hin.extends hd.extends) hs
  | struct hd _ hfields hlayout _ ih =>
    have hext := hd.extends.trans (hfields.extends.trans (extends_layOutFields hlayout))
    obtain ⟨t, -, rfl⟩ := layOutFields_eq_ok hlayout
    rw [← hd.grows.keepsJumps func, ← hfields.grows.keepsJumps func, ← keepsJumps_setTable _ _ _ func] at hs
    exact ih (hin.extends hext) hs
  | function hd henter hbody _ _ ih =>
    -- an inner function notes its jumps in its own scope
    obtain ⟨rfl, hscope⟩ := FunctionHead.enter_within henter
    have hopen := hd.extends.trans (FunctionHead.enter_extends henter)
    have hlt := Nat.lt_of_le_of_lt hin.le hin.lt_length
    have hne := Nat.ne_of_lt (Nat.lt_of_lt_of_le hlt hd.extends.length)
    rw [← hd.grows.keepsJumps func, ← FunctionHead.enter_keepsJumps henter func,
      ← hbody.jumpLabels_ne hscope (Nat.lt_of_lt_of_le hlt hopen.length) hne] at hs
    exact ih (hin.extends (hopen.trans hbody.extends)) hs
  | @block env c _ _ _ _ _ _ _ hbody _ ihbody ih =>
    rw [← keepsJumps_openBlock c env func] at hs
    have hrest := ih (hin.extends ((extends_openBlock _ _).trans hbody.extends))
      (ihbody (within_openBlock hin) hs)
    rw [Stmt.jumps_block, Stmt.labelNames_block, ← List.append_assoc, ← List.append_assoc]
    exact hrest
  | @goto _ _ _ name span _ _ _ _ ih =>
    have hnoted := hjump name span hs
    rw [← jumpLabels_modifyLabel hin] at hnoted
    have hrest := ih (hin.extends (extends_noteJump _ _ _ _)) hnoted
    rw [List.append_assoc] at hrest
    exact hrest
  | @label _ _ _ _ name span _ _ _ hlabel _ ih =>
    have hext := extends_placeLabel hlabel
    obtain ⟨hnew, rfl⟩ := placeLabel_eq_ok hlabel
    unfold isPlaced at hnew
    rw [hin.functionOf] at hnew
    have hput := hplace name span hs hnew
    rw [← jumpLabels_modifyLabel hin] at hput
    have hrest := ih (hin.extends hext) hput
    rw [List.append_assoc] at hrest
    exact hrest
  | eval _ _ ih => exact ih hin hs

/-- A check changes neither the jumps nor the labels of a body. -/
theorem Stmt.Accepted.jumps_eq (h : Stmt.Accepted env c body c' body') :
    Stmt.jumps body' = Stmt.jumps body ∧ Stmt.labelNames body' = Stmt.labelNames body := by
  induction h with
  | nil => exact ⟨rfl, rfl⟩
  | leaf _ _ _ ih | struct _ _ _ _ _ ih | function _ _ _ _ _ ih | eval _ _ ih => exact ih
  | block _ _ ihbody ih =>
    rw [Stmt.jumps_block, Stmt.jumps_block, Stmt.labelNames_block, Stmt.labelNames_block, ihbody.1, ihbody.2,
      ih.1, ih.2]
    exact ⟨rfl, rfl⟩
  | @goto _ _ _ name span _ _ _ _ ih => exact ⟨congrArg ((name, span) :: ·) ih.1, ih.2⟩
  | @label _ _ _ _ name _ _ _ _ _ _ ih => exact ⟨ih.1, congrArg (name :: ·) ih.2⟩

/-- The check of the declarations around a function leaves its labels alone. -/
theorem Decl.Accepted.jumpLabels_of_lt {ds ds' : List Decl} (h : Decl.Accepted env c ds c' ds') {e : ScopeId}
    (he : e < c.scopes.length) : c'.jumpLabels e = c.jumpLabels e := by
  induction h with
  | nil => rfl
  | leaf _ _ ih => exact ih he
  | struct _ hfields hlayout _ ih =>
    have hext := hfields.extends.trans (extends_layOutFields hlayout)
    rw [ih (Nat.lt_of_lt_of_le he hext.length)]
    obtain ⟨t, -, rfl⟩ := layOutFields_eq_ok hlayout
    rw [keepsJumps_setTable _ _ _ e, hfields.grows.keepsJumps e]
  | function henter hbody _ ih =>
    have hopen := FunctionHead.enter_extends henter
    obtain ⟨rfl, hscope⟩ := FunctionHead.enter_within henter
    rw [ih (Nat.lt_of_lt_of_le he (hopen.trans hbody.extends).length),
      hbody.jumpLabels_ne hscope (Nat.lt_of_lt_of_le he hopen.length) (Nat.ne_of_lt he),
      FunctionHead.enter_keepsJumps henter e]

/-- A checked body leaves the function with its gotos and labels, and no label is placed twice. -/
theorem Stmt.Checked.tracks (h : Stmt.Checked env c body c' body') (hin : Within c func env)
    (hnone : c.jumpLabels func = []) :
    JumpLabel.Tracks (Stmt.gotos body') (Stmt.labelNames body') (c'.jumpLabels func) ∧
      (Stmt.labelNames body').Nodup := by
  have hstart : JumpLabel.Tracks (([] : List (String × Span)).map Prod.fst) [] (c.jumpLabels func) ∧
      ([] : List String).Nodup := ⟨hnone ▸ JumpLabel.tracks_nil, List.nodup_nil⟩
  have hfollow := h.accepted.follow
    (P := fun jumps placed ls => JumpLabel.Tracks (jumps.map Prod.fst) placed ls ∧ placed.Nodup) ?_ ?_ hin hstart
  · rwa [List.nil_append, List.nil_append] at hfollow
  · rintro jumps placed ls name pos ⟨ht, hplaced⟩
    rw [List.map_append]
    exact ⟨ht.jump name pos, hplaced⟩
  · rintro jumps placed ls name pos ⟨ht, hplaced⟩ hnew
    exact ⟨ht.place name pos,
      List.nodup_append_comm.mp (List.nodup_cons.mpr ⟨ht.not_mem_placed hnew, hplaced⟩)⟩

/-- A function is entered in a scope of its own, which knows of no label yet. -/
theorem FunctionHead.enter_inside {f : FunctionHead} {scope : ScopeId} (hc : Rooted c)
    (h : f.enter root c = .ok scope c') :
    scope = c.scopes.length ∧ Inside c' scope scope ∧ c'.jumpLabels scope = [] := by
  have hkeeps := FunctionHead.enter_keepsJumps h scope
  obtain ⟨ty, result, params, -, -, rfl, hdeclared⟩ := FunctionHead.enter_eq_ok h
  refine ⟨rfl, (inside_openFunction hc result).extends hdeclared.grows.extends, ?_⟩
  rw [hkeeps, jumpLabels_of_le (Nat.le_refl _)]

def Decl.JumpsTracked (c : Context) : Decl → Prop
  | .function _ head _ body => ∃ env, head.env = some env ∧ (Stmt.labelNames body).Nodup ∧
      JumpLabel.Tracks (Stmt.gotos body) (Stmt.labelNames body) (c.jumpLabels env)
  | .var _ _ | .array _ _ | .data _ _ | .struct _ _ _ => True

/-- The check leaves the gotos and labels of a body alone. -/
theorem Stmt.Checked.names (h : Stmt.Checked env c body c' body') :
    Stmt.gotos body' = Stmt.gotos body ∧ Stmt.labelNames body' = Stmt.labelNames body := by
  obtain ⟨hjumps, hlabels⟩ := h.accepted.jumps_eq
  exact ⟨congrArg (List.map Prod.fst) hjumps, hlabels⟩

theorem Decl.Checked.jumpsTracked {ds ds' : List Decl} (h : Decl.Checked root c ds c' ds')
    (hc : Rooted c) : ∀ d ∈ ds', d.JumpsTracked c' := by
  induction h with
  | nil => exact fun _ hd => by cases hd
  | var _ ih | array _ ih | data _ ih => exact List.forall_mem_cons.mpr ⟨trivial, ih hc⟩
  | struct _ hfields hlayout _ ih =>
    have hext := hfields.extends.trans (extends_layOutFields hlayout)
    exact List.forall_mem_cons.mpr ⟨trivial, ih (hc.extends hext)⟩
  | @function c c₁ c₂ c' site head params body body' scope ds ds' henter hbody hrest ih =>
    have hext := (FunctionHead.enter_extends henter).trans hbody.extends
    obtain ⟨-, hin, hnone⟩ := FunctionHead.enter_inside hc henter
    obtain ⟨htracks, hnodup⟩ := hbody.tracks hin.within hnone
    have hlt := (hin.extends hbody.extends).lt_length
    refine List.forall_mem_cons.mpr ⟨⟨scope, rfl, hnodup, ?_⟩, ih (hc.extends hext)⟩
    rw [hrest.accepted.jumpLabels_of_lt hlt]
    exact htracks

end UnitCompiler
