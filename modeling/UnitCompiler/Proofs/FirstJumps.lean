import UnitCompiler.Proofs.JumpLabels

namespace UnitCompiler

open Context

namespace JumpLabel

/-- Besides what is jumped to and what is placed, the entries know where each label is jumped to first. -/
structure Sourced (jumps : List (String × Span)) (placed : List String) (ls : List JumpLabel) : Prop
    extends Tracks (jumps.map Prod.fst) placed ls where
  referenced : ∀ l ∈ ls, l.referenced = jumps.lookup l.name

variable {jumps : List (String × Span)} {placed : List String} {ls : List JumpLabel}

theorem sourced_nil : Sourced [] [] [] :=
  ⟨tracks_nil, fun _ hl => absurd hl List.not_mem_nil⟩

theorem Sourced.lookup_of_absent (h : Sourced jumps placed ls) {name : String}
    (hname : name ∉ ls.map JumpLabel.name) : jumps.lookup name = none := by
  rw [h.names, not_or] at hname
  apply List.lookup_eq_none_iff.mpr
  intro p hp
  have hne : p.1 ≠ name := fun heq => hname.1 (heq ▸ List.mem_map_of_mem hp)
  simpa using hne.symm

theorem Sourced.jump (h : Sourced jumps placed ls) (name : String) (pos : Span) :
    Sourced (jumps ++ [(name, pos)]) placed
      (update name (fun l => { l with referenced := l.referenced.or (some pos) }) ls) := by
  refine ⟨?_, fun l hl => ?_⟩
  · rw [List.map_append]
    exact h.toTracks.jump name pos
  · rw [List.lookup_append]
    obtain ⟨hmem, hne⟩ | ⟨l₀, rfl, hname, hmem | ⟨rfl, hnew⟩⟩ := mem_update h.nodup hl
    · have hother : (l.name == name) = false := beq_eq_false_iff_ne.mpr hne
      simp [h.referenced l hmem, List.lookup_cons, hother]
    · simp [h.referenced l₀ hmem, hname]
    · simp [h.lookup_of_absent hnew]

theorem Sourced.place (h : Sourced jumps placed ls) (name : String) (pos : Span) :
    Sourced jumps (placed ++ [name]) (update name (fun l => { l with defined := some pos }) ls) := by
  refine ⟨h.toTracks.place name pos, fun l hl => ?_⟩
  obtain ⟨hmem, -⟩ | ⟨l₀, rfl, -, hmem | ⟨rfl, hnew⟩⟩ := mem_update h.nodup hl
  · exact h.referenced l hmem
  · exact h.referenced l₀ hmem
  · exact (h.lookup_of_absent hnew).symm

/-- A label that is not placed is there because of a jump, and the first one is on record. -/
theorem Sourced.exists_jump (h : Sourced jumps placed ls) {l : JumpLabel} (hl : l ∈ ls)
    (hdefined : l.defined = none) : ∃ pos, l.referenced = some pos ∧ jumps.lookup l.name = some pos := by
  have hplaced : l.name ∉ placed := by
    intro hmem
    simpa [hdefined] using (h.defined l hl).mpr hmem
  obtain ⟨p, hp, hname⟩ :=
    List.mem_map.mp (((h.names l.name).mp (List.mem_map_of_mem hl)).resolve_right hplaced)
  cases hlookup : jumps.lookup l.name with
  | none =>
    have hne := List.lookup_eq_none_iff.mp hlookup p hp
    simp [hname] at hne
  | some pos => exact ⟨pos, (h.referenced l hl).trans hlookup, rfl⟩

end JumpLabel

open JumpLabel

mutual

def Decl.opened : Decl → List (ScopeId × List Stmt)
  | .function _ head _ body => (head.env.toList.map fun env => (env, body)) ++ Stmt.openedAll body
  | .var _ _ | .data _ _ | .array _ _ | .struct _ _ _ => []

def Stmt.opened : Stmt → List (ScopeId × List Stmt)
  | .declare d => Decl.opened d
  | .block body _ => Stmt.openedAll body
  | .goto _ _ _ | .label _ _ _ | .eval _ _ => []

def Stmt.openedAll : List Stmt → List (ScopeId × List Stmt)
  | [] => []
  | stmt :: rest => Stmt.opened stmt ++ Stmt.openedAll rest

end

theorem Decl.opened_of_isLeaf {d : Decl} (h : d.isLeaf = true) : d.opened = [] := by
  cases d with
  | var | data | array => rw [Decl.opened]
  | struct | function => cases h

variable {env func : ScopeId} {c c₁ c' : Context} {body body' : List Stmt}

theorem Context.Within.ne_of_le (hin : Within c func env) {e : ScopeId} (he : c.scopes.length ≤ e) :
    e ≠ func := by
  have hle := hin.le
  have hlt := hin.lt_length
  simp only [ScopeId] at *
  omega

theorem Stmt.Accepted.sourced (h : Stmt.Accepted env c body c' body') (hin : Within c func env)
    {jumps : List (String × Span)} {placed : List String}
    (hs : Sourced jumps placed (c.jumpLabels func)) :
    Sourced (jumps ++ Stmt.jumps body') (placed ++ Stmt.labelNames body') (c'.jumpLabels func) :=
  h.follow (fun name pos hs => hs.jump name pos) (fun name pos hs _ => hs.place name pos) hin hs

/-- Of the scopes from `lo` on, those of the listed functions know the jumps of their bodies and no other
one knows of a label. -/
structure Context.Sources (c : Context) (lo : Nat) (opened : List (ScopeId × List Stmt)) : Prop where
  bounds : ∀ {e : ScopeId} {body : List Stmt}, (e, body) ∈ opened → lo ≤ e ∧ e < c.scopes.length
  sourced : ∀ {e : ScopeId} {body : List Stmt}, (e, body) ∈ opened →
    Sourced (Stmt.jumps body) (Stmt.labelNames body) (c.jumpLabels e)
  known : ∀ {e : ScopeId}, lo ≤ e → c.jumpLabels e ≠ [] → ∃ body, (e, body) ∈ opened

namespace Context

variable {lo : Nat} {opened later : List (ScopeId × List Stmt)}

@[simp] theorem jumpLabels_initial (e : ScopeId) : Context.initial.jumpLabels e = [] := by
  cases e with
  | zero => rfl
  | succ e => exact jumpLabels_of_le (Nat.le_add_left _ _)

theorem sources_nil (h : ∀ e, lo ≤ e → c.jumpLabels e = []) : Sources c lo [] :=
  ⟨fun hmem => absurd hmem List.not_mem_nil, fun hmem => absurd hmem List.not_mem_nil,
    fun hle hne => absurd (h _ hle) hne⟩

theorem KeepsJumps.sources (h : KeepsJumps c c₁) : Sources c₁ c.scopes.length [] :=
  sources_nil fun e he => (h e).trans (jumpLabels_of_le he)

theorem Sources.append (h : Sources c₁ lo opened) (h' : Sources c' c₁.scopes.length later)
    (hlo : lo ≤ c₁.scopes.length) (hle : c₁.scopes.length ≤ c'.scopes.length)
    (hkept : ∀ e, lo ≤ e → e < c₁.scopes.length → c'.jumpLabels e = c₁.jumpLabels e) :
    Sources c' lo (opened ++ later) := by
  refine ⟨fun {e body} hmem => ?_, fun {e body} hmem => ?_, fun {e} he hne => ?_⟩
  · obtain hmem | hmem := List.mem_append.mp hmem
    · have hb := h.bounds hmem
      exact ⟨hb.1, Nat.lt_of_lt_of_le hb.2 hle⟩
    · have hb := h'.bounds hmem
      exact ⟨Nat.le_trans hlo hb.1, hb.2⟩
  · obtain hmem | hmem := List.mem_append.mp hmem
    · have hb := h.bounds hmem
      rw [hkept e hb.1 hb.2]
      exact h.sourced hmem
    · exact h'.sourced hmem
  · by_cases hlt : e < c₁.scopes.length
    · rw [hkept e he hlt] at hne
      obtain ⟨body, hmem⟩ := h.known he hne
      exact ⟨body, List.mem_append_left _ hmem⟩
    · obtain ⟨body, hmem⟩ := h'.known (Nat.le_of_not_lt hlt) hne
      exact ⟨body, List.mem_append_right _ hmem⟩

end Context

/-- Statements that come after a change which opened the listed functions. -/
theorem Stmt.Accepted.sources_after {opened : List (ScopeId × List Stmt)}
    (hrest : Stmt.Accepted env c₁ body c' body') (hin : Within c func env) (hext : Extends c c₁)
    (h : Sources c₁ c.scopes.length opened)
    (ih : Sources c' c₁.scopes.length (Stmt.openedAll body')) :
    Sources c' c.scopes.length (opened ++ Stmt.openedAll body') := by
  refine h.append ih hext.length hrest.extends.length fun e he hlt => ?_
  -- the function is older than what was opened since
  exact hrest.jumpLabels_ne (hin.extends hext) hlt (hin.ne_of_le he)

/-- A function that is entered and checked, with the functions in its body. -/
theorem Stmt.Accepted.sources_function {scope : ScopeId} {f : FunctionHead}
    (henter : f.enter env c = .ok scope c₁) (hbody : Stmt.Accepted scope c₁ body c' body')
    (ih : ∀ {func}, Within c₁ func scope → Sources c' c₁.scopes.length (Stmt.openedAll body')) :
    Sources c' c.scopes.length ((scope, body') :: Stmt.openedAll body') := by
  have hkeeps := FunctionHead.enter_keepsJumps henter
  obtain ⟨rfl, hscope⟩ := FunctionHead.enter_within henter
  have hinner := ih hscope
  have hlt := hscope.lt_length
  have hle := hbody.extends.length
  -- the scope of the function is new, so nothing has been noted there
  have hstart : Sourced [] [] (c₁.jumpLabels c.scopes.length) := by
    rw [hkeeps, jumpLabels_of_le (Nat.le_refl _)]
    exact sourced_nil
  refine ⟨fun {e b} hmem => ?_, fun {e b} hmem => ?_, fun {e} he hne => ?_⟩
  · obtain heq | hmem := List.mem_cons.mp hmem
    · cases heq
      exact ⟨Nat.le_refl _, Nat.lt_of_lt_of_le hlt hle⟩
    · have hb := hinner.bounds hmem
      exact ⟨Nat.le_trans (Nat.le_of_lt hlt) hb.1, hb.2⟩
  · obtain heq | hmem := List.mem_cons.mp hmem
    · cases heq
      exact hbody.sourced hscope hstart
    · exact hinner.sourced hmem
  -- the scopes with labels are the function itself and those that its body opens
  · by_cases heq : e = c.scopes.length
    · exact ⟨body', List.mem_cons.mpr (Or.inl (Prod.ext heq rfl))⟩
    · by_cases hold : e < c₁.scopes.length
      · rw [hbody.jumpLabels_ne hscope hold heq, hkeeps, jumpLabels_of_le he] at hne
        exact absurd rfl hne
      · obtain ⟨b, hmem⟩ := hinner.known (Nat.le_of_not_lt hold) hne
        exact ⟨b, List.mem_cons_of_mem _ hmem⟩

/-- The scopes that a check opens know the jumps of the functions they were opened for. -/
theorem Stmt.Accepted.sources (h : Stmt.Accepted env c body c' body') (hin : Within c func env) :
    Sources c' c.scopes.length (Stmt.openedAll body') := by
  induction h generalizing func with
  | nil =>
    rw [Stmt.openedAll]
    exact (KeepsJumps.refl _).sources
  | @leaf _ _ _ _ d d' _ _ hleaf hd hrest ih =>
    have hleaf' : d'.isLeaf = true := by
      cases hd with
      | var | array | data => rfl
      | struct | function => cases hleaf
    rw [Stmt.openedAll, Stmt.opened, Decl.opened_of_isLeaf hleaf']
    exact hrest.sources_after hin hd.extends hd.grows.keepsJumps.sources (ih (hin.extends hd.extends))
  | struct hd _ hfields hlayout hrest ih =>
    have hext := hd.extends.trans (hfields.extends.trans (extends_layOutFields hlayout))
    have hkeeps := hd.grows.keepsJumps.trans hfields.grows.keepsJumps
    rw [Stmt.openedAll, Stmt.opened, Decl.opened]
    refine hrest.sources_after hin hext ?_ (ih (hin.extends hext))
    obtain ⟨t, -, rfl⟩ := layOutFields_eq_ok hlayout
    exact (hkeeps.trans (keepsJumps_setTable _ _ _)).sources
  | @function _ _ c c₁ _ _ _ _ _ _ _ _ _ _ _ _ hd henter hbody hrest ihbody ih =>
    have hopen := hd.extends.trans (FunctionHead.enter_extends henter)
    have hext := hopen.trans hbody.extends
    rw [Stmt.openedAll, Stmt.opened, Decl.opened]
    refine hrest.sources_after hin hext ?_ (ih (hin.extends hext))
    have hfunction := Stmt.Accepted.sources_function henter hbody ihbody
    have hbefore := hd.grows.keepsJumps.sources
    -- the jumps of the function stand in its own scopes, so those before it keep theirs
    refine hbefore.append hfunction hd.extends.length
      ((FunctionHead.enter_extends henter).trans hbody.extends).length fun e _ hlt => ?_
    have hkeeps := FunctionHead.enter_keepsJumps henter e
    obtain ⟨rfl, hscope⟩ := FunctionHead.enter_within henter
    rw [← hkeeps]
    exact hbody.jumpLabels_ne hscope (Nat.lt_of_lt_of_le hlt (FunctionHead.enter_extends henter).length)
      (Nat.ne_of_lt hlt)
  | @block env c _ _ _ _ _ _ _ hbody hrest ihbody ih =>
    have hopen := extends_openBlock c env
    have hext := hopen.trans hbody.extends
    rw [Stmt.openedAll, Stmt.opened]
    refine hrest.sources_after hin hext ?_ (ih (hin.extends hext))
    have hblock := (keepsJumps_openBlock c env).sources
    refine hblock.append (ihbody (within_openBlock hin)) hopen.length hbody.extends.length fun e he hlt => ?_
    exact hbody.jumpLabels_ne (within_openBlock hin) hlt (hin.ne_of_le he)
  | @goto env c _ name span _ _ _ hrest ih =>
    have hext := extends_noteJump c env name span
    rw [Stmt.openedAll, Stmt.opened]
    refine hrest.sources_after hin hext ?_ (ih (hin.extends hext))
    -- the jump is noted in the function around it, which is older than any scope asked for
    refine sources_nil fun e he => ?_
    exact (jumpLabels_modifyLabel_ne hin _ _ (hin.ne_of_le he)).trans (jumpLabels_of_le he)
  | label hplace hrest ih =>
    have hext := extends_placeLabel hplace
    rw [Stmt.openedAll, Stmt.opened]
    refine hrest.sources_after hin hext ?_ (ih (hin.extends hext))
    refine sources_nil fun e he => ?_
    obtain ⟨-, rfl⟩ := placeLabel_eq_ok hplace
    exact (jumpLabels_modifyLabel_ne hin _ _ (hin.ne_of_le he)).trans (jumpLabels_of_le he)
  | eval _ _ ih =>
    rw [Stmt.openedAll, Stmt.opened]
    exact ih hin

theorem Decl.Accepted.sources {ds ds' : List Decl} (h : Decl.Accepted env c ds c' ds') :
    Sources c' c.scopes.length (ds'.flatMap Decl.opened) := by
  induction h with
  | nil => exact (KeepsJumps.refl _).sources
  | leaf hleaf _ ih =>
    rw [List.flatMap_cons, Decl.opened_of_isLeaf hleaf]
    exact ih
  | struct _ hfields hlayout rest ih =>
    have hext := hfields.extends.trans (extends_layOutFields hlayout)
    have hkeeps := hfields.grows.keepsJumps
    rw [List.flatMap_cons, Decl.opened]
    refine Sources.append ?_ ih hext.length rest.extends.length fun e _ he => rest.jumpLabels_of_lt he
    obtain ⟨t, -, rfl⟩ := layOutFields_eq_ok hlayout
    exact (hkeeps.trans (keepsJumps_setTable _ _ _)).sources
  | function henter hbody rest ih =>
    have hext := (FunctionHead.enter_extends henter).trans hbody.extends
    rw [List.flatMap_cons, Decl.opened]
    refine Sources.append ?_ ih hext.length rest.extends.length fun e _ he => rest.jumpLabels_of_lt he
    exact Stmt.Accepted.sources_function henter hbody hbody.sources

/-- A label that a scope misses was first jumped to where its function says. -/
theorem Decl.Accepted.exists_jump {ds ds' : List Decl} (h : Decl.Accepted env c ds c' ds')
    (hnew : ∀ e, c.jumpLabels e = []) {e : ScopeId} {l : JumpLabel} (hl : l ∈ c'.jumpLabels e)
    (hdefined : l.defined = none) :
    ∃ pos, l.referenced = some pos ∧ (∃ body, (e, body) ∈ ds'.flatMap Decl.opened) ∧
      ∀ body, (e, body) ∈ ds'.flatMap Decl.opened → (Stmt.jumps body).lookup l.name = some pos := by
  have hle : c.scopes.length ≤ e := by
    by_contra hlt
    rw [h.jumpLabels_of_lt (Nat.lt_of_not_le hlt), hnew] at hl
    exact absurd hl List.not_mem_nil
  obtain ⟨body, hmem⟩ := h.sources.known hle (List.ne_nil_of_mem hl)
  obtain ⟨pos, href, -⟩ := (h.sources.sourced hmem).exists_jump hl hdefined
  refine ⟨pos, href, ⟨body, hmem⟩, fun body' hmem' => ?_⟩
  exact ((h.sources.sourced hmem').referenced l hl).symm.trans href

end UnitCompiler
