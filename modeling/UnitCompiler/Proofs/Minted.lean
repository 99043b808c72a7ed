import UnitCompiler.Proofs.JumpLabels
import UnitCompiler.Proofs.Origins
import UnitCompiler.Proofs.Promises

namespace UnitCompiler

open Context

/-- Different labels whose origins are all in use after a step and none before it. -/
structure Minted (before later : Origin → Prop) (labels : List String) : Prop where
  nodup : labels.Nodup
  origin : ∀ l ∈ labels, ∃ o : Origin, o.text = l ∧ ¬ before o ∧ later o

namespace Minted

variable {p q r : Origin → Prop} {labels labels' : List String}

theorem nil : Minted p q [] :=
  ⟨List.nodup_nil, fun _ h => by cases h⟩

theorem of_origins (os : List Origin) (hnodup : os.Nodup) (hos : ∀ o ∈ os, ¬ p o ∧ q o) :
    Minted p q (os.map Origin.text) := by
  refine ⟨hnodup.map fun _ _ => Origin.text_injective, ?_⟩
  intro l hl
  obtain ⟨o, ho, rfl⟩ := List.mem_map.mp hl
  exact ⟨o, rfl, hos o ho⟩

theorem single {o : Origin} (hp : ¬ p o) (hq : q o) : Minted p q [o.text] :=
  of_origins [o] (List.nodup_singleton o) (List.forall_mem_singleton.mpr ⟨hp, hq⟩)

theorem perm (h : Minted p q labels) (hperm : labels.Perm labels') : Minted p q labels' :=
  ⟨hperm.nodup_iff.mp h.nodup, fun l hl => h.origin l (hperm.symm.subset hl)⟩

/-- What is in use after the first step is not minted again by the second. -/
theorem append (h : Minted p q labels) (h' : Minted q r labels') (hpq : ∀ o, p o → q o)
    (hqr : ∀ o, q o → r o) : Minted p r (labels ++ labels') := by
  constructor
  · rw [List.nodup_append]
    refine ⟨h.nodup, h'.nodup, ?_⟩
    rintro l hl _ hl' rfl
    -- a label of both would come from an origin in use before it is minted
    obtain ⟨o, rfl, -, hq⟩ := h.origin l hl
    obtain ⟨o', htext, hnq, -⟩ := h'.origin _ hl'
    rw [Origin.text_injective htext] at hnq
    exact hnq hq
  · intro l hl
    obtain hl | hl := List.mem_append.mp hl
    · obtain ⟨o, ho, hp, hq⟩ := h.origin l hl
      exact ⟨o, ho, hp, hqr o hq⟩
    · obtain ⟨o, ho, hq, hr⟩ := h'.origin l hl
      exact ⟨o, ho, fun hp => hq (hpq o hp), hr⟩

theorem mono {p' q' : Origin → Prop} (h : Minted p q labels) (hp : ∀ o, p' o → p o)
    (hq : ∀ o, q o → q' o) : Minted p' q' labels := by
  refine ⟨h.nodup, fun l hl => ?_⟩
  obtain ⟨o, ho, hnp, hqo⟩ := h.origin l hl
  exact ⟨o, ho, fun hp' => hnp (hp o hp'), hq o hqo⟩

end Minted

def Origin.Taken (c : Context) : Origin → Prop
  | .struct name | .global name | .function name => (c.scope root).decls.contains name = true
  | .generated n | .jump n _ | .exit n => n ≤ c.labels

variable {c c' final : Context} {env : ScopeId} {target : Target}

theorem Context.Extends.taken (h : Extends c c') (o : Origin) (ho : o.Taken c) : o.Taken c' := by
  have hname : ∀ name, (c.scope root).decls.contains name = true →
      (c'.scope root).decls.contains name = true := by
    intro name hc
    cases hs : c.scopes[root]? with
    | none =>
      unfold scope at hc
      rw [hs] at hc
      cases hc
    | some s =>
      obtain ⟨s', hs', hss'⟩ := h.scopes hs
      rw [scope_eq hs] at hc
      rw [scope_eq hs']
      unfold Table.contains at hc ⊢
      rw [List.any_eq_true] at hc ⊢
      obtain ⟨r, hr, hrname⟩ := hc
      exact ⟨r, hss'.decls.subset hr, hrname⟩
  cases o with
  | struct name => exact hname name ho
  | global name => exact hname name ho
  | function name => exact hname name ho
  | generated n => exact Nat.le_trans ho h.labels
  | jump n name => exact Nat.le_trans ho h.labels
  | exit n => exact Nat.le_trans ho h.labels

/-- A declaration of the unit takes its name. -/
theorem Context.taken_insert {r : Record} {what : String} {i : Nat} (hc : Rooted c)
    (h : c.insert (.scope root) r what = .ok (i, c')) {o : Origin}
    (ho : o ∈ [Origin.struct r.name, .global r.name, .function r.name]) :
    ¬ o.Taken c ∧ o.Taken c' := by
  obtain ⟨s, hs, -⟩ := hc
  obtain ⟨s', hs', hget⟩ := get?_insert hs h
  obtain ⟨t, ht, hnew, -⟩ := insert_eq_ok h
  obtain rfl : (c.scope root).decls = t := Option.some.inj ht
  have hold : ¬ (c.scope root).decls.contains r.name = true := by rw [hnew]; exact Bool.false_ne_true
  have hin : (c'.scope root).decls.contains r.name = true := by
    obtain ⟨hmem, -⟩ := Table.mem_of_get? hget
    rw [scope_eq hs']
    unfold Table.contains
    rw [List.any_eq_true]
    exact ⟨r, hmem, beq_self_eq_true _⟩
  simp only [List.mem_cons, List.not_mem_nil, or_false] at ho
  obtain rfl | rfl | rfl := ho
  · exact ⟨hold, hin⟩
  · exact ⟨hold, hin⟩
  · exact ⟨hold, hin⟩

theorem Context.minted_freshLabel (c : Context) :
    Minted (Origin.Taken c) (Origin.Taken c.freshLabel.2) [c.freshLabel.1] :=
  Minted.single (o := .generated (c.labels + 1)) (Nat.not_succ_le_self _) (Nat.le_refl _)

/-- The number of a function's scope makes the labels in it new, and their names tell them apart. -/
theorem Context.minted_jumps {names : List String} (hnodup : names.Nodup)
    (hnumber : c.labels + 1 ≤ c'.labels) :
    Minted (Origin.Taken c) (Origin.Taken c')
      ((names.map (Origin.jump (c.labels + 1)) ++ [Origin.exit (c.labels + 1)]).map Origin.text) := by
  apply Minted.of_origins
  · rw [List.nodup_append]
    refine ⟨hnodup.map fun _ _ h => (Origin.jump.inj h).2, List.nodup_singleton _, ?_⟩
    rintro o ho _ ho' rfl
    obtain ⟨name, -, rfl⟩ := List.mem_map.mp ho
    cases List.mem_singleton.mp ho'
  · intro o ho
    obtain ho | ho := List.mem_append.mp ho
    · obtain ⟨name, -, rfl⟩ := List.mem_map.mp ho
      exact ⟨Nat.not_succ_le_self _, hnumber⟩
    · rw [List.mem_singleton.mp ho]
      exact ⟨Nat.not_succ_le_self _, hnumber⟩

/-- A variable has a label only if the unit declares it. -/
theorem Context.minted_globalLabel {r : Record} {what : String} {i : Nat} (hc : Rooted c)
    (htakes : target.Takes env r.kind) (h : c.insert target r what = .ok (i, c')) :
    Minted (Origin.Taken c) (Origin.Taken c') (r.kind.globalLabel r.name) := by
  unfold Kind.globalLabel
  split
  · rename_i hglobal
    have hinner : ∀ k ∈ [Kind.localVar, Kind.union .localVar .const, .field, .param],
        k.has .global = false := by decide
    cases target with
    | scope e =>
      obtain ⟨rfl, ⟨rfl, -⟩ | ⟨-, hkind⟩⟩ := htakes
      · obtain ⟨hnew, hin⟩ := taken_insert hc h (o := .global r.name) (by simp)
        exact Minted.single hnew hin
      · rw [hinner r.kind (List.mem_append_left [Kind.field, .param] hkind)] at hglobal
        cases hglobal
    | fields ty =>
      rw [show r.kind = .field from htakes, hinner _ (by decide)] at hglobal
      cases hglobal
    | params ty =>
      rw [show r.kind = .param from htakes, hinner _ (by decide)] at hglobal
      cases hglobal
  · exact Minted.nil

theorem Variable.register_minted (hc : Rooted c) {v v' : Variable} (hnew : v.registration = none)
    (htakes : target.Takes env v.kind) (h : v.register env target c = .ok v' c') :
    Minted (Origin.Taken c) (Origin.Taken c') (v'.kind.globalLabel v'.ident) := by
  obtain ⟨declared, c₁, r, kept, i, -, hrec, hins, rfl⟩ := Variable.register_eq_ok hnew h
  have hr : r.kind = v.kind ∧ r.name = v.ident := by
    cases hrec with
    | plain | computed | defaulted | constant => exact ⟨rfl, rfl⟩
  have hminted := minted_globalLabel (hc.extends hrec.grows.extends) (hr.1 ▸ htakes) hins
  rw [hr.1, hr.2] at hminted
  exact hminted.mono hrec.grows.extends.taken fun _ h => h

theorem ArrayDecl.register_minted (hc : Rooted c) {v v' : ArrayDecl}
    (htakes : target.Takes env v.kind) (h : v.register env target c = .ok v' c')
    (hfinal : Extends c' final) :
    Minted (Origin.Taken c) (Origin.Taken c')
      ((v'.typeLabel final).toList ++ v'.kind.globalLabel v'.ident) := by
  obtain ⟨element, sizes, i, -, -, hins, rfl⟩ := ArrayDecl.register_eq_ok h
  have hadd := extends_addType c.freshLabel.2 env (.array c.freshLabel.1 element sizes)
  have hget : (c.freshLabel.2.addType env (.array c.freshLabel.1 element sizes)).2.types.get?
      c.types.size = some (.array c.freshLabel.1 element sizes) :=
    get?_addType_self c.freshLabel.2 env _
  obtain ⟨_, hget', rfl⟩ := ((extends_insert hins).trans hfinal).types hget
  have hlabel : ArrayDecl.typeLabel final { v with ty := some c.types.size } =
      some c.freshLabel.1 := by
    simp [ArrayDecl.typeLabel, hget', Ty.arrayLabel?]
  rw [hlabel]
  have hfresh := extends_freshLabel c
  have hglobal := minted_globalLabel (hc.extends (hfresh.trans hadd)) htakes hins
  exact (minted_freshLabel c).append (hglobal.mono hadd.taken fun _ h => h) hfresh.taken
    (hadd.trans (extends_insert hins)).taken

/-- The labels that registration gives to declarations are new and all different. -/
theorem Decl.Entered.minted {ds ds' : List Decl} (h : Decl.Entered env target c ds c' ds')
    (hc : Rooted c) (hfits : ∀ d ∈ ds, d.Fits env target) (hfinal : Extends c' final) :
    Minted (Origin.Taken c) (Origin.Taken c') (ds'.flatMap (headLabels final)) := by
  induction h with
  | nil => exact Minted.nil
  | var h hrest ih =>
    obtain ⟨⟨hnew, htakes⟩, hfits⟩ := List.forall_mem_cons.mp hfits
    have hext := (Variable.register_grows h).extends
    exact (Variable.register_minted hc hnew htakes h).append (ih (hc.extends hext) hfits hfinal)
      hext.taken hrest.extends.taken
  | array h hrest ih =>
    obtain ⟨htakes, hfits⟩ := List.forall_mem_cons.mp hfits
    have hext := (ArrayDecl.register_grows h).extends
    exact (ArrayDecl.register_minted hc htakes h (hrest.extends.trans hfinal)).append
      (ih (hc.extends hext) hfits hfinal) hext.taken hrest.extends.taken
  | @data target c c₁ c' site d d' ds ds' h hrest ih =>
    obtain ⟨-, hfits⟩ := List.forall_mem_cons.mp hfits
    obtain ⟨text, rfl, rfl⟩ | ⟨lit, -, -, rfl, rfl⟩ := DataItem.register_eq_ok h
    · have hext := extends_freshLabel c
      exact (minted_freshLabel c).append (ih (hc.extends hext) hfits hfinal) hext.taken
        hrest.extends.taken
    · exact ih hc hfits hfinal
  | @struct target c c₁ c' site head head' fields ds ds' h hrest ih =>
    obtain ⟨⟨rfl, rfl⟩, hfits⟩ := List.forall_mem_cons.mp hfits
    obtain ⟨i, hins, rfl⟩ := StructHead.register_eq_ok h
    have hadd := extends_addType c root (.struct head.ident .empty)
    have hext := hadd.trans (extends_insert hins)
    obtain ⟨hnew, hin⟩ := taken_insert (hc.extends hadd) hins (o := .struct head.ident) (by simp)
    exact (Minted.single (fun ho => hnew (hadd.taken _ ho)) hin).append
      (ih (hc.extends hext) hfits hfinal) hext.taken hrest.extends.taken
  | @function target c c₁ c₂ c' site head params params' body ds ds' result i hresult hparams hins
      hrest _ ih =>
    obtain ⟨⟨rfl, rfl, -⟩, hfits⟩ := List.forall_mem_cons.mp hfits
    -- the parameters have no labels, and they are declared in the type and not in the unit
    have hadd := (extends_addType c root (.function result .empty)).trans hparams.extends
    have hext := hadd.trans (extends_insert hins)
    obtain ⟨hnew, hin⟩ := taken_insert (hc.extends hadd) hins (o := .function head.ident) (by simp)
    exact (Minted.single (fun ho => hnew (hadd.taken _ ho)) hin).append
      (ih (hc.extends hext) hfits hfinal) hext.taken hrest.extends.taken

/-- The labels of a body are those of its label statements, and new ones for its declarations. -/
theorem Stmt.Checked.minted {func : ScopeId} {body body' : List Stmt}
    (h : Stmt.Checked env c body c' body') (hc : Rooted c) (hin : Inside c func env)
    (hfinal : Extends c' final) :
    ∃ declared, Minted (Origin.Taken c) (Origin.Taken c') declared ∧
      ((Stmt.atomsOfAll body').flatMap (Stmt.labels final)).Perm
        ((Stmt.labelNames body).map (Symbol.inFunction (final.scope func).symbol) ++ declared) := by
  induction h with
  | nil => exact ⟨[], Minted.nil, List.Perm.refl _⟩
  | @declare env c c₁ c' d d' rest rest' hlocal hd hrest ih =>
    obtain ⟨declared, hminted, hperm⟩ := ih (hc.extends hd.extends) (hin.extends hd.extends) hfinal
    have hhead := hd.minted hc (List.forall_mem_singleton.mpr (Decl.fits_of_isLocal hin.ne_root hlocal))
      (hrest.extends.trans hfinal)
    rw [List.flatMap_singleton] at hhead
    -- the labels of the declaration were issued before those of the rest
    refine ⟨d'.headLabels final ++ declared,
      hhead.append hminted hd.extends.taken hrest.extends.taken, ?_⟩
    exact (hperm.append_left _).trans (List.perm_append_comm_assoc _ _ _)
  | @block env c c₁ c' block block' span rest rest' hbody hrest ihbody ih =>
    have hopen := extends_openBlock c env
    obtain ⟨inner, hinner, hpinner⟩ := ihbody (hc.extends hopen) (inside_openBlock hin)
      (hrest.extends.trans hfinal)
    have hext := hopen.trans hbody.extends
    obtain ⟨outer, houter, hpouter⟩ := ih (hc.extends hext) (hin.extends hext) hfinal
    refine ⟨inner ++ outer, (hinner.mono hopen.taken fun _ h => h).append houter hext.taken
      hrest.extends.taken, ?_⟩
    rw [Stmt.labelNames_block, List.map_append, Stmt.atomsOfAll, Stmt.atoms, List.flatMap_append]
    refine (hpinner.append hpouter).trans ?_
    rw [List.append_assoc, List.append_assoc]
    exact (List.perm_append_comm_assoc _ _ _).append_left _
  | @goto env c c' name span old rest rest' hrest ih =>
    have hext := extends_noteJump c env name span
    obtain ⟨declared, hminted, hperm⟩ := ih (hc.extends hext) (hin.extends hext) hfinal
    exact ⟨declared, hminted.mono hext.taken fun _ h => h, hperm⟩
  | @label env c c₁ c' name span old rest rest' hplace hrest ih =>
    have hext := extends_placeLabel hplace
    obtain ⟨declared, hminted, hperm⟩ := ih (hc.extends hext) (hin.extends hext) hfinal
    refine ⟨declared, hminted.mono hext.taken fun _ h => h, ?_⟩
    -- a label is named after its function, whichever block it stands in
    have hsymbol : Stmt.labels final (.label name span (some env)) =
        [Symbol.inFunction (final.scope func).symbol name] := by
      rw [Stmt.labels, Option.toList_some, List.map_singleton, jumpSymbol,
        functionOf_eq (hin.extends (hext.trans (hrest.extends.trans hfinal)))]
    rw [Stmt.atomsOfAll, Stmt.atoms, List.singleton_append, List.flatMap_cons, hsymbol]
    exact hperm.cons _
  | eval _ _ ih => exact ih hc hin hfinal

theorem FunctionHead.enter_symbol {f : FunctionHead} {scope : ScopeId}
    (h : f.enter root c = .ok scope c') (hfinal : Extends c' final) :
    (final.scope scope).symbol = Symbol.generated (c.labels + 1) ∧ c.labels + 1 ≤ c'.labels := by
  obtain ⟨ty, result, params, -, -, rfl, hdeclared⟩ := FunctionHead.enter_eq_ok h
  refine ⟨?_, hdeclared.grows.extends.labels⟩
  have hs : (c.openFunction root result).2.scopes[c.scopes.length]? = some
      { kind := .function, parent := some root, symbol := c.freshLabel.1, result := some result } :=
    List.getElem?_concat_length ..
  obtain ⟨s', hs', hss'⟩ := (hdeclared.grows.extends.trans hfinal).scopes hs
  rw [scope_eq hs', hss'.symbol]
  rfl

/-- The labels that the check adds are new and all different. -/
theorem Decl.Checked.minted {ds ds' : List Decl} (h : Decl.Checked root c ds c' ds') (hc : Rooted c)
    (hparts : ∀ d ∈ ds, d.PartsWellFormed) (hfinal : Extends c' final) :
    Minted (Origin.Taken c) (Origin.Taken c') (ds'.flatMap (innerLabels final)) := by
  induction h with
  | nil => exact Minted.nil
  | var _ ih | array _ ih | data _ ih => exact ih hc (List.forall_mem_cons.mp hparts).2 hfinal
  | @struct c c₁ c₂ c' site head fields fields' ty ds ds' hty hfields hlayout hrest ih =>
    obtain ⟨hisField, hparts⟩ := List.forall_mem_cons.mp hparts
    have hlay := extends_layOutFields hlayout
    have hext := hfields.extends.trans hlay
    have hfits : ∀ d ∈ DeclList.inOrder fields, d.Fits root (.fields ty) :=
      DeclList.forall_mem_inOrder.mpr fun d hd => Decl.fits_of_isField (hisField d hd) ty
    have hinner := hfields.minted hc hfits (hlay.trans (hrest.extends.trans hfinal))
    have hperm := (DeclList.inOrder_perm fields').flatMap_right (headLabels final)
    exact ((hinner.perm hperm).mono (fun _ h => h) hlay.taken).append
      (ih (hc.extends hext) hparts hfinal) hext.taken hrest.extends.taken
  | @function c c₁ c₂ c' site head params body body' scope ds ds' henter hbody hrest ih =>
    obtain ⟨-, hparts⟩ := List.forall_mem_cons.mp hparts
    have hext₁ := FunctionHead.enter_extends henter
    have hext := hext₁.trans hbody.extends
    refine Minted.append ?_ (ih (hc.extends hext) hparts hfinal) hext.taken hrest.extends.taken
    obtain ⟨-, hin, hnone⟩ := FunctionHead.enter_inside hc henter
    have hfinal₂ := hrest.extends.trans hfinal
    obtain ⟨hsymbol, hnumber⟩ := FunctionHead.enter_symbol henter (hbody.extends.trans hfinal₂)
    obtain ⟨declared, hdeclared, hperm⟩ := hbody.minted (hc.extends hext₁) hin hfinal₂
    have hnodup := (hbody.tracks hin.within hnone).2
    rw [hbody.names.2] at hnodup
    -- the scope's label comes before the labels of the declarations in the body
    have hjumps := minted_jumps hnodup hnumber
    refine (hjumps.append hdeclared hext₁.taken hbody.extends.taken).perm ?_
    have hexit : final.exitSymbol scope = Symbol.exit (Symbol.generated (c.labels + 1)) := by
      rw [exitSymbol, functionOf_eq (hin.extends (hbody.extends.trans hfinal₂)), hsymbol]
    rw [hsymbol] at hperm
    rw [innerLabels, Option.toList_some, List.map_singleton, hexit, List.map_append, List.map_map,
      List.append_assoc]
    refine List.Perm.trans ?_ (hperm.symm.append_right _)
    rw [List.append_assoc]
    exact List.perm_append_comm.append_left _

end UnitCompiler
