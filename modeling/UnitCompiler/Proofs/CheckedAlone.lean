import UnitCompiler.Proofs.CheckOrder
import UnitCompiler.Proofs.FlatContext
import UnitCompiler.Proofs.Lockstep

namespace UnitCompiler

open Context

def Decl.headType? : Decl → Option TypeId
  | .function _ head _ _ => head.ty
  | .struct _ head _ => head.ty
  | .var _ _ | .data _ _ | .array _ _ => none

/-- Every function and every struct got a new type. -/
theorem Decl.Entered.headTypes {env : ScopeId} {target : Target} {c c' : Context} {ds ds' : List Decl}
    (h : Decl.Entered env target c ds c' ds') :
    (ds'.filterMap Decl.headType?).Nodup ∧
      ∀ id ∈ ds'.filterMap Decl.headType?, c.types.size ≤ id ∧ id < c'.types.size := by
  have hlater : ∀ {c c₁ c' : Context} {ids : List TypeId}, c.types.size ≤ c₁.types.size →
      (ids.Nodup ∧ ∀ id ∈ ids, c₁.types.size ≤ id ∧ id < c'.types.size) →
      ids.Nodup ∧ ∀ id ∈ ids, c.types.size ≤ id ∧ id < c'.types.size :=
    fun hle h => ⟨h.1, fun id hid => ⟨Nat.le_trans hle (h.2 id hid).1, (h.2 id hid).2⟩⟩
  -- the next id is the number of types, so a new head is older than all that follow
  have hnew : ∀ {c c₁ c' : Context} {ids : List TypeId}, c.types.size < c₁.types.size →
      c₁.types.size ≤ c'.types.size →
      (ids.Nodup ∧ ∀ id ∈ ids, c₁.types.size ≤ id ∧ id < c'.types.size) →
      (c.types.size :: ids).Nodup ∧
        ∀ id ∈ c.types.size :: ids, c.types.size ≤ id ∧ id < c'.types.size := by
    intro c c₁ c' ids hlt hle h
    obtain ⟨hnodup, hids⟩ := hlater (Nat.le_of_lt hlt) h
    refine ⟨List.nodup_cons.mpr ⟨fun hmem => ?_, hnodup⟩, List.forall_mem_cons.mpr ⟨?_, hids⟩⟩
    · exact absurd hlt (Nat.not_lt.mpr (h.2 _ hmem).1)
    · exact ⟨Nat.le_refl _, Nat.lt_of_lt_of_le hlt hle⟩
  induction h with
  | nil => exact ⟨List.nodup_nil, List.forall_mem_nil _⟩
  | var h _ ih => exact hlater (Variable.register_grows h).extends.size ih
  | array h _ ih => exact hlater (ArrayDecl.register_grows h).extends.size ih
  | data h _ ih =>
    obtain ⟨text, rfl, -⟩ | ⟨lit, -, -, rfl, -⟩ := DataItem.register_eq_ok h
    · exact ih
    · exact ih
  | struct h rest ih =>
    obtain ⟨i, hins, rfl⟩ := StructHead.register_eq_ok h
    have hle := (extends_insert hins).size
    rw [size_addType] at hle
    exact hnew hle rest.extends.size ih
  | function _ hparams hins rest _ ih =>
    have hle := hparams.extends.size
    rw [size_addType] at hle
    exact hnew (Nat.lt_of_lt_of_le hle (extends_insert hins).size) rest.extends.size ih

section Resume

variable {l : Shift} {c a s : Context} {d d' : Decl} {ds : List Decl} {q : Prop}

/-- In the middle of a check: of the declarations that are still to come, no struct has got fields since
registration. -/
structure Context.Resumes (l : Shift) (c a : Context) (ds : List Decl) (s : Context) : Prop where
  flat : Flat c
  replica : Replica l c a
  pos : 0 < s.scopes.length
  nodup : (ds.filterMap Decl.headType?).Nodup
  lt : ∀ ty ∈ ds.filterMap Decl.headType?, ty < c.types.size
  fills : Fills (fun id => ∀ ty ∈ ds.filterMap Decl.headType?, l.ty ty ≠ id) a s

theorem Decl.mem_heads {id : TypeId} : id ∈ (d :: ds).filterMap Decl.headType? ↔
    d.headType? = some id ∨ id ∈ ds.filterMap Decl.headType? := by
  simp only [List.mem_filterMap, List.mem_cons, exists_eq_or_imp]

theorem Decl.heads_nodup (h : ((d :: ds).filterMap Decl.headType?).Nodup) :
    (ds.filterMap Decl.headType?).Nodup ∧ ∀ {k}, d.headType? = some k → k ∉ ds.filterMap Decl.headType? := by
  rw [List.filterMap_cons] at h
  cases hd : d.headType? with
  | none =>
    rw [hd] at h
    exact ⟨h, nofun⟩
  | some id =>
    rw [hd] at h
    refine ⟨(List.nodup_cons.mp h).2, fun hk => ?_⟩
    cases hk
    exact (List.nodup_cons.mp h).1

abbrev Context.Resumes.shift (h : Resumes l c a ds s) : Shift :=
  c.shiftTo s l h.replica.floor

theorem Context.Resumes.mirror (h : Resumes l c a (d :: ds) s) :
    Mirror h.shift (Target.Among fun id => d.headType? = some id) s c s := by
  refine h.flat.mirror h.replica h.fills h.pos fun {id} hid hall => ?_
  exact hall id (Decl.mem_heads.mpr (Or.inl hid)) rfl

/-- The struct that was filled is none of those that are still to come. -/
theorem Context.Resumes.next (h : Resumes l c a (d :: ds) s) {c₁ u : Context}
    (hmirror : Mirror h.shift (Target.Among fun id => d.headType? = some id) s c₁ u) : Resumes l c a ds u := by
  have hnodup := Decl.heads_nodup h.nodup
  refine ⟨h.flat, h.replica, hmirror.pos_right, hnodup.1,
    fun ty hty => h.lt ty (Decl.mem_heads.mpr (Or.inr hty)), ?_⟩
  refine Fills.trans h.fills hmirror.keeps.fills ?_
  rintro id (hold | ⟨k, hk, rfl⟩) ty hty
  · exact hold ty (Decl.mem_heads.mpr (Or.inr hty))
  · intro heq
    rw [h.replica.shiftTo_ty (h.lt k (Decl.mem_heads.mpr (Or.inl hk)))] at heq
    rw [Shift.ty_injective heq] at hty
    exact hnodup.2 hk hty

theorem Decl.Echoes.checkBody {own : Target → Prop} (h : d.Echoes l own q d') : d'.checkBody = d.checkBody := by
  funext env
  cases h <;> rw [Decl.checkBody, Decl.checkBody] <;> nofun

/-- An echo in the replica is one in every later context. A declaration without a check is no copy there. -/
theorem Decl.Echoes.resume {own : Target → Prop} (h : d.Echoes l own q d') (hcopy : Replica l c a)
    (hlt : ∀ {id}, d.headType? = some id → id < c.types.size) :
    d.Echoes (c.shiftTo s l hcopy.floor) (Target.Among fun id => d.headType? = some id)
      (q ∧ d.isLeaf = false) d' := by
  have hmap : ∀ ty : Option TypeId, (∀ {id}, ty = some id → id < c.types.size) →
      ty.map l.ty = ty.map (c.shiftTo s l hcopy.floor).ty := by
    intro ty hty
    cases ty with
    | none => rfl
    | some id => rw [Option.map_some, Option.map_some, hcopy.shiftTo_ty (hty rfl)]
  cases h with
  | var => exact .var fun h => nomatch h.2
  | data => exact .data fun h => nomatch h.2
  | array => exact .array fun h => nomatch h.2
  | struct hident hty _ hfresh =>
    exact .struct hident (hty.trans (hmap _ hlt)) (fun ty hty => Or.inl hty) fun h => hfresh h.1
  | function hident hty => exact .function hident (hty.trans (hmap _ hlt))

/-- A declaration is checked in a later context as it is right after registration, and leaves everything as it
was but its own type. -/
theorem Decl.check_alone {s t : Session} (h : Resumes l t.context a (d :: ds) s.context)
    {own : Target → Prop} (hecho : d.Echoes l own q d') (hfresh : q → Stmt.areFresh d.body = true) :
    Visited.Matched (Mirror h.shift (Target.Among fun id => d.headType? = some id) s.context)
      (fun n n' => q ∧ d.isLeaf = false →
        n.Copies h.shift (h.shift.Live (Target.Among fun id => d.headType? = some id)) n')
      (d.check root t) (d'.check root s) := by
  have hmirror := h.mirror
  have hroot : root < t.context.scopes.length := hmirror.pos
  have hresumed := hecho.resume (s := s.context) h.replica fun hid => h.lt _ (Decl.mem_heads.mpr (Or.inl hid))
  have hcheck := Decl.checkWith_matched hresumed (fun scope s s' hne hlt hs =>
    (Decl.checkBody_matched d scope s s' hne hlt hs).imp fun _ _ hcopies hq => hcopies (hfresh hq.1)) hmirror hroot
  unfold Decl.check
  rw [hecho.checkBody]
  rwa [Shift.env_root] at hcheck

end Resume

/-- A declaration of a checked program is a copy of one that was checked alone, right after registration. The
labels that this check gave out got other numbers in the program, from behind `lo` to `hi`. -/
structure Decl.Lodges (c final : Context) (lo hi : Nat) (n n' : Decl) (c₁ : Context) (l : Shift)
    (live : TypeId → Prop) : Prop where
  copies : n.Copies l live n'
  image : Image l live c₁ final
  issued : c.labels ≤ c₁.labels
  fixed : ∀ k ≤ c.labels, l.number k = k
  moved : ∀ k, c.labels < k → k ≤ c₁.labels → lo < l.number k ∧ l.number k ≤ hi

inductive Decl.LodgesAll (q : Prop) (t : Session) (final : Context) : Nat → List Decl → List Decl → Prop
  | nil {lo : Nat} (h : lo ≤ final.labels) : Decl.LodgesAll q t final lo [] []
  | cons {lo hi : Nat} {d n n' : Decl} {t₁ : Session} {ds ns : List Decl}
      (hcheck : d.check root t = (⟨n, .ok ()⟩, t₁)) (hle : lo ≤ hi)
      (h : q → ∃ l live, Decl.Lodges t.context final lo hi n n' t₁.context l live)
      (rest : Decl.LodgesAll q t final hi ds ns) : Decl.LodgesAll q t final lo (d :: ds) (n' :: ns)

theorem Decl.LodgesAll.outcome {q : Prop} {t : Session} {final : Context} {lo : Nat} {ds ns : List Decl}
    (h : Decl.LodgesAll q t final lo ds ns) : ∀ d ∈ ds, (d.check root t).1.outcome = .ok () := by
  induction h with
  | nil => exact List.forall_mem_nil _
  | cons hcheck _ _ _ ih => exact List.forall_mem_cons.mpr ⟨by rw [hcheck], ih⟩

theorem Decl.LodgesAll.le {q : Prop} {t : Session} {final : Context} {lo : Nat} {ds ns : List Decl}
    (h : Decl.LodgesAll q t final lo ds ns) : lo ≤ final.labels := by
  induction h with
  | nil h => exact h
  | cons _ hle _ _ ih => exact Nat.le_trans hle ih

/-- The first declaration that fails when it is checked alone gives, up to its text, the diagnostic. -/
def Decl.FailsFirst (t : Session) (ds : List Decl) (e : Diagnostic) : Prop :=
  ∃ before d later e', ds = before ++ d :: later ∧ (∀ d' ∈ before, (d'.check root t).1.outcome = .ok ()) ∧
    (d.check root t).1.outcome = .error e' ∧ (d.stamp e').Resembles e

theorem Decl.FailsFirst.cons {t : Session} {ds : List Decl} {e : Diagnostic} (h : Decl.FailsFirst t ds e) {d : Decl}
    (hd : (d.check root t).1.outcome = .ok ()) : Decl.FailsFirst t (d :: ds) e := by
  obtain ⟨before, d', later, e', rfl, hbefore, hfails, he⟩ := h
  exact ⟨d :: before, d', later, e', rfl, List.forall_mem_cons.mpr ⟨hd, hbefore⟩, hfails, he⟩

section Sequence

variable {l : Shift} {c a : Context} {d d' : Decl} {ds : List Decl} {q : Prop} {own : Target → Prop}

theorem Decl.Copies.of_isLeaf {live live' : TypeId → Prop} (h : d.Copies l live d') (hleaf : d.isLeaf = true) :
    d.Copies l live' d' := by
  cases h with
  | var hident hkind hreg => exact .var hident hkind hreg
  | data h => exact .data h
  | array hident hkind hty => exact .array hident hkind hty
  | function | struct => cases hleaf

theorem Decl.check_of_isLeaf (hleaf : d.isLeaf = true) (env : ScopeId) (s : Session) :
    d.check env s = (⟨d, .ok ()⟩, s) := by
  cases d with
  | var | data | array => rfl
  | function | struct => cases hleaf

theorem Decl.Echoes.isLeaf (h : d.Echoes l own q d') : d'.isLeaf = d.isLeaf := by
  cases h <;> rfl

theorem Decl.Echoes.stamp (h : d.Echoes l own q d') (e : Diagnostic) : d'.stamp e = d.stamp e := by
  cases h <;> rfl

theorem Decl.Echoes.copies_of_isLeaf (h : d.Echoes l own q d') (hleaf : d.isLeaf = true) (hq : q) :
    d.Copies l (l.Live own) d' := by
  cases h with
  | var h | data h | array h => exact h hq
  | function | struct => cases hleaf

abbrev Decl.Filled (l : Shift) (ds : List Decl) (id : TypeId) : Prop :=
  ∃ ty ∈ ds.filterMap Decl.headType?, l.ty ty = id

theorem Decl.lodges_of_isLeaf {s final : Context} {lo hi : Nat} (h : Resumes l c a ds s)
    (hfinal : Fills (Decl.Filled l ds) s final) (hpos : 0 < final.scopes.length) (hecho : d.Echoes l own q d')
    (hleaf : d.isLeaf = true) (hq : q) : Decl.Lodges c final lo hi d d' c l fun _ => False where
  copies := (hecho.copies_of_isLeaf hleaf hq).of_isLeaf hleaf
  image := by
    refine h.replica.toImage.later (Keeps.trans h.fills hfinal) hpos ?_ fun _ hid => hid.elim
    exact fun hroot => hroot.elim id id
  issued := Nat.le_refl _
  fixed k _ := h.replica.number k
  moved k hlt hle := absurd hlt (Nat.not_lt.mpr hle)

theorem Decl.lodges_of_mirror {s c₁ u final : Context} (h : Resumes l c a (d :: ds) s)
    (hmirror : Mirror h.shift (Target.Among fun id => d.headType? = some id) s c₁ u)
    (hfinal : Fills (Decl.Filled l ds) u final) (hpos : 0 < final.scopes.length) {n n' : Decl}
    (hcopies : n.Copies h.shift (h.shift.Live (Target.Among fun id => d.headType? = some id)) n') :
    Decl.Lodges c final s.labels u.labels n n' c₁ h.shift
      (h.shift.Live (Target.Among fun id => d.headType? = some id)) where
  copies := hcopies
  image := by
    refine hmirror.toImage.later hfinal hpos id fun id hlive => ⟨hlive, ?_⟩
    rintro ⟨ty, hty, heq⟩
    obtain hmine | hfloor := hlive
    · have hlt := h.lt id (Decl.mem_heads.mpr (Or.inl hmine))
      rw [h.replica.shiftTo_ty hlt] at heq
      rw [Shift.ty_injective heq] at hty
      exact (Decl.heads_nodup h.nodup).2 hmine hty
    · have hlt := h.replica.ty_lt (h.lt ty (Decl.mem_heads.mpr (Or.inr hty)))
      rw [heq, Shift.ty_of_le hfloor] at hlt
      exact absurd (Nat.le_trans hfloor (Nat.le_add_right _ _)) (Nat.not_le.mpr hlt)
  issued := hmirror.issued
  fixed k hk := if_pos hk
  moved k hlt hle := by
    have hbase : s.labels = c.labels + h.shift.labels := hmirror.baseLabels
    have hlabels := hmirror.labels
    have hbehind : ¬ k ≤ h.shift.issued := Nat.not_le.mpr hlt
    rw [Shift.number, if_neg hbehind]
    omega

/-- A sequence is checked as its declarations are one by one, if no two of them fill the same struct. -/
theorem DeclList.checkFrom_lodges {seq : DeclList} {s t : Session} (h : Resumes l t.context a ds s.context)
    (hpairs : List.Forall₂ (fun d d' => d.Echoes l own q d' ∧ (q → Stmt.areFresh d.body = true)) ds
      (seq.filterMap id)) (index : Nat) :
    (∃ seq' u, DeclList.checkFrom root index seq s = (⟨seq', .ok ()⟩, u) ∧
      Decl.LodgesAll q t u.context s.context.labels ds (seq'.filterMap id) ∧
      Fills (Decl.Filled l ds) s.context u.context ∧ 0 < u.context.scopes.length) ∨
    ∃ e, (DeclList.checkFrom root index seq s).1.outcome = .error e ∧ Decl.FailsFirst t ds e := by
  induction seq generalizing ds index s with
  | nil =>
    cases hpairs
    exact Or.inl ⟨[], s, rfl, .nil (Nat.le_refl _), .refl _ _, h.pos⟩
  | cons slot rest ih =>
    cases slot with
    | none =>
      rw [DeclList.checkFrom_none]
      obtain ⟨seq', u, hrun, hlodges⟩ | ⟨e, he, hfails⟩ := ih h hpairs (index + 1)
      · rw [hrun]
        exact Or.inl ⟨none :: seq', u, rfl, hlodges⟩
      · exact Or.inr ⟨e, he, hfails⟩
    | some d' =>
      change List.Forall₂ _ ds (d' :: rest.filterMap id) at hpairs
      cases hpairs with
      | @cons d _ ds _ hd hpairs =>
        obtain ⟨hecho, hfresh⟩ := hd
        have hlog : Resumes l t.context a (d :: ds) (Session.log (.visited .check index d'.noun) s).2.context := h
        have hmatched := Decl.check_alone hlog hecho hfresh
        generalize hy : d'.check root (Session.log (.visited .check index d'.noun) s).2 = y at hmatched
        generalize hx : d.check root t = x at hmatched
        rw [DeclList.checkFrom_visit rest hy]
        cases hmatched with
        | @error _ _ _ _ e' e he =>
          refine Or.inr ⟨_, rfl, [], d, ds, e', rfl, List.forall_mem_nil _, by rw [hx], ?_⟩
          rw [hecho.stamp]
          exact he.stamp d
        | @ok n n' t₁ u hmirror hcopies =>
          -- what comes later fills other structs, so a copy here is one in the last context too
          obtain ⟨seq', v, hrun, hlodges, hfills, hpos⟩ | ⟨e, he, hfails⟩ := ih (h.next hmirror) hpairs (index + 1)
          · rw [hrun]
            refine Or.inl ⟨some n' :: seq', v, rfl, .cons hx hmirror.keeps.labels (fun hq => ?_) hlodges, ?_, hpos⟩
            · cases hleaf : d.isLeaf with
              | false => exact ⟨_, _, Decl.lodges_of_mirror h hmirror hfills hpos (hcopies ⟨hq, hleaf⟩)⟩
              | true =>
                -- a leaf is left alone by the check: its copy is that of registration
                rw [Decl.check_of_isLeaf hleaf] at hx
                rw [Decl.check_of_isLeaf (hecho.isLeaf.trans hleaf)] at hy
                cases hx
                cases hy
                exact ⟨_, _, Decl.lodges_of_isLeaf (h.next hmirror) hfills hpos hecho hleaf hq⟩
            · refine Fills.trans hmirror.keeps.fills hfills ?_
              rintro id (⟨k, hk, rfl⟩ | ⟨k, hk, rfl⟩)
              · have hmem : k ∈ (d :: ds).filterMap Decl.headType? := Decl.mem_heads.mpr (Or.inl hk)
                exact ⟨k, hmem, (h.replica.shiftTo_ty (h.lt k hmem)).symm⟩
              · exact ⟨k, Decl.mem_heads.mpr (Or.inr hk), rfl⟩
          · exact Or.inr ⟨e, he, hfails.cons (by rw [hx])⟩

end Sequence

end UnitCompiler
