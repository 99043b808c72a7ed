import UnitCompiler.Proofs.IssuedLabels
import UnitCompiler.Proofs.MirrorSteps

namespace UnitCompiler

open Context

section Start

variable {l l' : Shift}

theorem Table.Mirrors.change {t t' : Table} (h : t.Mirrors l t') (hty : ∀ id ∈ t.typeIds, l'.ty id = l.ty id) :
    t.Mirrors l' t' := by
  unfold Table.typeIds at hty
  unfold Table.Mirrors at h ⊢
  generalize t.records = rs, t'.records = rs' at h hty ⊢
  induction h with
  | nil => exact .nil
  | cons hr _ ih =>
    rw [List.flatMap_cons, List.forall_mem_append] at hty
    exact .cons ⟨hr.name, hr.ty.trans (hty.1 _ List.mem_cons_self).symm, hr.kind⟩ (ih hty.2)

theorem Table.Answers.change {t t' : Table} (h : t.Answers l t') (hty : ∀ id ∈ t.typeIds, l'.ty id = l.ty id) :
    t.Answers l' t' := by
  intro name
  have hget := h name
  generalize t'.get? name = y at hget ⊢
  generalize hx : t.get? name = x at hget ⊢
  cases hget with
  | none => exact .none
  | @some r _ hr =>
    have hmem : r.ty ∈ t.typeIds :=
      List.mem_flatMap.mpr ⟨r, List.mem_of_find?_eq_some hx, List.mem_cons_self⟩
    exact .some ⟨hr.name, hr.ty.trans (hty _ hmem).symm, hr.kind⟩

theorem Ty.Mirrors.change {t t' : Ty} {live live' : Prop} (h : t.Mirrors l live t')
    (hty : ∀ id ∈ t.typeIds, l'.ty id = l.ty id)
    (hlabel : ∀ label label', t.arrayLabel? = some label → l.Moves label label' → l'.Moves label label')
    (hlive : live' → live) : t.Mirrors l' live' t' := by
  cases h with
  | int => exact .int
  | float => exact .float
  | string => exact .string
  | const => exact .const
  | struct h => exact .struct fun hl => (h (hlive hl)).change hty
  | array h =>
    rw [← hty _ List.mem_cons_self]
    exact .array (hlabel _ _ rfl h)
  | function h =>
    rw [← hty _ List.mem_cons_self]
    exact .function (h.change fun id hid => hty id (List.mem_cons_of_mem _ hid))

theorem Table.mirrors_self {t : Table} (h : ∀ id ∈ t.typeIds, l.ty id = id) : t.Mirrors l t := by
  apply List.forall₂_same.mpr
  intro r hr
  refine ⟨rfl, (h r.ty ?_).symm, rfl⟩
  exact List.mem_flatMap.mpr ⟨r, hr, List.mem_cons_self⟩

theorem Ty.mirrors_self {t : Ty} (h : ∀ id ∈ t.typeIds, l.ty id = id)
    (hlabel : ∀ label, t.arrayLabel? = some label → l.Moves label label) (live : Prop) : t.Mirrors l live t := by
  cases t with
  | int => exact .int
  | float => exact .float
  | string => exact .string
  | const value => exact .const
  | struct name fields => exact .struct fun _ => Table.mirrors_self h
  | array label element sizes =>
    have hmirror : (Ty.array label element sizes).Mirrors l live (.array label (l.ty element) sizes) :=
      .array (hlabel label rfl)
    rwa [h element List.mem_cons_self] at hmirror
  | function result params =>
    have hparams : params.Mirrors l params := Table.mirrors_self fun id hid => h id (List.mem_cons_of_mem _ hid)
    have hmirror : (Ty.function result params).Mirrors l live (.function (l.ty result) params) := .function hparams
    rwa [h result List.mem_cons_self] at hmirror

namespace Context

variable {done own : Target → Prop} {b c c' : Context}

theorem Keeps.refl (own : Target → Prop) (c : Context) : Keeps own c c :=
  ⟨fun {_ t} h => ⟨t, h, Or.inl rfl⟩, fun _ h => h, Nat.le_refl _, fun _ => .refl _⟩

theorem Keeps.trans (h : Keeps done b c) (h' : Keeps own c c') : Keeps (fun t => done t ∨ own t) b c' := by
  refine ⟨?_, fun hne hs => h'.scopes hne (h.scopes hne hs), Nat.le_trans h.labels h'.labels, ?_⟩
  · intro id t ht
    obtain ⟨u, hu, hor⟩ := h.types ht
    obtain ⟨v, hv, hor'⟩ := h'.types hu
    refine ⟨v, hv, ?_⟩
    obtain rfl | ⟨hdone, hrefill⟩ := hor
    · exact hor'.imp_right fun ⟨hown, hrefill⟩ => ⟨Or.inr hown, hrefill⟩
    · obtain rfl | ⟨-, hrefill'⟩ := hor'
      · exact Or.inr ⟨Or.inl hdone, hrefill⟩
      · exact Or.inr ⟨Or.inl hdone, hrefill.trans hrefill'⟩
  · intro hnone
    obtain ⟨hdone, hown⟩ := not_or.mp hnone
    exact (h.root hdone).trans (h'.root hown)

theorem Keeps.mono (h : Keeps done b c) (himp : ∀ t, done t → own t) : Keeps own b c := by
  refine ⟨?_, h.scopes, h.labels, fun hown => h.root fun hdone => hown (himp _ hdone)⟩
  intro id t ht
  obtain ⟨u, hu, hor⟩ := h.types ht
  exact ⟨u, hu, hor.imp_right fun ⟨hdone, hrefill⟩ => ⟨himp _ hdone, hrefill⟩⟩

theorem Keeps.size (h : Keeps done b c) : b.types.size ≤ c.types.size := by
  by_contra hlt
  have hlt : c.types.size < b.types.size := Nat.lt_of_not_le hlt
  obtain ⟨t, ht, -⟩ := h.types (List.getElem?_eq_getElem hlt)
  exact Nat.lt_irrefl _ (lt_size_of_get? ht)

/-- What a context is the image of can be read in a later one too, up to the structs that were filled. -/
theorem Image.later {l : Shift} {live live' : TypeId → Prop} (h : Image l live c b) (hkeeps : Keeps done b c')
    (hpos : 0 < c'.scopes.length) (hroot : ¬ done (.scope root))
    (hlive : ∀ id, live' id → live id ∧ ¬ done (.fields (l.ty id))) : Image l live' c c' := by
  -- only the scope of the unit may have changed, in what is not read
  have hscope : ∀ {e s'}, b.scopes[l.env e]? = some s' →
      ∃ u, c'.scopes[l.env e]? = some u ∧ s'.Agrees u ∧ (e ≠ root → u = s') := by
    intro e s' hs'
    by_cases he : e = root
    · subst he
      rw [Shift.env_root] at hs' ⊢
      have hu : c'.scopes[root]? = some c'.scopes[root] := List.getElem?_eq_getElem hpos
      have hagrees := hkeeps.root hroot
      rw [scope_eq hs', scope_eq hu] at hagrees
      exact ⟨_, hu, hagrees, fun hne => absurd rfl hne⟩
    · have hne : l.env e ≠ root := fun heq => he (Shift.env_strictMono.injective (heq.trans Shift.env_root.symm))
      exact ⟨s', hkeeps.scopes hne hs', .refl _, fun _ => rfl⟩
  refine { h with types := ?_, scopes := ?_, symbols := ?_ }
  · intro id t ht
    obtain ⟨t', ht', hmirror⟩ := h.types ht
    obtain ⟨u, hu, hor⟩ := hkeeps.types ht'
    refine ⟨u, hu, ?_⟩
    obtain rfl | ⟨hdone, name, fields, fields', rfl, rfl⟩ := hor
    · exact hmirror.change (fun _ _ => rfl) (fun _ _ _ h => h) fun hl => (hlive _ hl).1
    · cases hmirror
      exact .struct fun hl => absurd hdone (hlive _ hl).2
  · intro e s hs
    obtain ⟨s', hs', hmirror⟩ := h.scopes hs
    obtain ⟨u, hu, hagrees, hsame⟩ := hscope hs'
    refine ⟨u, hu, hagrees.kind.trans hmirror.kind, hagrees.parent.trans hmirror.parent, ?_,
      hagrees.labels.trans hmirror.labels, ?_, ?_⟩
    · rw [hagrees.decls]
      exact hmirror.answers
    · intro hne
      rw [hsame hne]
      exact hmirror.decls hne
    · intro hne
      rw [hsame hne]
      exact hmirror.children hne
  · intro e s u hne hs hu
    obtain ⟨s', hs', -⟩ := h.scopes hs
    obtain ⟨u', hu', -, hsame⟩ := hscope hs'
    obtain rfl : u' = u := Option.some.inj (hu'.symm.trans hu)
    rw [hsame hne]
    exact h.symbols hne hs hs'

/-- What registration leaves of a new context: one scope, and no id that leads out of the arena. -/
structure Flat (c : Context) : Prop where
  sound : Sound c
  issued : Issued c
  length : c.scopes.length = 1
  kind : (c.scope root).kind = .unit
  parent : (c.scope root).parent = none

theorem Flat.eq_root (hc : Flat c) {e : ScopeId} {s : Scope} (hs : c.scopes[e]? = some s) :
    e = root ∧ s = c.scope root := by
  have hlt := (List.getElem?_eq_some_iff.mp hs).1
  rw [hc.length] at hlt
  obtain rfl : e = root := Nat.lt_one_iff.mp hlt
  exact ⟨rfl, (scope_eq hs).symm⟩

theorem Flat.root_lt (hc : Flat c) {id : TypeId} (hid : id ∈ (c.scope root).decls.typeIds) : id < c.types.size := by
  have hlt : root < c.scopes.length := by
    rw [hc.length]
    exact Nat.one_pos
  have hs : c.scopes[root]? = some c.scopes[root] := List.getElem?_eq_getElem hlt
  rw [scope_eq hs] at hid
  exact hc.sound.scopes _ (List.mem_of_getElem? hs) id (List.mem_append_right _ hid)

/-- A context with one scope has an image wherever its types and its declarations have one. -/
theorem Flat.image (hc : Flat c) (l : Shift) {live : TypeId → Prop}
    (htypes : ∀ {id t}, c.types.get? id = some t →
      ∃ t', c'.types.get? (l.ty id) = some t' ∧ t.Mirrors l (live id) t')
    (hpos : 0 < c'.scopes.length) (hkind : (c'.scope root).kind = .unit) (hparent : (c'.scope root).parent = none)
    (hlabels : (c'.scope root).labels = (c.scope root).labels)
    (hdecls : (c.scope root).decls.Answers l (c'.scope root).decls) : Image l live c c' := by
  -- the root is the only scope, so every clause on inner scopes is empty
  refine ⟨?_, htypes, ?_, ?_, ?_, ?_, ?_⟩
  · rw [hc.length]
    exact Nat.one_pos
  · intro e s hs
    obtain ⟨rfl, rfl⟩ := hc.eq_root hs
    have hs' : c'.scopes[root]? = some c'.scopes[root] := List.getElem?_eq_getElem hpos
    refine ⟨c'.scope root, ?_, ?_, ?_, hdecls, hlabels, ?_, ?_⟩
    · simp [scope_eq hs', hs']
    · rw [hkind, hc.kind]
    · rw [hparent, hc.parent]
      rfl
    · exact fun hne => absurd rfl hne
    · exact fun hne => absurd rfl hne
  · intro e s s' hne hs
    exact absurd (hc.eq_root hs).1 hne
  · intro e p s hs hp
    obtain ⟨-, rfl⟩ := hc.eq_root hs
    rw [hc.parent] at hp
    cases hp
  · intro e s hs hk
    obtain ⟨-, rfl⟩ := hc.eq_root hs
    rw [hc.kind] at hk
    cases hk
  · intro e s hne hs
    exact absurd (hc.eq_root hs).1 hne

/-- The second context is the first one, in which at most the types have changed places. -/
structure Replica (l : Shift) (c a : Context) : Prop extends Image l (fun _ => True) c a where
  floor : l.floor ≤ c.types.size
  unmoved : l.types = 0
  unnumbered : l.labels = 0
  size : a.types.size = c.types.size
  labels : a.labels = c.labels

theorem Replica.number {l : Shift} (h : Replica l c c') (k : Nat) : l.number k = k := by
  unfold Shift.number
  rw [h.unnumbered]
  split <;> rfl

def still (c : Context) : Shift :=
  ⟨c.types.size, Equiv.refl TypeId, 0, 0, c.labels, 0, fun _ _ => rfl⟩

@[simp] theorem still_ty (c : Context) (id : TypeId) : c.still.ty id = id := by
  unfold Shift.ty
  split <;> rfl

theorem Flat.replica_self (hc : Flat c) : Replica c.still c c := by
  have hpos : 0 < c.scopes.length := by
    rw [hc.length]
    exact Nat.one_pos
  have himage : Image c.still (fun _ => True) c c := by
    refine hc.image c.still ?_ hpos hc.kind hc.parent rfl ?_
    · intro id t ht
      rw [still_ty]
      refine ⟨t, ht, Ty.mirrors_self (fun _ _ => still_ty c _) (fun label hlabel => ?_) _⟩
      obtain ⟨k, hk, rfl⟩ := hc.issued t (List.mem_of_getElem? ht) label hlabel
      exact Shift.moves_issued hk
    · exact (Table.mirrors_self fun _ _ => still_ty c _).answers
  exact { himage with floor := Nat.le_refl _, unmoved := rfl, unnumbered := rfl, size := rfl, labels := rfl }

def shiftTo (c c' : Context) (l : Shift) (h : l.floor ≤ c.types.size) : Shift :=
  ⟨c.types.size, l.perm, c'.types.size - c.types.size, c'.scopes.length - 1, c.labels, c'.labels - c.labels,
    fun id hid => l.fixed id (hid.imp_right (Nat.le_trans h))⟩

variable {l : Shift} {a s : Context}

theorem Replica.shiftTo_ty (h : Replica l c a) {id : TypeId} (hid : id < c.types.size) :
    (c.shiftTo c' l h.floor).ty id = l.ty id := by
  rw [Shift.ty_of_lt (l := c.shiftTo c' l h.floor) hid]
  by_cases hlt : id < l.floor
  · rw [Shift.ty_of_lt hlt]
    rfl
  · have hle : l.floor ≤ id := Nat.le_of_not_lt hlt
    rw [Shift.ty_of_le hle, h.unmoved]
    exact l.fixed id (Or.inr hle)

theorem Replica.ty_lt (h : Replica l c a) {id : TypeId} (hid : id < c.types.size) : l.ty id < c.types.size := by
  by_cases hlt : id < l.floor
  · exact Nat.lt_of_lt_of_le (Shift.ty_lt hlt) h.floor
  · rw [Shift.ty_of_le (Nat.le_of_not_lt hlt), h.unmoved]
    exact hid

def Fills (done : TypeId → Prop) (b c : Context) : Prop :=
  Keeps (Target.Among done) b c

theorem Fills.refl (done : TypeId → Prop) (c : Context) : Fills done c c :=
  Keeps.refl _ c

theorem Fills.trans {done done' more : TypeId → Prop} (h : Fills done b c) (h' : Fills done' c c')
    (hmore : ∀ id, done id ∨ done' id → more id) : Fills more b c' := by
  refine (Keeps.trans h h').mono ?_
  rintro (_ | id | _) hdone
  · exact hdone.elim False.elim False.elim
  · exact hmore id hdone
  · exact hdone.elim False.elim False.elim

theorem Keeps.fills {own : TypeId → Prop} (h : Keeps (l.Owned (Target.Among own)) b c) :
    Fills (fun id => ∃ k, own k ∧ l.ty k = id) b c := by
  refine h.mono ?_
  rintro _ ⟨_ | id | _, hown, rfl⟩
  · exact hown
  · exact ⟨id, hown, rfl⟩
  · exact hown

/-- The check of a declaration can start in a later context as well as in the first one, as long as its own
struct has not been filled. The later context may come from a replica of the first one. -/
theorem Flat.mirror (hc : Flat c) (hcopy : Replica l c a) {done own : TypeId → Prop} (hkeeps : Fills done a s)
    (hpos : 0 < s.scopes.length) (hown : ∀ {id}, own id → ¬ done (l.ty id)) :
    Mirror (c.shiftTo s l hcopy.floor) (Target.Among own) s c s := by
  have hsize : c.types.size ≤ s.types.size := hcopy.size ▸ hkeeps.size
  have hissued : c.labels ≤ s.labels := hcopy.labels ▸ hkeeps.labels
  have hagrees := hkeeps.root not_false
  have hscope := (hcopy.meets (e := root) hcopy.pos).scope
  rw [Shift.env_root] at hscope
  have himage : Image (c.shiftTo s l hcopy.floor) ((c.shiftTo s l hcopy.floor).Live (Target.Among own)) c s := by
    refine hc.image _ ?_ hpos ?_ ?_ ?_ ?_
    · intro id t ht
      have hid : id < c.types.size := lt_size_of_get? ht
      obtain ⟨t', ht', hmirror⟩ := hcopy.types ht
      obtain ⟨u, hu, hor⟩ := hkeeps.types ht'
      rw [hcopy.shiftTo_ty hid]
      refine ⟨u, hu, ?_⟩
      obtain rfl | ⟨hdone, name, fields, fields', rfl, rfl⟩ := hor
      · refine hmirror.change (fun i hi => hcopy.shiftTo_ty (hc.sound.mem_types ht i hi)) ?_ fun _ => trivial
        rintro label label' hlabel ⟨j, rfl, rfl⟩
        obtain ⟨k, hk, hgen⟩ := hc.issued t (List.mem_of_getElem? ht) _ hlabel
        obtain rfl := Symbol.generated_injective hgen
        rw [hcopy.number]
        exact Shift.moves_issued hk
      · -- the struct has got fields since, so it is none of those that the check may fill
        cases hmirror
        refine .struct fun hlive => ?_
        obtain hmine | hle := hlive
        · exact absurd hdone (hown hmine)
        · exact absurd hid (Nat.not_lt.mpr hle)
    · rw [hagrees.kind, hscope.kind, hc.kind]
    · rw [hagrees.parent, hscope.parent, hc.parent]
      rfl
    · rw [hagrees.labels, hscope.labels]
    · rw [hagrees.decls]
      exact hscope.answers.change fun id hid => hcopy.shiftTo_ty (hc.root_lt hid)
  exact { himage with
    builtin := hc.sound.builtin_le
    base := (Nat.add_sub_cancel' hsize).symm
    baseScopes := (Nat.sub_add_cancel hpos).symm
    baseLabels := (Nat.add_sub_cancel' hissued).symm
    floor := Nat.le_refl _
    size := (Nat.add_sub_cancel' hsize).symm
    length := by
      rw [hc.length]
      exact (Nat.add_sub_cancel' hpos).symm
    issued := Nat.le_refl _
    labels := (Nat.add_sub_cancel' hissued).symm
    keeps := .refl _ _ }

end Context

end Start

end UnitCompiler
