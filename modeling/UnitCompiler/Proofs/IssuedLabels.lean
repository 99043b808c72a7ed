import UnitCompiler.Proofs.Extension
import UnitCompiler.Proofs.Ownership
import UnitCompiler.Proofs.Renumbering

namespace UnitCompiler

open Context

inductive Mention where
  | label (symbol : String)
  | scope (env : ScopeId)
  | type (id : TypeId)

def Value.held : Value → List Mention
  | .var env _ _ => [.scope env]
  | .new _ label => [.label label]
  | .converted inner _ _ => inner.held
  | .const _ _ => []

def Registration.held (r : Registration) : List Mention :=
  .scope r.env :: (r.init.map Value.held).getD []

mutual

/-- What the passes have left in a declaration, as far as it is read when the declaration is emitted. -/
def Decl.held : Decl → List Mention
  | .var _ v => (v.registration.map Registration.held).getD []
  | .function _ head _ body => head.env.toList.map Mention.scope ++ Stmt.heldByAll body
  | .struct _ head fields => head.ty.toList.map Mention.type ++ DeclList.held fields
  | .data _ d => (d.constant.bind DataConst.label).toList.map Mention.label
  | .array _ v => v.ty.toList.map Mention.type

def DeclList.held : List (Option Decl) → List Mention
  | [] => []
  | none :: rest => DeclList.held rest
  | some d :: rest => Decl.held d ++ DeclList.held rest

def Stmt.held : Stmt → List Mention
  | .declare d => Decl.held d
  | .block body _ => Stmt.heldByAll body
  | .goto _ _ env => env.toList.map Mention.scope
  | .label _ _ env => env.toList.map Mention.scope
  | .eval _ checked => (checked.map Value.held).getD []

def Stmt.heldByAll : List Stmt → List Mention
  | [] => []
  | stmt :: rest => Stmt.held stmt ++ Stmt.heldByAll rest

end

theorem DeclList.mem_held {l : Mention} {seq : DeclList} :
    l ∈ DeclList.held seq ↔ ∃ d ∈ seq.filterMap id, l ∈ d.held := by
  induction seq with
  | nil => simp [DeclList.held]
  | cons slot rest ih =>
    cases slot with
    | none => simpa [DeclList.held] using ih
    | some d => simp [DeclList.held, ih]

mutual

theorem Decl.held_of_isFresh : ∀ {d : Decl}, d.isFresh = true → d.held = []
  | .var _ v, h => by
    rw [Decl.isFresh, Option.isNone_iff_eq_none] at h
    rw [Decl.held, h]
    rfl
  | .function _ head _ body, h => by
    simp only [Decl.isFresh, Bool.and_eq_true, Option.isNone_iff_eq_none] at h
    obtain ⟨⟨⟨-, henv⟩, -⟩, hbody⟩ := h
    rw [Decl.held, henv, Stmt.heldByAll_of_areFresh hbody]
    rfl
  | .struct _ head fields, h => by
    rw [Decl.isFresh, Bool.and_eq_true, Option.isNone_iff_eq_none] at h
    rw [Decl.held, h.1, DeclList.held_of_areFresh h.2]
    rfl
  | .data _ d, h => by
    rw [Decl.isFresh, Option.isNone_iff_eq_none] at h
    rw [Decl.held, h]
    rfl
  | .array _ v, h => by
    rw [Decl.isFresh, Option.isNone_iff_eq_none] at h
    rw [Decl.held, h]
    rfl

theorem DeclList.held_of_areFresh : ∀ {seq : List (Option Decl)}, DeclList.areFresh seq = true →
    DeclList.held seq = []
  | [], _ => by rw [DeclList.held]
  | none :: rest, h => by
    rw [DeclList.areFresh] at h
    rw [DeclList.held, DeclList.held_of_areFresh h]
  | some d :: rest, h => by
    rw [DeclList.areFresh, Bool.and_eq_true] at h
    rw [DeclList.held, Decl.held_of_isFresh h.1, DeclList.held_of_areFresh h.2, List.append_nil]

theorem Stmt.held_of_isFresh : ∀ {stmt : Stmt}, stmt.isFresh = true → stmt.held = []
  | .declare d, h => by
    rw [Stmt.isFresh] at h
    rw [Stmt.held, Decl.held_of_isFresh h]
  | .block body _, h => by
    rw [Stmt.isFresh] at h
    rw [Stmt.held, Stmt.heldByAll_of_areFresh h]
  | .goto _ _ env, h => by
    rw [Stmt.isFresh, Option.isNone_iff_eq_none] at h
    rw [Stmt.held, h]
    rfl
  | .label _ _ env, h => by
    rw [Stmt.isFresh, Option.isNone_iff_eq_none] at h
    rw [Stmt.held, h]
    rfl
  | .eval _ checked, h => by
    rw [Stmt.isFresh, Option.isNone_iff_eq_none] at h
    rw [Stmt.held, h]
    rfl

theorem Stmt.heldByAll_of_areFresh : ∀ {body : List Stmt}, Stmt.areFresh body = true →
    Stmt.heldByAll body = []
  | [], _ => by rw [Stmt.heldByAll]
  | stmt :: rest, h => by
    rw [Stmt.areFresh, Bool.and_eq_true] at h
    rw [Stmt.heldByAll, Stmt.held_of_isFresh h.1, Stmt.heldByAll_of_areFresh h.2, List.append_nil]

end

def Context.Issued (c : Context) : Prop :=
  ∀ t ∈ c.types.types, ∀ label, t.arrayLabel? = some label → ∃ k ≤ c.labels, label = Symbol.generated k

theorem Symbol.UpTo.mono {n m : Nat} {label : String} (h : UpTo n label) (hnm : n ≤ m) : UpTo m label :=
  fun k hk => Nat.le_trans (h k hk) hnm

theorem Symbol.upTo_of_forall_ne {label : String} (h : ∀ k, label ≠ generated k) (n : Nat) : UpTo n label :=
  fun k hk => absurd hk (h k)

theorem Symbol.upTo_generated {k n : Nat} (h : k ≤ n) : UpTo n (generated k) :=
  fun _ hk => generated_injective hk ▸ h

namespace Context

variable {c c' : Context}

theorem issued_initial : Issued .initial := by
  intro t ht label hlabel
  simp only [initial, Arena.initial, Arena.builtin, List.mem_cons, List.not_mem_nil, or_false] at ht
  obtain rfl | rfl | rfl | rfl := ht <;> cases hlabel

theorem Issued.freshLabel (h : Issued c) : Issued c.freshLabel.2 := by
  intro t ht label hlabel
  obtain ⟨k, hk, rfl⟩ := h t ht label hlabel
  exact ⟨k, Nat.le_succ_of_le hk, rfl⟩

theorem Issued.addType (h : Issued c) (env : ScopeId) {t : Ty}
    (ht : ∀ label, t.arrayLabel? = some label → ∃ k ≤ c.labels, label = Symbol.generated k) :
    Issued (c.addType env t).2 := by
  intro t' ht'
  obtain hold | hnew := List.mem_append.mp (show t' ∈ c.types.types ++ [t] from ht')
  · exact h t' hold
  · rw [List.mem_singleton.mp hnew]
    exact ht

theorem Issued.setTable (h : Issued c) (target : Target) (t : Table) : Issued (c.setTable target t) := by
  have hset : ∀ (ty : TypeId) (u : Ty), u.arrayLabel? = none →
      Issued { c with types := c.types.set ty u } := by
    intro ty u hu t' ht' label hlabel
    obtain hold | rfl := List.mem_or_eq_of_mem_set (show t' ∈ c.types.types.set ty u from ht')
    · exact h t' hold label hlabel
    · rw [hu] at hlabel
      cases hlabel
  unfold Context.setTable
  split
  · exact h
  · split
    · exact hset _ _ rfl
    · exact h
  · split
    · exact hset _ _ rfl
    · exact h

theorem Issued.insert (h : Issued c) {target : Target} {r : Record} {what : String} {i : Nat}
    (hins : c.insert target r what = .ok (i, c')) : Issued c' := by
  obtain ⟨t, -, -, rfl⟩ := insert_eq_ok hins
  exact h.setTable target _

theorem Issued.layOutFields (h : Issued c) {ty : TypeId} {word : UInt32}
    (hlayout : c.layOutFields ty word = .ok c') : Issued c' := by
  obtain ⟨t, -, rfl⟩ := layOutFields_eq_ok hlayout
  exact h.setTable _ _

theorem Declared.issued {env : ScopeId} {rs : List Record} (h : Declared env c rs c') (hc : Issued c) :
    Issued c' := by
  induction h with
  | nil => exact hc
  | cons hins _ ih => exact ih (hc.insert hins)

end Context

theorem FunctionHead.enter_issued {f : FunctionHead} {env scope : ScopeId} {c c' : Context}
    (h : f.enter env c = .ok scope c') (hc : Issued c) : Issued c' := by
  obtain ⟨ty, result, params, -, -, -, hdeclared⟩ := FunctionHead.enter_eq_ok h
  exact hdeclared.issued hc.freshLabel

abbrev Context.Knows (c : Context) (label : String) : Prop := Symbol.UpTo c.labels label

def Context.Has (c : Context) : Mention → Prop
  | .label symbol => c.Knows symbol
  | .scope env => env < c.scopes.length
  | .type id => id < c.types.size

theorem Context.Extends.has {c c' : Context} (h : Extends c c') {m : Mention} (hm : c.Has m) : c'.Has m := by
  cases m with
  | label symbol => exact Symbol.UpTo.mono hm h.labels
  | scope env => exact Nat.lt_of_lt_of_le hm h.length
  | type id => exact Nat.lt_of_lt_of_le hm h.size

theorem Context.lt_of_lookup {c : Context} {env owner : ScopeId} {name : String} {r : Record}
    (h : c.lookup env name = some (owner, r)) : owner < c.scopes.length := by
  obtain ⟨e, -, he⟩ := List.exists_of_findSome?_eq_some h
  obtain ⟨r', hget, heq⟩ := Option.map_eq_some_iff.mp he
  cases heq
  by_contra hge
  -- an index without a scope reads as an empty one
  rw [Context.scope, List.getElem?_eq_none (Nat.le_of_not_lt hge)] at hget
  cases hget

theorem Expr.check_held {e : Expr} {c : Context} {env : ScopeId} {value : Value}
    (h : e.check c env = .ok value) : ∀ m ∈ value.held, c.Has m := by
  cases Expr.check_eq_ok h with
  | literal | constant => exact List.forall_mem_nil _
  | stored hlookup => exact List.forall_mem_singleton.mpr (lt_of_lookup hlookup)
  | @new typeName =>
    exact List.forall_mem_singleton.mpr (Symbol.upTo_of_forall_ne (Symbol.struct_ne_generated typeName) _)

/-- A conversion is put around a value, or takes the place of a constant. -/
theorem Value.cast_held {types : Arena} {v w : Value} {target : TypeId} (h : v.cast types target = .ok w) :
    ∀ l ∈ w.held, l ∈ v.held := by
  cases v with
  | const lit source =>
    rw [Value.cast] at h
    split at h
    · cases h
      exact fun _ hl => hl
    · cases hcast : Value.castLiteral types lit source target with
      | error d => rw [hcast] at h; cases h
      | ok lit' =>
        rw [hcast] at h
        cases h
        exact fun _ hl => hl
  | var | new | converted =>
    simp only [Value.cast] at h
    split at h
    · cases h
      exact fun _ hl => hl
    · split at h
      · cases h
        exact fun _ hl => hl
      · cases h

variable {env : ScopeId} {target : Target} {c c' : Context}

theorem Variable.Recorded.issued {v : Variable} {declared : TypeId} {c₁ : Context} {r : Record}
    {kept : Option Value} (h : v.Recorded env declared c c₁ r kept) (hc : Issued c) : Issued c₁ := by
  cases h with
  | plain | computed => exact hc
  | defaulted | constant => exact hc.addType env (by nofun)

theorem Variable.Recorded.held {v : Variable} {declared : TypeId} {c₁ : Context} {r : Record}
    {kept : Option Value} (h : v.Recorded env declared c c₁ r kept) :
    ∀ m ∈ (kept.map Value.held).getD [], c.Has m := by
  cases h with
  | plain | defaulted | constant => exact List.forall_mem_nil _
  | computed hvalue =>
    obtain ⟨init, checked, -, hcheck, hcast⟩ := hvalue
    exact fun m hm => Expr.check_held hcheck m (Value.cast_held hcast m hm)

theorem Variable.register_issued {v v' : Variable} (h : v.register env target c = .ok v' c')
    (hc : Issued c) : Issued c' := by
  cases hnew : v.registration with
  | none =>
    obtain ⟨declared, c₁, r, kept, i, -, hrec, hins, -⟩ := Variable.register_eq_ok hnew h
    exact (hrec.issued hc).insert hins
  | some r =>
    obtain ⟨rfl, rfl⟩ := Variable.register_of_registered hnew h
    exact hc

theorem ArrayDecl.register_issued {v v' : ArrayDecl} (h : v.register env target c = .ok v' c')
    (hc : Issued c) : Issued c' := by
  obtain ⟨element, sizes, i, -, -, hins, -⟩ := ArrayDecl.register_eq_ok h
  refine (hc.freshLabel.addType env ?_).insert hins
  intro label hlabel
  cases hlabel
  exact ⟨_, Nat.le_refl _, rfl⟩

theorem Decl.Entered.issued {ds ds' : List Decl} (h : Decl.Entered env target c ds c' ds')
    (hc : Issued c) : Issued c' := by
  induction h with
  | nil => exact hc
  | var h _ ih => exact ih (Variable.register_issued h hc)
  | array h _ ih => exact ih (ArrayDecl.register_issued h hc)
  | data h _ ih =>
    obtain ⟨text, rfl, -⟩ | ⟨lit, -, -, rfl, -⟩ := DataItem.register_eq_ok h
    · exact ih hc.freshLabel
    · exact ih hc
  | struct h _ ih =>
    obtain ⟨i, hins, -⟩ := StructHead.register_eq_ok h
    exact ih ((hc.addType _ (by nofun)).insert hins)
  | function _ _ hins _ ihparams ih => exact ih ((ihparams (hc.addType _ (by nofun))).insert hins)

theorem Stmt.Accepted.issued {body body' : List Stmt} (h : Stmt.Accepted env c body c' body')
    (hc : Issued c) : Issued c' := by
  induction h with
  | nil => exact hc
  | leaf _ hd _ ih => exact ih (hd.issued hc)
  | struct hd _ hfields hlayout _ ih => exact ih ((hfields.issued (hd.issued hc)).layOutFields hlayout)
  | function hd henter _ _ ihbody ih => exact ih (ihbody (FunctionHead.enter_issued henter (hd.issued hc)))
  | block _ _ ihbody ih => exact ih (ihbody hc)
  | goto _ ih => exact ih hc
  | label h _ ih =>
    unfold placeLabel at h
    split at h
    · cases h
    · cases h
      exact ih hc
  | eval _ _ ih => exact ih hc

theorem Decl.Accepted.issued {ds ds' : List Decl} (h : Decl.Accepted env c ds c' ds')
    (hc : Issued c) : Issued c' := by
  induction h with
  | nil => exact hc
  | leaf _ _ ih => exact ih hc
  | struct _ hfields hlayout _ ih => exact ih ((hfields.issued hc).layOutFields hlayout)
  | function henter hbody _ ih => exact ih (hbody.issued (FunctionHead.enter_issued henter hc))

theorem Variable.register_held {v v' : Variable} {site : Site} (h : v.register env target c = .ok v' c')
    (henv : env < c.scopes.length) (hv : ∀ m ∈ (Decl.var site v).held, c.Has m) :
    ∀ m ∈ (Decl.var site v').held, c'.Has m := by
  have hextends := (Variable.register_grows h).extends
  cases hnew : v.registration with
  | none =>
    obtain ⟨declared, c₁, r, kept, i, -, hrec, -, rfl⟩ := Variable.register_eq_ok hnew h
    rw [Decl.held]
    refine List.forall_mem_cons.mpr ⟨hextends.has (m := .scope env) henv, ?_⟩
    exact fun m hm => hextends.has (hrec.held m hm)
  | some r =>
    obtain ⟨rfl, rfl⟩ := Variable.register_of_registered hnew h
    exact hv

theorem ArrayDecl.register_held {v v' : ArrayDecl} {site : Site} (h : v.register env target c = .ok v' c') :
    ∀ m ∈ (Decl.array site v').held, c'.Has m := by
  obtain ⟨element, sizes, i, -, -, hins, rfl⟩ := ArrayDecl.register_eq_ok h
  rw [Decl.held]
  refine List.forall_mem_singleton.mpr ((extends_insert hins).has (m := .type _) ?_)
  change _ < (Context.addType _ _ _).2.types.size
  simp

theorem StructHead.register_held {h h' : StructHead} (hreg : h.register env target c = .ok h' c') :
    ∀ ty, h'.ty = some ty → ty < c'.types.size := by
  obtain ⟨i, hins, rfl⟩ := StructHead.register_eq_ok hreg
  intro ty hty
  cases hty
  refine Nat.lt_of_lt_of_le ?_ (extends_insert hins).size
  simp

theorem DataItem.register_held {d d' : DataItem} {site : Site} (h : d.register env c = .ok d' c') :
    ∀ m ∈ (Decl.data site d').held, c'.Has m := by
  obtain ⟨text, rfl, rfl⟩ | ⟨lit, -, -, rfl, rfl⟩ := DataItem.register_eq_ok h
  · exact List.forall_mem_singleton.mpr (Symbol.upTo_generated (Nat.le_refl _))
  · exact List.forall_mem_nil _

/-- What a declaration and those after it hold is there, if the contexts grow from one to the next. -/
theorem Decl.held_cons {c₁ : Context} {d d' : Decl} {ds ds' : List Decl} (h : Extends c c₁) (h' : Extends c₁ c')
    (hd : (∀ m ∈ d.held, c.Has m) → ∀ m ∈ d'.held, c₁.Has m)
    (hds : (∀ d ∈ ds, ∀ m ∈ d.held, c₁.Has m) → ∀ d ∈ ds', ∀ m ∈ d.held, c'.Has m)
    (hall : ∀ x ∈ d :: ds, ∀ m ∈ x.held, c.Has m) : ∀ x ∈ d' :: ds', ∀ m ∈ x.held, c'.Has m := by
  obtain ⟨hfirst, hrest⟩ := List.forall_mem_cons.mp hall
  refine List.forall_mem_cons.mpr ⟨fun m hm => h'.has (hd hfirst m hm), hds ?_⟩
  exact fun x hx m hm => h.has (hrest x hx m hm)

theorem Context.Extends.lt_length (h : Extends c c') (henv : env < c.scopes.length) : env < c'.scopes.length :=
  Nat.lt_of_lt_of_le henv h.length

/-- Registration leaves nothing in the declarations but what the context has then. -/
theorem Decl.Entered.held {ds ds' : List Decl} (h : Decl.Entered env target c ds c' ds')
    (henv : env < c.scopes.length) :
    (∀ d ∈ ds, ∀ m ∈ d.held, c.Has m) → ∀ d ∈ ds', ∀ m ∈ d.held, c'.Has m := by
  induction h with
  | nil => exact id
  | var h rest ih =>
    have hextends := (Variable.register_grows h).extends
    exact Decl.held_cons hextends rest.extends (Variable.register_held h henv) (ih (hextends.lt_length henv))
  | array h rest ih =>
    have hextends := (ArrayDecl.register_grows h).extends
    exact Decl.held_cons hextends rest.extends (fun _ => ArrayDecl.register_held h) (ih (hextends.lt_length henv))
  | data h rest ih =>
    have hextends := (DataItem.register_grows h).extends
    exact Decl.held_cons hextends rest.extends (fun _ => DataItem.register_held h) (ih (hextends.lt_length henv))
  | struct h rest ih =>
    have hextends := (StructHead.register_grows h).extends
    refine Decl.held_cons hextends rest.extends (fun hd => ?_) (ih (hextends.lt_length henv))
    rw [Decl.held, List.forall_mem_append] at hd ⊢
    refine ⟨?_, fun m hm => hextends.has (hd.2 m hm)⟩
    intro m hm
    obtain ⟨ty, hty, rfl⟩ := List.mem_map.mp hm
    exact StructHead.register_held h ty (Option.mem_toList.mp hty)
  | function hresult hparams hins rest _ ih =>
    have hextends := (extends_addType _ _ _).trans (hparams.extends.trans (extends_insert hins))
    refine Decl.held_cons hextends rest.extends (fun hd m hm => ?_) (ih (hextends.lt_length henv))
    rw [Decl.held] at hm hd
    exact hextends.has (hd m hm)

theorem DeclList.register_held {fields fields' : DeclList}
    (h : Decl.Entered env target c fields.inOrder c' fields'.inOrder) (henv : env < c.scopes.length)
    (hfields : ∀ m ∈ DeclList.held fields, c.Has m) : ∀ m ∈ DeclList.held fields', c'.Has m := by
  have hin : ∀ d ∈ fields.inOrder, ∀ m ∈ d.held, c.Has m := DeclList.forall_mem_inOrder.mpr
    fun d hd m hm => hfields m (DeclList.mem_held.mpr ⟨d, hd, hm⟩)
  intro m hm
  obtain ⟨d, hd, hm⟩ := DeclList.mem_held.mp hm
  exact DeclList.forall_mem_inOrder.mp (h.held henv hin) d hd m hm

theorem Stmt.held_cons {c₁ : Context} {stmt stmt' : Stmt} {rest rest' : List Stmt} (h : Extends c c₁)
    (h' : Extends c₁ c') (hstmt : (∀ m ∈ stmt.held, c.Has m) → ∀ m ∈ stmt'.held, c₁.Has m)
    (hrest : (∀ m ∈ Stmt.heldByAll rest, c₁.Has m) → ∀ m ∈ Stmt.heldByAll rest', c'.Has m)
    (hall : ∀ m ∈ Stmt.heldByAll (stmt :: rest), c.Has m) :
    ∀ m ∈ Stmt.heldByAll (stmt' :: rest'), c'.Has m := by
  rw [Stmt.heldByAll, List.forall_mem_append] at hall ⊢
  refine ⟨fun m hm => h'.has (hstmt hall.1 m hm), hrest ?_⟩
  exact fun m hm => h.has (hall.2 m hm)

/-- So does the check of a body. -/
theorem Stmt.Accepted.held {body body' : List Stmt} (h : Stmt.Accepted env c body c' body')
    (henv : env < c.scopes.length) :
    (∀ m ∈ Stmt.heldByAll body, c.Has m) → ∀ m ∈ Stmt.heldByAll body', c'.Has m := by
  induction h with
  | nil => exact id
  | leaf _ hd hrest ih =>
    refine Stmt.held_cons hd.extends hrest.extends (fun hold => ?_) (ih (hd.extends.lt_length henv))
    rw [Stmt.held] at hold ⊢
    exact hd.held henv (List.forall_mem_singleton.mpr hold) _ List.mem_cons_self
  | struct hd hty hfields hlayout hrest ih =>
    have hlaid := hfields.extends.trans (extends_layOutFields hlayout)
    have hextends := hd.extends.trans hlaid
    refine Stmt.held_cons hextends hrest.extends (fun hold => ?_) (ih (hextends.lt_length henv))
    rw [Stmt.held] at hold
    have hentered := hd.held henv (List.forall_mem_singleton.mpr hold) _ List.mem_cons_self
    rw [Stmt.held]
    rw [Decl.held, List.forall_mem_append] at hentered ⊢
    refine ⟨fun m hm => hlaid.has (hentered.1 m hm), fun m hm => (extends_layOutFields hlayout).has ?_⟩
    exact DeclList.register_held hfields (hd.extends.lt_length henv) hentered.2 m hm
  | function hd henter hbody hrest ihbody ih =>
    have hentered := hd.extends.trans (FunctionHead.enter_extends henter)
    have hextends := hentered.trans hbody.extends
    have hscope := FunctionHead.enter_lt_length henter
    refine Stmt.held_cons hextends hrest.extends (fun hold => ?_) (ih (hextends.lt_length henv))
    rw [Stmt.held, Decl.held, List.forall_mem_append] at hold ⊢
    -- from now on the head holds the scope that was opened for it
    refine ⟨List.forall_mem_singleton.mpr (hbody.extends.lt_length hscope), ihbody hscope ?_⟩
    exact fun m hm => hentered.has (hold.2 m hm)
  | @block env c _ _ _ _ _ _ _ hbody hrest ihbody ih =>
    have hopen := extends_openBlock c env
    have hextends := hopen.trans hbody.extends
    refine Stmt.held_cons hextends hrest.extends (fun hold => ?_) (ih (hextends.lt_length henv))
    rw [Stmt.held] at hold ⊢
    refine ihbody ?_ fun m hm => hopen.has (hold m hm)
    simp [openBlock, Context.modifyScope]
  | @goto env c _ label span _ _ _ hrest ih =>
    have hextends := extends_noteJump c env label span
    refine Stmt.held_cons hextends hrest.extends (fun _ => ?_) (ih (hextends.lt_length henv))
    rw [Stmt.held]
    exact List.forall_mem_singleton.mpr (hextends.lt_length henv)
  | label h hrest ih =>
    have hextends := extends_placeLabel h
    refine Stmt.held_cons hextends hrest.extends (fun _ => ?_) (ih (hextends.lt_length henv))
    rw [Stmt.held]
    exact List.forall_mem_singleton.mpr (hextends.lt_length henv)
  | eval h hrest ih =>
    refine Stmt.held_cons (.refl _) hrest.extends (fun _ m hm => ?_) (ih henv)
    rw [Stmt.held] at hm
    exact Expr.check_held h m hm

/-- A check leaves nothing in the declarations but what the context has then. -/
theorem Decl.Accepted.held {ds ds' : List Decl} (h : Decl.Accepted env c ds c' ds')
    (henv : env < c.scopes.length) :
    (∀ d ∈ ds, ∀ m ∈ d.held, c.Has m) → ∀ d ∈ ds', ∀ m ∈ d.held, c'.Has m := by
  induction h with
  | nil => exact id
  | leaf _ rest ih => exact Decl.held_cons (.refl _) rest.extends id (ih henv)
  | struct _ hfields hlayout rest ih =>
    have hextends := hfields.extends.trans (extends_layOutFields hlayout)
    refine Decl.held_cons hextends rest.extends (fun hold => ?_) (ih (hextends.lt_length henv))
    rw [Decl.held, List.forall_mem_append] at hold ⊢
    refine ⟨fun m hm => hextends.has (hold.1 m hm), fun m hm => (extends_layOutFields hlayout).has ?_⟩
    exact DeclList.register_held hfields henv hold.2 m hm
  | function henter hbody rest ih =>
    have hentered := FunctionHead.enter_extends henter
    have hextends := hentered.trans hbody.extends
    have hscope := FunctionHead.enter_lt_length henter
    refine Decl.held_cons hextends rest.extends (fun hold => ?_) (ih (hextends.lt_length henv))
    rw [Decl.held, List.forall_mem_append] at hold ⊢
    refine ⟨List.forall_mem_singleton.mpr (hbody.extends.lt_length hscope), hbody.held hscope ?_⟩
    exact fun m hm => hentered.has (hold.2 m hm)

/-- In a checked program everything that is held is there, and the labels of the array types have been given
out. -/
theorem DeclList.issued {program registered checked : DeclList} {final : Context}
    (hfresh : DeclList.areFresh program = true)
    (hregister : Decl.Entered root (.scope root) .initial program.inOrder c registered.inOrder)
    (hcheck : Decl.Accepted root c (registered.filterMap id) final (checked.filterMap id)) :
    Issued final ∧ ∀ m ∈ DeclList.held checked, final.Has m := by
  have hnone : ∀ m ∈ DeclList.held program, Context.initial.Has m := by
    rw [DeclList.held_of_areFresh hfresh]
    exact List.forall_mem_nil _
  have hroot : root < Context.initial.scopes.length := by decide
  have hheld := DeclList.register_held hregister hroot hnone
  refine ⟨hcheck.issued (hregister.issued issued_initial), fun m hm => ?_⟩
  obtain ⟨d, hd, hm⟩ := DeclList.mem_held.mp hm
  exact hcheck.held (hregister.extends.lt_length hroot)
    (fun d hd m hm => hheld m (DeclList.mem_held.mpr ⟨d, hd, hm⟩)) d hd m hm

end UnitCompiler
