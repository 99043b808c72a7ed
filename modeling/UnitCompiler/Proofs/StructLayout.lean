import UnitCompiler.Proofs.CheckedAlone
import UnitCompiler.Proofs.StructDescriptors

namespace UnitCompiler

open Context Emitter

mutual

/-- The structs that a declaration brings in, itself or in the statements of a function, each with its fields. -/
def Decl.structs : Decl → List (StructHead × List (Option Decl))
  | .struct _ head fields => [(head, fields)]
  | .function _ _ _ body => Stmt.structsOfAll body
  | .var _ _ | .data _ _ | .array _ _ => []

def Stmt.structs : Stmt → List (StructHead × List (Option Decl))
  | .declare d => Decl.structs d
  | .block body _ => Stmt.structsOfAll body
  | .goto _ _ _ | .label _ _ _ | .eval _ _ => []

def Stmt.structsOfAll : List Stmt → List (StructHead × List (Option Decl))
  | [] => []
  | stmt :: rest => Stmt.structs stmt ++ Stmt.structsOfAll rest

end

def DeclList.structs (program : DeclList) : List (StructHead × List (Option Decl)) :=
  (program.filterMap id).flatMap Decl.structs

theorem Decl.structs_of_isLeaf {d : Decl} (h : d.isLeaf = true) : d.structs = [] := by
  cases d with
  | var | data | array => rw [Decl.structs]
  | struct | function => cases h

/-- A struct as it is written and as its check left it. Its type is not below `floor`. -/
structure StructHead.Settled (c : Context) (floor : Nat) (x y : StructHead × List (Option Decl)) : Prop where
  ident : y.1.ident = x.1.ident
  type : ∃ ty, y.1.ty = some ty ∧ floor ≤ ty ∧ ty < c.types.size ∧
    ((∀ d ∈ x.2.filterMap id, d.isField = true) →
      ∃ table, LaidOut c ty x.1.ident (x.2.filterMap id) (y.2.filterMap id) table)

section Check

variable {env : ScopeId} {c c' : Context}

theorem StructHead.Settled.later {floor floor' : Nat} {x y : StructHead × List (Option Decl)}
    (h : StructHead.Settled c floor x y) (hext : Extends c c') (hfloor : floor' ≤ floor)
    (hkeep : ∀ ty, floor ≤ ty → ty < c.types.size → y.1.ty = some ty → c'.types.get? ty = c.types.get? ty) :
    StructHead.Settled c' floor' x y := by
  obtain ⟨ty, hty, hle, hlt, hlaid⟩ := h.type
  refine ⟨h.ident, ty, hty, Nat.le_trans hfloor hle, Nat.lt_of_lt_of_le hlt hext.size, fun hfields => ?_⟩
  obtain ⟨table, htable⟩ := hlaid hfields
  exact ⟨table, htable.later hext (hkeep ty hle hlt hty)⟩

theorem Decl.Entered.settled {ty : TypeId} {c₁ : Context} {head head' : StructHead} {fields fields' : DeclList}
    (hident : head'.ident = head.ident) (hty : head'.ty = some ty)
    (hget : c.types.get? ty = some (.struct head.ident .empty)) (hnames : Names c env head.ident ty)
    (hfields : Decl.Entered env (.fields ty) c fields.inOrder c₁ fields'.inOrder)
    (hlayout : c₁.layOutFields ty (UInt32.ofNat wordSize) = .ok c') :
    StructHead.Settled c' ty (head, fields) (head', fields') := by
  have hext := hfields.extends.trans (extends_layOutFields hlayout)
  exact ⟨hident, ty, hty, Nat.le_refl _, Nat.lt_of_lt_of_le (lt_size_of_get? hget) hext.size,
    hfields.laidOut hlayout hget hnames.structNamed?⟩

theorem Stmt.Accepted.settled {body body' : List Stmt} (h : Stmt.Accepted env c body c' body') {floor floor' : Nat}
    (hfloor : floor' ≤ floor) (x y : StructHead × List (Option Decl)) (hxy : StructHead.Settled c floor x y) :
    StructHead.Settled c' floor' x y :=
  hxy.later h.extends hfloor fun _ _ hlt _ => h.get?_types hlt

/-- The structs among the statements of a function are checked where they stand, and then left alone. -/
theorem Stmt.Accepted.structs {body body' : List Stmt} (h : Stmt.Accepted env c body c' body')
    (henv : env < c.scopes.length) :
    List.Forall₂ (StructHead.Settled c' c.types.size) (Stmt.structsOfAll body) (Stmt.structsOfAll body') := by
  induction h with
  | nil => exact .nil
  | leaf hleaf hd hrest ih =>
    have hext := hd.extends
    cases hd with
    | var | array | data =>
      exact (ih (hext.lt_length henv)).imp fun x y hxy => hxy.later (.refl _) hext.size fun _ _ _ _ => rfl
    | struct | function => cases hleaf
  | struct hd hty hfields hlayout hrest ih =>
    have hext := hd.extends.trans (hfields.extends.trans (extends_layOutFields hlayout))
    cases hd with
    | struct hregister hnil =>
      cases hnil
      have hnames := StructHead.register_named hregister henv
      obtain ⟨rfl, hget⟩ := StructHead.register_new hregister
      cases hty
      -- the struct is settled once its fields are laid out, and the rest leaves it alone
      refine .cons (hrest.settled (Nat.le_refl _) _ _ (Decl.Entered.settled rfl rfl hget hnames hfields hlayout)) ?_
      exact (ih (hext.lt_length henv)).imp fun x y hxy => hxy.later (.refl _) hext.size fun _ _ _ _ => rfl
  | function hd henter hbody hrest ihbody ih =>
    have hopen := hd.extends.trans (FunctionHead.enter_extends henter)
    have hext := hopen.trans hbody.extends
    exact List.rel_append ((ihbody (FunctionHead.enter_lt_length henter)).imp (hrest.settled hopen.size))
      ((ih (hext.lt_length henv)).imp fun x y hxy => hxy.later (.refl _) hext.size fun _ _ _ _ => rfl)
  | block hbody hrest ihbody ih =>
    have hext := (extends_openBlock _ _).trans hbody.extends
    obtain ⟨s, hs, -⟩ := exists_openBlock_scope henv
    exact List.rel_append ((ihbody (List.getElem?_eq_some_iff.mp hs).1).imp (hrest.settled (Nat.le_refl _)))
      ((ih (hext.lt_length henv)).imp fun x y hxy => hxy.later (.refl _) hext.size fun _ _ _ _ => rfl)
  | goto _ ih => exact ih ((extends_noteJump _ _ _ _).lt_length henv)
  | label hplace _ ih =>
    have hext := extends_placeLabel hplace
    obtain ⟨-, rfl⟩ := placeLabel_eq_ok hplace
    exact ih (hext.lt_length henv)
  | eval _ _ ih => exact ih henv

/-- Of declarations that are still to be checked, each struct has a type of its own, without fields as yet, that
the scope has under the name of the struct. -/
structure Decl.Queued (env : ScopeId) (c : Context) (ds : List Decl) : Prop where
  nodup : (ds.filterMap Decl.headType?).Nodup
  lt : ∀ ty ∈ ds.filterMap Decl.headType?, ty < c.types.size
  struct : ∀ site head fields ty, Decl.struct site head fields ∈ ds → head.ty = some ty →
    c.types.get? ty = some (.struct head.ident .empty) ∧ Names c env head.ident ty

theorem Decl.Queued.next {c₁ : Context} {d : Decl} {ds : List Decl} (h : Decl.Queued env c (d :: ds))
    (hext : Extends c c₁)
    (hkeep : ∀ ty ∈ ds.filterMap Decl.headType?, c₁.types.get? ty = c.types.get? ty) : Decl.Queued env c₁ ds := by
  refine ⟨(Decl.heads_nodup h.nodup).1, fun ty hty => ?_, fun site head fields ty hmem hty => ?_⟩
  · exact Nat.lt_of_lt_of_le (h.lt ty (Decl.mem_heads.mpr (Or.inr hty))) hext.size
  · obtain ⟨hget, hnames⟩ := h.struct site head fields ty (List.mem_cons_of_mem _ hmem) hty
    exact ⟨(hkeep ty (List.mem_filterMap.mpr ⟨_, hmem, hty⟩)).trans hget, hnames.extends hext⟩

/-- A check fills the tables of the structs that are checked, and changes no other type. -/
theorem Decl.Accepted.get?_types {ds ds' : List Decl} (h : Decl.Accepted env c ds c' ds') {ty : TypeId}
    (hlt : ty < c.types.size) (hne : ty ∉ ds.filterMap Decl.headType?) :
    c'.types.get? ty = c.types.get? ty := by
  induction h with
  | nil => rfl
  | leaf _ _ ih => exact ih hlt fun hmem => hne (Decl.mem_heads.mpr (Or.inr hmem))
  | struct hty hfields hlayout _ ih =>
    obtain ⟨hhere, hrest⟩ := not_or.mp (mt Decl.mem_heads.mpr hne)
    have havoids := Target.avoids_fields fun heq => hhere (hty.trans (congrArg some heq))
    have hext := hfields.extends.trans (extends_layOutFields hlayout)
    rw [ih (Nat.lt_of_lt_of_le hlt hext.size) hrest, get?_layOutFields_of_avoids hlayout havoids,
      hfields.get?_types hlt havoids]
  | function henter hbody _ ih =>
    have hopen := Nat.lt_of_lt_of_le hlt (FunctionHead.enter_extends henter).size
    rw [ih (Nat.lt_of_lt_of_le hopen hbody.extends.size) fun hmem => hne (Decl.mem_heads.mpr (Or.inr hmem)),
      hbody.get?_types hopen, FunctionHead.enter_types henter]

/-- Every struct of a program, at any depth, is settled by the check. -/
theorem Decl.Accepted.structs {ds ds' : List Decl} (h : Decl.Accepted env c ds c' ds')
    (hqueued : Decl.Queued env c ds) :
    List.Forall₂ (StructHead.Settled c' 0) (ds.flatMap Decl.structs) (ds'.flatMap Decl.structs) := by
  induction h with
  | nil => exact .nil
  | leaf hleaf _ ih =>
    rw [List.flatMap_cons, List.flatMap_cons, Decl.structs_of_isLeaf hleaf]
    exact ih (hqueued.next (.refl _) fun _ _ => rfl)
  | @struct c c₁ c₂ c' site head fields fields' ty ds ds' hty hfields hlayout hrest ih =>
    obtain ⟨hget, hnames⟩ := hqueued.struct site head fields ty List.mem_cons_self hty
    have hnew := (Decl.heads_nodup hqueued.nodup).2 (show (Decl.struct site head fields).headType? = some ty from hty)
    have hhere := Decl.Entered.settled rfl hty hget hnames hfields hlayout
    have hext := hfields.extends.trans (extends_layOutFields hlayout)
    refine .cons (hhere.later hrest.extends (Nat.zero_le _) fun ty' _ hlt hty' => ?_) (ih (hqueued.next hext ?_))
    · cases hty.symm.trans hty'
      exact hrest.get?_types hlt hnew
    · intro id hid
      have havoids := Target.avoids_fields fun heq : ty = id => hnew (heq ▸ hid)
      rw [get?_layOutFields_of_avoids hlayout havoids,
        hfields.get?_types (hqueued.lt id (Decl.mem_heads.mpr (Or.inr hid))) havoids]
  | function henter hbody hrest ih =>
    have hsize := (FunctionHead.enter_extends henter).size
    have hheads : ∀ ty ∈ _, ty < _ := fun ty hty => hqueued.lt ty (Decl.mem_heads.mpr (Or.inr hty))
    have hext := (FunctionHead.enter_extends henter).trans hbody.extends
    have hstructs := hbody.structs (FunctionHead.enter_lt_length henter)
    refine List.rel_append (hstructs.imp fun x y hxy => ?_) (ih (hqueued.next hext ?_))
    · -- the types of structs in the body are newer than those of the declarations to come
      refine hxy.later hrest.extends (Nat.zero_le _) fun ty hle hlt _ => hrest.get?_types hlt fun hmem => ?_
      exact absurd (hheads ty hmem) (Nat.not_lt.mpr (Nat.le_trans hsize hle))
    · intro id hid
      rw [hbody.get?_types (Nat.lt_of_lt_of_le (hheads id hid) hsize), FunctionHead.enter_types henter]

theorem Decl.Entered.structs_named {ds ds' : List Decl} (h : Decl.Entered env (.scope env) c ds c' ds')
    (henv : env < c.scopes.length) :
    ∀ site head fields ty, Decl.struct site head fields ∈ ds' → head.ty = some ty →
      c'.types.get? ty = some (.struct head.ident .empty) ∧ Names c' env head.ident ty := by
  generalize htarget : Target.scope env = target at h
  induction h with
  | nil =>
    intro site head fields ty hmem
    cases hmem
  | var hd _ ih =>
    have hrest := ih ((Variable.register_grows hd).extends.lt_length henv) htarget
    intro site head fields ty hmem
    cases hmem with
    | tail _ hmem => exact hrest site head fields ty hmem
  | array hd _ ih =>
    have hrest := ih ((ArrayDecl.register_grows hd).extends.lt_length henv) htarget
    intro site head fields ty hmem
    cases hmem with
    | tail _ hmem => exact hrest site head fields ty hmem
  | data hd _ ih =>
    have hrest := ih ((DataItem.register_grows hd).extends.lt_length henv) htarget
    intro site head fields ty hmem
    cases hmem with
    | tail _ hmem => exact hrest site head fields ty hmem
  | function _ hparams hins _ _ ih =>
    have hext := (extends_addType _ _ _).trans (hparams.extends.trans (extends_insert hins))
    intro site head fields ty hmem hty
    cases hmem with
    | tail _ hmem => exact ih (hext.lt_length henv) htarget site head fields ty hmem hty
  | struct hd hrest ih =>
    subst htarget
    intro site head fields ty hmem hty
    cases hmem with
    | tail _ hmem =>
      exact ih ((StructHead.register_grows hd).extends.lt_length henv) rfl site head fields ty hmem hty
    | head =>
      have hnames := StructHead.register_named hd henv
      obtain ⟨rfl, hget⟩ := StructHead.register_new hd
      cases hty
      -- what is registered after the struct adds types but does not touch its own
      refine ⟨?_, hnames.extends hrest.extends⟩
      rw [hrest.get?_types (lt_size_of_get? hget) (Target.avoids_scope _ _)]
      exact hget

theorem DeclList.register_queued {program registered : DeclList} {s t : Session}
    (h : program.register env (.scope env) s = (⟨registered, .ok ()⟩, t)) (henv : env < s.context.scopes.length) :
    Decl.Queued env t.context (registered.filterMap id) := by
  have hentered := DeclList.register_entered h
  have hperm := DeclList.inOrder_perm registered
  obtain ⟨hnodup, hbounds⟩ := hentered.headTypes
  refine ⟨(hperm.filterMap _).nodup_iff.mp hnodup, fun ty hty => ?_, fun site head fields ty hmem => ?_⟩
  · exact (hbounds ty ((hperm.filterMap _).mem_iff.mpr hty)).2
  · exact hentered.structs_named henv site head fields ty (hperm.mem_iff.mpr hmem)

end Check

section Register

def StructHead.text (x : StructHead × List (Option Decl)) : String × List (Option Decl) :=
  (x.1.ident, x.2)

theorem Decl.register_structs (d : Decl) (env : ScopeId) (target : Target) (s : Session) :
    ((d.register env target s).1.node.structs).map StructHead.text = d.structs.map StructHead.text := by
  generalize hnode : (d.register env target s).1.node = d'
  cases hnode ▸ d.register_enrolled env target s with
  | same | var | array | data | function => rfl
  | struct h =>
    obtain ⟨i, -, rfl⟩ := StructHead.register_eq_ok h
    rfl

theorem DeclList.register_structs (env : ScopeId) (target : Target) (program : DeclList) (s : Session) :
    (DeclList.structs (program.register env target s).1.node).map StructHead.text =
      (DeclList.structs program).map StructHead.text := by
  have hslots := DeclList.register_forall₂
    (R := fun d d' => d'.structs.map StructHead.text = d.structs.map StructHead.text)
    (fun _ => rfl) (fun d s => d.register_structs env target s) program s
  generalize (program.register env target s).1.node = registered at hslots
  unfold DeclList.structs
  induction hslots with
  | nil => rfl
  | cons hslot _ ih =>
    cases hslot with
    | none => exact ih
    | some hd =>
      simp only [List.filterMap_cons, id_eq, List.flatMap_cons, List.map_append, hd]
      exact congrArg _ ih

end Register

/-- The description of a struct in the output: the sentinels of two lists, the number of fields, and twice the
labels of the field types. -/
def StructHead.description (ident used free : String) (count : Int32) (labels : List String) : List Emission :=
  let head : List Emission := [.align 4, .word 5 (some ("_t" ++ ident)),
    .word 0 (some used), .pointer used, .pointer used, .word 0 none, .word (-1) none,
    .word 0 (some free), .pointer free, .pointer free, .word 0 none, .word (-1) none,
    .word count none]
  head ++ labels.map .pointer ++ labels.map .pointer

/-- The layout of a struct and its description in the output agree. The table has a record for each field, in the
order of the text and one word behind the other, with the type that it has where the name of the struct denotes the
struct. The output of the struct is that of its array types, then its own, with the labels of the types of the
records in the order of the table. -/
structure StructHead.Agrees (final : Context) (ident : String) (fields : List Decl) (head : StructHead)
    (checked : List (Option Decl)) (ty : TypeId) (table : Table) : Prop where
  type : head.ty = some ty
  get : final.types.get? ty = some (.struct ident table)
  declared : ∃ c env, Extends c final ∧ c.structNamed? env ident = some ty ∧
    List.Forall₂ (Decl.Declares final.types c env) fields table.records
  offset : ∀ i r, table.records[i]? = some r → ∃ o : UInt32, r.offset = some o ∧ o.toNat = 4 * i
  emitted : ∀ (site : Site) (t u : Emitter Listing), Relabels final t.context →
    (Decl.struct site head checked).emit t = .ok () u →
    ∃ (described : List (List Emission × String)) (used free : String) (count : Int32),
      List.Forall₂ (Record.Described final.types) table.records described ∧
      used = Symbol.generated (t.context.labels + 1) ∧ free = Symbol.generated (t.context.labels + 2) ∧
      used ≠ free ∧ count.toInt = fields.length ∧
      u.backend.items = t.backend.items ++ described.flatMap Prod.fst ++
        StructHead.description ident used free count (described.map Prod.snd)

theorem StructHead.Settled.agrees {final : Context} {x y : StructHead × List (Option Decl)}
    (htypes : final.types.Standard) (h : StructHead.Settled final 0 x y)
    (hfields : ∀ d ∈ x.2.filterMap id, d.isField = true) (hlength : (x.2.filterMap id).length < 2 ^ 30) :
    ∃ ty table, StructHead.Agrees final x.1.ident (x.2.filterMap id) y.1 y.2 ty table := by
  obtain ⟨ty, hty, -, -, hlaid⟩ := h.type
  obtain ⟨table, htable⟩ := hlaid hfields
  obtain ⟨c, env, hext, hnamed, hwritten, -⟩ := htable.declared
  have hsize : (x.2.filterMap id).length = table.records.length := hwritten.length_eq
  refine ⟨ty, table, hty, htable.get, ⟨c, env, hext, hnamed, hwritten⟩, fun i r hr => ?_, fun site t u ht hrun => ?_⟩
  · have hi : i < 2 ^ 30 := Nat.lt_trans (hsize ▸ (List.getElem?_eq_some_iff.mp hr).1) hlength
    refine ⟨_, htable.offset i r hr, ?_⟩
    rw [UInt32.toNat_mul, UInt32.toNat_ofNat', UInt32.toNat_ofNat', wordSize]
    omega
  · obtain ⟨described, hdescribed, hitems⟩ := Decl.emit_struct htypes hty htable ht hrun
    refine ⟨described, _, _, Int32.ofNat (x.2.filterMap id).length, hdescribed, rfl, rfl, ?_, ?_, ?_⟩
    · intro heq
      exact absurd (Symbol.generated_injective heq) (by omega)
    · exact Int32.toInt_ofNat_of_lt (Nat.lt_trans hlength (by decide))
    · rw [hitems, h.ident, StructHead.items, List.length_map, ← hdescribed.length_eq, ← hsize]
      rfl

/-- Struct layouts and descriptors agree. In a program that is registered and checked, from wherever the compiler
has come to, this holds of every struct at any depth whose fields are written as such. -/
theorem struct_layout_agrees {program registered checked : DeclList} {env : ScopeId} {s t t' u : Session}
    (hs : Moves .initial s.context) (henv : env < s.context.scopes.length)
    (hregister : program.register env (.scope env) s = (⟨registered, .ok ()⟩, t))
    (hcontext : t'.context = t.context) (hcheck : registered.check env t' = (⟨checked, .ok ()⟩, u)) :
    List.Forall₂ (fun x y => (∀ d ∈ x.2.filterMap id, d.isField = true) → (x.2.filterMap id).length < 2 ^ 30 →
        ∃ ty table, StructHead.Agrees u.context x.1.ident (x.2.filterMap id) y.1 y.2 ty table)
      (DeclList.structs program) (DeclList.structs checked) := by
  have hregistered : Moves .initial t'.context := by
    have hpass := hs.tail (.pass (.register s env (.scope env) program))
    rwa [hregister, ← hcontext] at hpass
  have henv' : env < t'.context.scopes.length :=
    hcontext ▸ Nat.lt_of_lt_of_le henv (DeclList.register_entered hregister).extends.length
  have htypes : u.context.types.Standard := by
    have hpass := hregistered.tail (.pass (.check t' henv' registered))
    rw [hcheck] at hpass
    exact (Moves.typed hpass).types
  have hsettled := (DeclList.checkFrom_accepted hcheck).structs (hcontext ▸ DeclList.register_queued hregister henv)
  -- registration changes neither the names nor the fields of the structs
  have htexts := DeclList.register_structs env (.scope env) program s
  rw [hregister] at htexts
  have hagrees : List.Forall₂ (fun x y =>
      (∀ d ∈ x.2.filterMap id, d.isField = true) → (x.2.filterMap id).length < 2 ^ 30 →
      ∃ ty table, StructHead.Agrees u.context x.1 (x.2.filterMap id) y.1 y.2 ty table)
      ((DeclList.structs registered).map StructHead.text) (DeclList.structs checked) :=
    List.forall₂_map_left_iff.mpr (hsettled.imp fun _ _ h => h.agrees htypes)
  rw [htexts] at hagrees
  exact List.forall₂_map_left_iff.mp hagrees

def linkedNodeFields : DeclList :=
  [some (.var {} { ident := "next", tag := .named "Node", kind := .field }), none,
    some (.array {} { ident := "slots", tag := .float, kind := .field, dims := [.literal (.int 3) {}] }),
    some (.var {} { ident := "key", tag := .string, kind := .field })]

def linkedNode : DeclList :=
  [some (.struct {} { ident := "Node" } linkedNodeFields)]

def linkedNodeRegistered : DeclList :=
  [some (.struct {} { ident := "Node", ty := some 4 } linkedNodeFields)]

def linkedNodeCheckedFields : DeclList :=
  [some (.var {} { ident := "next", tag := .named "Node", kind := .field, registration := some ⟨root, none⟩ }), none,
    some (.array {} { ident := "slots", tag := .float, kind := .field, dims := [.literal (.int 3) {}], ty := some 5 }),
    some (.var {} { ident := "key", tag := .string, kind := .field, registration := some ⟨root, none⟩ })]

def linkedNodeChecked : DeclList :=
  [some (.struct {} { ident := "Node", ty := some 4 } linkedNodeCheckedFields)]

theorem struct_layout_agrees_linkedNode :
    ∃ t u, linkedNode.register root (.scope root) {} = (⟨linkedNodeRegistered, .ok ()⟩, t) ∧
      linkedNodeRegistered.check root t = (⟨linkedNodeChecked, .ok ()⟩, u) ∧
      (∃ ty table, StructHead.Agrees u.context "Node" (linkedNodeFields.filterMap id)
        { ident := "Node", ty := some 4 } linkedNodeCheckedFields ty table) ∧
      EStateM.run' (do
          (Decl.struct {} { ident := "Node", ty := some 4 } linkedNodeCheckedFields).emit
          return (← get).backend.items.map Emission.text)
          { context := u.context, backend := Listing.empty false } =
        some ["\t.align 4", "_1:\t.word 6", "\t.word 4", "\t.ptr __bbFltType",
          "\t.align 4", "_tNode:\t.word 5",
          "_2:\t.word 0", "\t.ptr _2", "\t.ptr _2", "\t.word 0", "\t.word -1",
          "_3:\t.word 0", "\t.ptr _3", "\t.ptr _3", "\t.word 0", "\t.word -1", "\t.word 3",
          "\t.ptr _tNode", "\t.ptr _1", "\t.ptr __bbStrType",
          "\t.ptr _tNode", "\t.ptr _1", "\t.ptr __bbStrType"] := by
  have hregister : linkedNode.register root (.scope root) {} =
    (⟨linkedNodeRegistered, .ok ()⟩, (linkedNode.register root (.scope root) {}).2) := rfl
  have hcheck : linkedNodeRegistered.check root (linkedNode.register root (.scope root) {}).2 =
      (⟨linkedNodeChecked, .ok ()⟩,
        (linkedNodeRegistered.check root (linkedNode.register root (.scope root) {}).2).2) := rfl
  refine ⟨_, _, hregister, hcheck, ?_, ?_⟩
  · cases struct_layout_agrees .refl (by decide) hregister rfl hcheck with
    | cons hagrees _ => exact hagrees (by decide) (by decide)
  · decide +kernel

end UnitCompiler
