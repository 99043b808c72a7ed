import UnitCompiler.Proofs.FlatContext

namespace UnitCompiler

open Context

def TypeId.ofStruct (names : List String) (name : String) : TypeId :=
  Arena.builtin.length + names.idxOf name

def Record.ofStruct (names : List String) (name : String) : Record where
  name := name
  ty := TypeId.ofStruct names name
  kind := .struct

/-- A new context in which structs of the given names have been declared, and nothing else. -/
def Context.withStructs (names : List String) : Context where
  types := ⟨Arena.builtin ++ names.map fun name => .struct name .empty⟩
  scopes := [{ Scope.unit with
    decls := ⟨names.map (Record.ofStruct names)⟩
    types := names.map (TypeId.ofStruct names) }]
  labels := 0

section Declare

variable {names : List String} {name : String}

@[simp] theorem Context.withStructs_nil : withStructs [] = .initial := rfl

@[simp] theorem Context.size_withStructs (names : List String) :
    (withStructs names).types.size = Arena.builtin.length + names.length := by
  simp [withStructs, Arena.size]

theorem TypeId.ofStruct_append (h : name ∈ names) (more : List String) :
    TypeId.ofStruct (names ++ more) name = TypeId.ofStruct names name := by
  rw [ofStruct, ofStruct, List.idxOf_append_of_mem h]

theorem TypeId.ofStruct_concat (h : name ∉ names) :
    TypeId.ofStruct (names ++ [name]) name = (withStructs names).types.size := by
  simp [ofStruct, List.idxOf_append_of_notMem h]

@[simp] theorem Context.get?_withStructs (names : List String) (name : String) :
    ((withStructs names).scope root).decls.get? name =
      if name ∈ names then some (Record.ofStruct names name) else none := by
  change (names.map (Record.ofStruct names)).find? (fun r => r.name == name) = _
  have hfind : names.find? (fun n => n == name) = if name ∈ names then some name else none := by
    cases hn : names.find? (fun n => n == name) with
    | none =>
      rw [if_neg]
      intro hmem
      exact List.find?_eq_none.mp hn name hmem (beq_self_eq_true name)
    | some n =>
      obtain rfl : n = name := beq_iff_eq.mp (List.find?_some (p := fun n => n == name) hn)
      rw [if_pos (List.mem_of_find?_eq_some hn)]
  rw [List.find?_map, show (fun r : Record => r.name == name) ∘ Record.ofStruct names = fun n => n == name from rfl,
    hfind]
  split <;> rfl

@[simp] theorem Context.contains_withStructs (names : List String) (name : String) :
    ((withStructs names).scope root).decls.contains name = decide (name ∈ names) := by
  rw [show ∀ t : Table, t.contains name = (t.get? name).isSome from fun t => List.isSome_find?.symm,
    get?_withStructs]
  split <;> simp_all

/-- A name that is not there yet is declared behind the others. -/
theorem Context.insert_withStructs (h : name ∉ names) :
    ((withStructs names).addType root (.struct name .empty)).2.insert (.scope root)
      { name := name, ty := (withStructs names).types.size, kind := .struct } "identifier" =
        .ok (names.length, withStructs (names ++ [name])) := by
  -- a new name goes to the end, so the names before it keep their types
  have hrecords : (names ++ [name]).map (Record.ofStruct (names ++ [name])) =
      names.map (Record.ofStruct names) ++
        [{ name := name, ty := (withStructs names).types.size, kind := .struct }] := by
    rw [List.map_append, List.map_singleton, Record.ofStruct, TypeId.ofStruct_concat h]
    congr 1
    refine List.map_congr_left fun n hn => ?_
    rw [Record.ofStruct, Record.ofStruct, TypeId.ofStruct_append hn]
  have htypes : (names ++ [name]).map (TypeId.ofStruct (names ++ [name])) =
      names.map (TypeId.ofStruct names) ++ [(withStructs names).types.size] := by
    rw [List.map_append, List.map_singleton, TypeId.ofStruct_concat h]
    congr 1
    exact List.map_congr_left fun n hn => TypeId.ofStruct_append hn _
  have hnew : Table.contains ⟨names.map (Record.ofStruct names)⟩ name = false :=
    (contains_withStructs names name).trans (decide_eq_false h)
  have hresult : withStructs (names ++ [name]) =
      { types := ⟨Arena.builtin ++ names.map (fun name => .struct name .empty) ++ [.struct name .empty]⟩
        scopes := [{ Scope.unit with
          decls := ⟨names.map (Record.ofStruct names) ++
            [{ name := name, ty := (withStructs names).types.size, kind := .struct }]⟩
          types := names.map (TypeId.ofStruct names) ++ [(withStructs names).types.size] }]
        labels := 0 } := by
    rw [withStructs, hrecords, htypes, List.map_append, List.append_assoc]
    rfl
  have htable : ((withStructs names).addType root (.struct name .empty)).2.table? (.scope root) =
      some ⟨names.map (Record.ofStruct names)⟩ := rfl
  rw [hresult]
  unfold Context.insert
  simp only [htable, Table.insert, hnew, Bool.false_eq_true, if_false, Table.size, List.length_map]
  rfl

theorem Context.insert_withStructs_error (h : name ∈ names) (r : Record) (hr : r.name = name) (t : Ty) :
    ∃ e, ((withStructs names).addType root t).2.insert (.scope root) r "identifier" = .error e := by
  have hold : Table.contains ⟨names.map (Record.ofStruct names)⟩ r.name = true := by
    rw [hr]
    exact (contains_withStructs names name).trans (decide_eq_true h)
  have htable : ((withStructs names).addType root t).2.table? (.scope root) =
      some ⟨names.map (Record.ofStruct names)⟩ := rfl
  unfold Context.insert
  simp only [htable, Table.insert, hold, if_true]
  exact ⟨_, rfl⟩

theorem StructHead.register_run (head : StructHead) (env : ScopeId) (target : Target) (c : Context) :
    head.register env target c = match (c.addType env (.struct head.ident .empty)).2.insert target
        { name := head.ident, ty := c.types.size, kind := .struct } "identifier" with
      | .ok (_, c') => .ok { head with ty := some c.types.size } c'
      | .error d => .error d ((c.addType env (.struct head.ident .empty)).2.release c.types.mark) := by
  change (CheckM.insertOrRelease c.types.mark target { name := head.ident, ty := c.types.size, kind := .struct }
    "identifier" >>= fun _ => pure { head with ty := some c.types.size } : CheckM StructHead)
      (c.addType env (.struct head.ident .empty)).2 = _
  cases hins : (c.addType env (.struct head.ident .empty)).2.insert target
      { name := head.ident, ty := c.types.size, kind := .struct } "identifier" with
  | ok p => exact bind_of_ok _ (by rw [CheckM.insertOrRelease, hins])
  | error d => exact bind_of_error _ (by rw [CheckM.insertOrRelease, hins])

end Declare

def DeclList.select (structs : Bool) (seq : DeclList) : List Decl :=
  (seq.filterMap id).filter (·.isStruct = structs)

def DeclList.structNames (seq : DeclList) : List String :=
  (seq.select true).filterMap Decl.ident?

def Decl.typed (names : List String) : Decl → Decl
  | .struct site head fields => .struct site { head with ty := some (TypeId.ofStruct names head.ident) } fields
  | d => d

theorem Decl.typed_of_not_isStruct {d : Decl} (h : d.isStruct ≠ true) (names : List String) : d.typed names = d := by
  cases d with
  | struct => exact absurd rfl h
  | var | function | data | array => rfl

theorem Decl.register_withStructs (site : Site) (fields : List (Option Decl)) {head : StructHead}
    {names : List String} (h : head.ident ∉ names) {s : Session} (hs : s.context = withStructs names) :
    (Decl.struct site head fields).register root (.scope root) s =
      (⟨(Decl.struct site head fields).typed (names ++ [head.ident]), .ok ()⟩,
        { s with context := withStructs (names ++ [head.ident]) }) := by
  rw [Decl.register, Decl.typed, TypeId.ofStruct_concat h]
  refine Visited.leaf_of_ok ?_
  rw [hs, StructHead.register_run, insert_withStructs h]

theorem Decl.register_withStructs_error (site : Site) (fields : List (Option Decl)) {head : StructHead}
    {names : List String} (h : head.ident ∈ names) {s : Session} (hs : s.context = withStructs names) :
    ∃ e t, (Decl.struct site head fields).register root (.scope root) s =
      (⟨.struct site head fields, .error e⟩, t) := by
  obtain ⟨e, he⟩ := insert_withStructs_error h
    { name := head.ident, ty := (withStructs names).types.size, kind := .struct } rfl (.struct head.ident .empty)
  refine ⟨e, { s with context :=
    ((withStructs names).addType root (.struct head.ident .empty)).2.release (withStructs names).types.mark }, ?_⟩
  rw [Decl.register]
  refine Visited.leaf_of_error ?_
  rw [hs, StructHead.register_run, he]

theorem Decl.typed_append {site : Site} {head : StructHead} {fields : List (Option Decl)} {names : List String}
    (h : head.ident ∈ names) (more : List String) :
    (Decl.struct site head fields).typed (names ++ more) = (Decl.struct site head fields).typed names := by
  rw [Decl.typed, Decl.typed, TypeId.ofStruct_append h]

/-- The first sweep declares the structs of a sequence, unless two names are the same. -/
theorem DeclList.sweep_structs (seq : DeclList) {names : List String} (h : names.Nodup) (index : Nat) {s : Session}
    (hs : s.context = withStructs names) :
    ((names ++ seq.structNames).Nodup ∧ ∃ t, t.context = withStructs (names ++ seq.structNames) ∧
      DeclList.sweep true root (.scope root) index seq s =
        (⟨seq.map (Option.map (Decl.typed (names ++ seq.structNames))), .ok ()⟩, t)) ∨
    ¬ (names ++ seq.structNames).Nodup ∧
      ∃ e, (DeclList.sweep true root (.scope root) index seq s).1.outcome = .error e := by
  induction seq generalizing names index s with
  | nil =>
    rw [DeclList.sweep, show DeclList.structNames [] = [] from rfl, List.append_nil]
    exact Or.inl ⟨h, s, hs, rfl⟩
  | cons slot rest ih =>
    cases slot with
    | none =>
      rw [DeclList.sweep_none]
      obtain ⟨hnodup, t, ht, hrun⟩ | hfails := ih h (index + 1) hs
      · rw [hrun]
        exact Or.inl ⟨hnodup, t, ht, rfl⟩
      · exact Or.inr hfails
    | some d =>
      by_cases hd : d.isStruct = true
      · cases d with
        | var | function | data | array => cases hd
        | struct site head fields =>
          have hnames : names ++ DeclList.structNames (some (.struct site head fields) :: rest) =
              names ++ [head.ident] ++ DeclList.structNames rest :=
            List.append_cons names head.ident (DeclList.structNames rest)
          rw [hnames]
          -- the sweep goes on up to the first name that is there already
          by_cases hmem : head.ident ∈ names
          · obtain ⟨e, t, hvisit⟩ := Decl.register_withStructs_error site fields hmem
              (s := (Session.log (.visited .register index "struct") s).2) hs
            rw [DeclList.sweep_visit hd root (.scope root) index rest hvisit]
            refine Or.inr ⟨fun hnodup => ?_, _, rfl⟩
            exact (List.nodup_append.mp hnodup.of_append_left).2.2 _ hmem _ List.mem_cons_self rfl
          · have hvisit := Decl.register_withStructs site fields hmem
              (s := (Session.log (.visited .register index "struct") s).2) hs
            have hnodup : (names ++ [head.ident]).Nodup :=
              List.nodup_append.mpr ⟨h, List.nodup_singleton _, fun a ha b hb heq => hmem ?_⟩
            rw [DeclList.sweep_visit hd root (.scope root) index rest hvisit]
            obtain ⟨hall, t, ht, hrun⟩ | hfails := ih hnodup (index + 1) (s := { (Session.log (.visited .register
              index "struct") s).2 with context := withStructs (names ++ [head.ident]) }) rfl
            · refine Or.inl ⟨hall, t, ht, ?_⟩
              dsimp only
              rw [hrun, List.map_cons, Option.map_some,
                Decl.typed_append (List.mem_append_right _ List.mem_cons_self)]
            · exact Or.inr hfails
            · rwa [← List.mem_singleton.mp hb, ← heq]
      · have hnames : DeclList.structNames (some d :: rest) = DeclList.structNames rest := by
          simp [structNames, select, hd]
        rw [hnames, DeclList.sweep_pass hd]
        obtain ⟨hnodup, t, ht, hrun⟩ | hfails := ih h (index + 1) hs
        · rw [hrun, List.map_cons, Option.map_some, Decl.typed_of_not_isStruct hd]
          exact Or.inl ⟨hnodup, t, ht, rfl⟩
        · exact Or.inr hfails

section Rearrange

variable {names names' : List String}

theorem Context.flat_withStructs (h : names.Nodup) : Flat (withStructs names) := by
  have hsound : Sound (withStructs names) ∧ Issued (withStructs names) := by
    induction names using List.reverseRecOn with
    | nil => exact ⟨sound_initial, issued_initial⟩
    | append_singleton names name ih =>
      obtain ⟨hnames, -, hnew⟩ := List.nodup_append.mp h
      obtain ⟨hsound, hissued⟩ := ih hnames
      have hins := insert_withStructs fun hmem => hnew name hmem name List.mem_cons_self rfl
      refine ⟨hsound.insertNew Nat.one_pos (fun _ h => Target.noConfusion h) ?_ hins,
        (hissued.addType root (by nofun)).insert hins⟩
      exact List.forall_mem_nil _
  exact ⟨hsound.1, hsound.2, rfl, rfl, rfl⟩

def TypeId.restruct (names names' : List String) (id : TypeId) : TypeId :=
  if id < Arena.builtin.length then id
  else (names[id - Arena.builtin.length]?.map (TypeId.ofStruct names')).getD id

theorem TypeId.restruct_ofStruct {name : String} (h : name ∈ names) :
    TypeId.restruct names names' (TypeId.ofStruct names name) = TypeId.ofStruct names' name := by
  have hle : ¬ TypeId.ofStruct names name < Arena.builtin.length := Nat.not_lt.mpr (Nat.le_add_right _ _)
  rw [restruct, if_neg hle, TypeId.ofStruct, Nat.add_sub_cancel_left, List.getElem?_idxOf h]
  rfl

theorem TypeId.restruct_restruct (h : names.Nodup) (hperm : names.Perm names') (id : TypeId) :
    TypeId.restruct names' names (TypeId.restruct names names' id) = id := by
  -- a built-in type, one behind the structs, or that of a struct
  by_cases hid : id < Arena.builtin.length
  · have hsame : ∀ ns ns', TypeId.restruct ns ns' id = id := fun _ _ => if_pos hid
    rw [hsame, hsame]
  · cases hname : names[id - Arena.builtin.length]? with
    | none =>
      have hnone : names'[id - Arena.builtin.length]? = none := by
        rw [List.getElem?_eq_none_iff] at hname ⊢
        rwa [← hperm.length_eq]
      have hsame : ∀ ns ns', ns[id - Arena.builtin.length]? = none → TypeId.restruct ns ns' id = id := by
        intro ns ns' hns
        rw [restruct, if_neg hid, hns]
        rfl
      rw [hsame _ _ hname, hsame _ _ hnone]
    | some name =>
      obtain ⟨hlt, rfl⟩ := List.getElem?_eq_some_iff.mp hname
      have hmem := hperm.mem_iff.mp (List.getElem_mem hlt)
      have hmove : TypeId.restruct names names' id = TypeId.ofStruct names' names[id - Arena.builtin.length] := by
        rw [restruct, if_neg hid, hname]
        rfl
      rw [hmove, restruct_ofStruct hmem, ofStruct, h.idxOf_getElem _ hlt]
      exact Nat.add_sub_cancel' (Nat.le_of_not_lt hid)

def Shift.ofStructs (h : names.Nodup) (hperm : names.Perm names') : Shift where
  floor := Arena.builtin.length + names.length
  perm :=
    { toFun := TypeId.restruct names names'
      invFun := TypeId.restruct names' names
      left_inv := TypeId.restruct_restruct h hperm
      right_inv := TypeId.restruct_restruct (hperm.nodup_iff.mp h) hperm.symm }
  types := 0
  scopes := 0
  issued := 0
  labels := 0
  fixed id hid := by
    change TypeId.restruct names names' id = id
    unfold TypeId.restruct
    split
    · rfl
    · rename_i hge
      have hnone : names[id - Arena.builtin.length]? = none := by
        rw [List.getElem?_eq_none_iff]
        exact Nat.le_sub_of_add_le' (hid.resolve_left hge)
      rw [hnone]
      rfl

theorem Shift.ofStructs_ty (h : names.Nodup) (hperm : names.Perm names') {name : String} (hname : name ∈ names) :
    (Shift.ofStructs h hperm).ty (TypeId.ofStruct names name) = TypeId.ofStruct names' name := by
  rw [Shift.ty_of_lt]
  · exact TypeId.restruct_ofStruct hname
  · exact Nat.add_lt_add_left (List.idxOf_lt_length_of_mem hname) _

/-- A type is built in, or it is that of a struct. -/
theorem Context.get?_types_withStructs {id : TypeId} {t : Ty} (hnodup : names.Nodup)
    (h : (withStructs names).types.get? id = some t) :
    id < Arena.builtin.length ∧ Arena.builtin[id]? = some t ∨
      ∃ name ∈ names, id = TypeId.ofStruct names name ∧ t = .struct name .empty := by
  change (Arena.builtin ++ names.map fun name => Ty.struct name .empty)[id]? = some t at h
  by_cases hid : id < Arena.builtin.length
  · rw [List.getElem?_append_left hid] at h
    exact Or.inl ⟨hid, h⟩
  · rw [List.getElem?_append_right (Nat.le_of_not_lt hid), List.getElem?_map] at h
    obtain ⟨name, hname, rfl⟩ := Option.map_eq_some_iff.mp h
    obtain ⟨hlt, rfl⟩ := List.getElem?_eq_some_iff.mp hname
    refine Or.inr ⟨_, List.getElem_mem hlt, ?_, rfl⟩
    rw [TypeId.ofStruct, hnodup.idxOf_getElem _ hlt]
    exact (Nat.add_sub_cancel' (Nat.le_of_not_lt hid)).symm

theorem Context.get?_ofStruct {name : String} (h : name ∈ names) :
    (withStructs names).types.get? (TypeId.ofStruct names name) = some (.struct name .empty) := by
  change (Arena.builtin ++ names.map fun name => Ty.struct name .empty)[TypeId.ofStruct names name]? = _
  rw [TypeId.ofStruct, List.getElem?_append_right (Nat.le_add_right _ _), Nat.add_sub_cancel_left, List.getElem?_map,
    List.getElem?_idxOf h]
  rfl

theorem Context.image_withStructs (h : names.Nodup) (hperm : names.Perm names') (live : TypeId → Prop) :
    Image (Shift.ofStructs h hperm) live (withStructs names) (withStructs names') := by
  refine (flat_withStructs h).image _ ?_ Nat.one_pos rfl rfl rfl ?_
  · intro id t ht
    obtain ⟨hid, hbuiltin⟩ | ⟨name, hname, rfl, rfl⟩ := get?_types_withStructs h ht
    · have hsame : (Shift.ofStructs h hperm).ty id = id := by
        rw [Shift.ty_of_lt (Nat.lt_of_lt_of_le hid (Nat.le_add_right _ _))]
        exact (Shift.ofStructs h hperm).fixed id (Or.inl hid)
      rw [hsame]
      refine ⟨t, ?_, ?_⟩
      · change (Arena.builtin ++ names'.map fun name => Ty.struct name .empty)[id]? = some t
        rw [List.getElem?_append_left hid, hbuiltin]
      · have hmem := List.mem_of_getElem? hbuiltin
        simp only [Arena.builtin, List.mem_cons, List.not_mem_nil, or_false] at hmem
        obtain rfl | rfl | rfl | rfl := hmem
        · exact .int
        · exact .float
        · exact .string
        · exact .struct fun _ => .nil
    · rw [Shift.ofStructs_ty h hperm hname]
      exact ⟨_, get?_ofStruct (hperm.mem_iff.mp hname), .struct fun _ => .nil⟩
  · intro name
    rw [get?_withStructs, get?_withStructs]
    by_cases hname : name ∈ names
    · rw [if_pos hname, if_pos (hperm.mem_iff.mp hname)]
      exact .some ⟨rfl, (Shift.ofStructs_ty h hperm hname).symm, rfl⟩
    · rw [if_neg hname, if_neg fun hmem => hname (hperm.mem_iff.mpr hmem)]
      exact .none

/-- What follows may be registered in both contexts alike. -/
theorem Context.mirror_withStructs (h : names.Nodup) (hperm : names.Perm names') (own : Target → Prop) :
    Mirror (Shift.ofStructs h hperm) own (withStructs names') (withStructs names) (withStructs names') :=
  { image_withStructs h hperm _ with
    builtin := Nat.le_add_right _ _
    base := by
      rw [size_withStructs, ← hperm.length_eq]
      rfl
    baseScopes := rfl
    baseLabels := rfl
    floor := Nat.le_of_eq (size_withStructs names).symm
    size := by
      rw [size_withStructs, size_withStructs, ← hperm.length_eq]
      rfl
    length := rfl
    issued := Nat.le_refl _
    labels := rfl
    keeps := .refl _ _ }

end Rearrange

end UnitCompiler
