import UnitCompiler.Proofs.ClosedSymbols
import UnitCompiler.Proofs.CompiledItems

namespace UnitCompiler

open Context Emitter

/-- Items outside of functions, all with `out`, and whole functions, all with `func`, in some order. -/
inductive Woven (out : Emission → Prop)
    (func : String → Nat → List Emission → Option Ir → Nat → Prop) : List Emission → Prop
  | nil : Woven out func []
  | plain {e : Emission} {rest : List Emission} (hplain : e.isPlain = true) (hout : out e)
      (hrest : Woven out func rest) : Woven out func (e :: rest)
  | block {label : String} {size : Nat} {inside : List Emission} {teardown : Option Ir} {bytes : Nat}
      {rest : List Emission} (hplain : ∀ e ∈ inside, e.isPlain = true)
      (hfunc : func label size inside teardown bytes) (hrest : Woven out func rest) :
      Woven out func (.enter label size :: (inside ++ .leave teardown bytes :: rest))

namespace Woven

variable {out : Emission → Prop} {func : String → Nat → List Emission → Option Ir → Nat → Prop}
  {es es' : List Emission}

theorem of_plain (h : ∀ e ∈ es, e.isPlain = true ∧ out e) : Woven out func es := by
  induction es with
  | nil => exact .nil
  | cons e es ih =>
    obtain ⟨he, hes⟩ := List.forall_mem_cons.mp h
    exact .plain he.1 he.2 (ih hes)

theorem append (h : Woven out func es) (h' : Woven out func es') : Woven out func (es ++ es') := by
  induction h with
  | nil => exact h'
  | plain hplain hout _ ih => exact .plain hplain hout ih
  | block hplain hfunc _ ih =>
    rw [List.cons_append, List.append_assoc]
    exact .block hplain hfunc ih

theorem flatten {blocks : List (List Emission)} (h : ∀ es ∈ blocks, Woven out func es) :
    Woven out func blocks.flatten := by
  induction blocks with
  | nil => exact .nil
  | cons es blocks ih =>
    obtain ⟨hes, hblocks⟩ := List.forall_mem_cons.mp h
    exact hes.append (ih hblocks)

theorem foldlM_nest (h : Woven out func es) : es.foldlM Emission.nest false = some false := by
  induction h with
  | nil => rfl
  | plain hplain _ _ ih =>
    rw [List.foldlM_cons, Emission.nest_plain hplain]
    exact ih
  | block hplain _ _ ih =>
    change List.foldlM Emission.nest true _ = _
    rw [List.foldlM_append, foldlM_nest_plain hplain]
    exact ih

/-- What stands where no function is open is `out` or opens a function. -/
theorem outside (h : Woven out func es) {before later : List Emission} {e : Emission}
    (hes : es = before ++ e :: later) (hclosed : before.foldlM Emission.nest false = some false) :
    out e ∨ ∃ label size, e = .enter label size := by
  induction h generalizing before with
  | nil => simp at hes
  | plain hplain hout _ ih =>
    cases before with
    | nil =>
      obtain ⟨rfl, -⟩ := List.cons.inj hes
      exact Or.inl hout
    | cons x before =>
      obtain ⟨rfl, hrest⟩ := List.cons.inj hes
      rw [List.foldlM_cons, Emission.nest_plain hplain] at hclosed
      exact ih hrest hclosed
  | @block label size inside teardown bytes rest hplain _ _ ih =>
    cases before with
    | nil =>
      obtain ⟨rfl, -⟩ := List.cons.inj hes
      exact Or.inr ⟨label, size, rfl⟩
    | cons x before =>
      obtain ⟨rfl, hrest⟩ := List.cons.inj hes
      replace hclosed : before.foldlM Emission.nest true = some false := hclosed
      -- the function is still open unless its end is in `before` as well
      obtain ⟨mid, rfl, hmid⟩ | ⟨mid, rfl, hmid⟩ := List.append_eq_append_iff.mp hrest
      · cases mid with
        | nil =>
          rw [List.append_nil, foldlM_nest_plain hplain] at hclosed
          cases hclosed
        | cons y mid =>
          obtain ⟨rfl, hlater⟩ := List.cons.inj hmid
          rw [List.foldlM_append, foldlM_nest_plain hplain] at hclosed
          exact ih hlater hclosed
      · rw [foldlM_nest_plain fun e he => hplain e (List.mem_append_left _ he)] at hclosed
        cases hclosed

/-- Whatever stands between the start and the end of a function is that function. -/
theorem function (h : Woven out func es) {before inside later : List Emission} {label : String}
    {size bytes : Nat} {teardown : Option Ir}
    (hes : es = before ++ .enter label size :: (inside ++ .leave teardown bytes :: later))
    (hinside : ∀ e ∈ inside, e.isPlain = true) : func label size inside teardown bytes := by
  induction h generalizing before with
  | nil => simp at hes
  | plain hplain _ _ ih =>
    cases before with
    | nil =>
      obtain ⟨rfl, -⟩ := List.cons.inj hes
      cases hplain
    | cons x before => exact ih (List.cons.inj hes).2
  | @block label' size' inside' teardown' bytes' rest hplain hfunc _ ih =>
    cases before with
    | nil =>
      obtain ⟨hhead, hrest⟩ := List.cons.inj hes
      obtain ⟨rfl, rfl⟩ := Emission.enter.inj hhead
      -- the first end of a function after its beginning is its own, because only plain items stand between
      obtain ⟨mid, rfl, hmid⟩ | ⟨mid, rfl, hmid⟩ := List.append_eq_append_iff.mp hrest <;>
        cases mid with
        | nil =>
          obtain ⟨hleave, -⟩ := List.cons.inj hmid
          obtain ⟨rfl, rfl⟩ := Emission.leave.inj hleave
          rw [List.append_nil] at *
          exact hfunc
        | cons y mid =>
          obtain ⟨rfl, -⟩ := List.cons.inj hmid
          first
          | cases hinside _ (List.mem_append_right _ List.mem_cons_self)
          | cases hplain _ (List.mem_append_right _ List.mem_cons_self)
    | cons x before =>
      obtain ⟨-, hrest⟩ := List.cons.inj hes
      -- the beginning that is asked for stands behind this function, as nothing begins inside it
      obtain ⟨mid, rfl, hmid⟩ | ⟨mid, rfl, hmid⟩ := List.append_eq_append_iff.mp hrest
      · cases mid with
        | nil => cases (List.cons.inj hmid).1
        | cons y mid => exact ih (List.cons.inj hmid).2
      · cases mid with
        | nil => cases (List.cons.inj hmid).1
        | cons y mid =>
          obtain ⟨rfl, -⟩ := List.cons.inj hmid
          cases hplain _ (List.mem_append_right _ List.mem_cons_self)

end Woven

def Ir.IsStatic (place : Ir) : Prop :=
  ∃ label, place = .wordAt label

theorem location_static {c : Context} {env : ScopeId} {name : String} {place : Ir}
    (h : location c none env name = .ok place) : place.IsStatic := by
  unfold location at h
  split at h
  · cases h
  · split at h
    · cases h
      exact ⟨_, rfl⟩
    · split at h <;> cases h

theorem location_slot {c : Context} {frame : Frame} {env : ScopeId} {name : String} {offset : Int}
    (h : location c (some frame) env name = .ok (.slot offset)) :
    ∃ owner, frame.offset? owner name = some offset := by
  unfold location at h
  split at h
  · cases h
  next owner r _ =>
    split at h
    · cases h
    · split at h
      · cases hoffset : frame.offset? owner name with
        | none => simp [hoffset] at h
        | some o =>
          simp only [Option.bind_some, hoffset, Except.ok.injEq, Ir.slot.injEq] at h
          rw [h] at hoffset
          exact ⟨owner, hoffset⟩
      · cases h

theorem mem_placesOfAll {nodes : List Ir} {place : Ir} (h : place ∈ Ir.placesOfAll nodes) :
    ∃ node ∈ nodes, place ∈ node.places := by
  induction nodes with
  | nil => simp [Ir.placesOfAll] at h
  | cons node nodes ih =>
    rw [Ir.placesOfAll] at h
    obtain h | h := List.mem_append.mp h
    · exact ⟨node, List.mem_cons_self, h⟩
    · obtain ⟨n, hn, hplace⟩ := ih h
      exact ⟨n, List.mem_cons_of_mem _ hn, hplace⟩

theorem mem_places_ofList {nodes : List Ir} {place : Ir}
    (h : place ∈ (Ir.ofList nodes).toList.flatMap Ir.places) : ∃ node ∈ nodes, place ∈ node.places := by
  match nodes with
  | [] => simp [Ir.ofList] at h
  | [node] => exact ⟨node, List.mem_singleton_self _, by simpa [Ir.ofList] using h⟩
  | first :: second :: rest =>
    simp only [Ir.ofList, Option.toList_some, List.flatMap_singleton, Ir.places] at h
    exact mem_placesOfAll h

namespace Frame

theorem slotEntry_places {types : Arena} {s : Slot} {tree : Ir} (h : slotEntry types s = some tree) :
    tree.places = [.slot s.offset] := by
  unfold slotEntry at h
  split at h <;> cases h <;> simp [Ir.places, Ir.placesOfAll]

theorem slotExit_places {types : Arena} {s : Slot} {tree : Ir} (h : slotExit types s = some tree) :
    tree.places = [.slot s.offset] := by
  unfold slotExit at h
  split at h <;> cases h <;> simp [Ir.places, Ir.placesOfAll]

/-- Code that goes over the local variables of a frame stays in it. -/
theorem code_holds {c : Context} {env : ScopeId} {code : Slot → Option Ir}
    (hcode : ∀ s tree, code s = some tree → tree.places = [.slot s.offset]) {offset : Int}
    (h : ∃ node ∈ (layout c env).locals.filterMap code, .slot offset ∈ node.places) :
    Holds (layout c env).size (layout c env).argBytes offset := by
  obtain ⟨node, hnode, hmem⟩ := h
  obtain ⟨s, hs, hsome⟩ := List.mem_filterMap.mp hnode
  rw [hcode s node hsome, List.mem_singleton] at hmem
  obtain rfl := Ir.slot.inj hmem
  exact slot_holds (List.mem_filter.mp hs).1

end Frame

theorem Touches.exists_access {c : Context} {frame : Option Frame} {bs : List Binding} {es : List Emission}
    (h : Touches c frame bs es) {e : Emission} (he : e ∈ es) {place : Ir} (hplace : place ∈ e.places) :
    ∃ b ∈ bs, b.StoredAt c frame place :=
  exists_of_forall₂ h.places (List.mem_flatMap.mpr ⟨e, he, hplace⟩)

/-- Outside of functions only words at labels are accessed. -/
theorem Touches.woven {c : Context} {bs : List Binding} {es : List Emission} (h : Touches c none bs es)
    {func : String → Nat → List Emission → Option Ir → Nat → Prop} :
    Woven (fun e => ∀ place ∈ e.places, place.IsStatic) func es := by
  apply Woven.of_plain
  intro e he
  refine ⟨h.plain e he, fun place hplace => ?_⟩
  obtain ⟨b, -, hstored⟩ := h.exists_access he hplace
  exact location_static hstored

namespace FunctionHead

variable {c : Context} {env : ScopeId} {debug : Bool}

def inside (f : FunctionHead) (c : Context) (debug : Bool) (env : ScopeId) (name : String)
    (body : List Emission) : List Emission :=
  ((Frame.layout c env).entryCode c.types).toList.map Emission.code ++ f.debugItems env name debug ++
    body ++ [.label (c.exitSymbol env)]

theorem items_eq (f : FunctionHead) (name : String) (body : List Emission) :
    f.items c debug env name body =
      .enter (Symbol.function f.ident) (Frame.layout c env).size ::
        (f.inside c debug env name body ++
          [.leave (leaveCode (Frame.layout c env) c.types debug) (Frame.layout c env).argBytes]) := by
  simp only [items, inside, List.append_assoc, List.cons_append, List.nil_append]

theorem debugItems_quiet (f : FunctionHead) (name : String) :
    ∀ e ∈ f.debugItems env name debug, e.isPlain = true ∧ ∀ offset, .slot offset ∉ e.places := by
  cases debug <;>
    simp [debugItems, Emission.isPlain, Emission.places, Emission.trees, Ir.places, Ir.placesOfAll]

/-- The code of a function stays in the frame of the function. -/
theorem inside_holds (f : FunctionHead) (name : String) {bs : List Binding} {body : List Emission}
    (hbody : Touches c (some (Frame.layout c env)) bs body) :
    ∀ e ∈ f.inside c debug env name body, e.isPlain = true ∧ ∀ offset, .slot offset ∈ e.places →
      Frame.Holds (Frame.layout c env).size (Frame.layout c env).argBytes offset := by
  unfold inside
  simp only [List.forall_mem_append]
  refine ⟨⟨⟨?_, ?_⟩, ?_⟩, ?_⟩
  · intro e he
    obtain ⟨tree, htree, rfl⟩ := List.mem_map.mp he
    refine ⟨rfl, fun offset hmem => ?_⟩
    apply Frame.code_holds fun s tree => Frame.slotEntry_places
    apply mem_places_ofList
    exact List.mem_flatMap.mpr ⟨tree, htree, by simpa [Emission.places, Emission.trees] using hmem⟩
  · intro e he
    obtain ⟨hplain, hquiet⟩ := f.debugItems_quiet name e he
    exact ⟨hplain, fun offset hmem => absurd hmem (hquiet offset)⟩
  · intro e he
    refine ⟨hbody.plain e he, fun offset hmem => ?_⟩
    obtain ⟨b, -, hstored⟩ := hbody.exists_access he hmem
    obtain ⟨owner, hoffset⟩ := location_slot hstored
    exact Frame.offset?_holds hoffset
  · simp [Emission.isPlain, Emission.places, Emission.trees]

theorem leave_holds {offset : Int} {bytes : Nat}
    (h : .slot offset ∈ (Emission.leave (leaveCode (Frame.layout c env) c.types debug) bytes).places) :
    Frame.Holds (Frame.layout c env).size (Frame.layout c env).argBytes offset := by
  have hexit : ∀ node ∈ (Frame.layout c env).locals.filterMap (Frame.slotExit c.types),
      .slot offset ∈ node.places → Frame.Holds (Frame.layout c env).size (Frame.layout c env).argBytes
        offset := fun node hnode hmem =>
    Frame.code_holds (fun s tree => Frame.slotExit_places) ⟨node, hnode, hmem⟩
  unfold leaveCode at h
  cases debug with
  | false =>
    obtain ⟨node, hnode, hmem⟩ := mem_places_ofList h
    exact hexit node hnode hmem
  | true =>
    obtain ⟨node, hnode, hmem⟩ := mem_places_ofList h
    obtain rfl | hnode := List.mem_cons.mp hnode
    · simp [Ir.places, Ir.placesOfAll] at hmem
    · obtain ⟨node, hnode, hmem⟩ := mem_places_ofList (List.mem_flatMap.mpr ⟨node, hnode, hmem⟩)
      exact hexit node hnode hmem

end FunctionHead

theorem Frame.offset?_param {f : Frame} {env : ScopeId} {ps : List Record} {rest : List Slot}
    (hslots : f.slots = ps.mapIdx (Frame.paramSlot env) ++ rest) (hnames : (ps.map Record.name).Nodup)
    {i : Nat} (hi : i < ps.length) : f.offset? env ps[i].name = some (8 + 4 * i) := by
  unfold Frame.offset?
  rw [hslots, find?_unique (x := Frame.paramSlot env i ps[i])]
  · rfl
  · exact List.mem_mapIdx.mpr ⟨i, hi, rfl⟩
  · simp [Frame.paramSlot]
  · intro s hs hfound
    obtain ⟨j, hj, rfl⟩ := List.mem_mapIdx.mp hs
    have hname : (ps.map Record.name)[j]? = (ps.map Record.name)[i]? := by
      simpa [Frame.paramSlot, hi, hj] using hfound
    have hindex : j = i := (List.getElem?_inj (by simpa using hj) hnames).mp hname
    subst hindex
    rfl

/-- The frame of a function has the parameters of its type, each where its index says. -/
theorem Decl.Seated.frame {owed : String → Prop} {c : Context} {site : Site} {head : FunctionHead}
    {params : List (Option Decl)} {body : List Stmt} (hc : Covered owed c) (ha : Arranged c)
    (h : (Decl.function site head params body).Seated c) :
    ∃ scope ty result ps, head.env = some scope ∧ head.ty = some ty ∧
      c.types.get? ty = some (.function result ps) ∧
      (Frame.layout c scope).argBytes = 4 * ps.size ∧
      ∀ i p, ps.at? i = some p →
        location c (some (Frame.layout c scope)) scope p.name = .ok (.slot (8 + 4 * i)) := by
  obtain ⟨scope, ty, result, ps, s, hscope, hty, hget, hs, hstart, hparams, hnodup⟩ := h
  have hps : ∀ r ∈ ps.records.map Record.bare, r.kind = .param ∧ c.types.isConst r.ty = false := by
    intro r hr
    obtain ⟨p, hp, rfl⟩ := List.mem_map.mp hr
    exact ⟨(hc.types hget p hp).1, (ha.types hget p hp).isConst hc⟩
  -- the parameters come first in the frame, in their order, and no other slot is one
  obtain ⟨rest, hslots, hrest⟩ := Frame.layout_params ha hs hstart hparams hps
  refine ⟨scope, ty, result, ps, hscope, hty, hget, ?_, ?_⟩
  · have hfilter : (Frame.layout c scope).params =
        (ps.records.map Record.bare).mapIdx (Frame.paramSlot scope) := by
      unfold Frame.params
      rw [hslots, List.filter_append, hrest, List.append_nil, List.filter_eq_self]
      intro x hx
      obtain ⟨i, hi, rfl⟩ := List.mem_mapIdx.mp hx
      rfl
    unfold Frame.argBytes
    rw [hfilter, List.length_mapIdx, List.length_map]
    exact Nat.mul_comm _ _
  · intro i p hp
    have hnames : ((ps.records.map Record.bare).map Record.name).Nodup := by
      rw [List.map_map]
      exact hnodup
    have hbare : (ps.records.map Record.bare)[i]? = some p.bare := by
      rw [List.getElem?_map]
      exact congrArg (Option.map Record.bare) hp
    obtain ⟨hi, heq⟩ := List.getElem?_eq_some_iff.mp hbare
    have hoffset : (Frame.layout c scope).offset? scope p.name = some (8 + 4 * i) := by
      have hat := Frame.offset?_param hslots hnames hi
      rw [heq] at hat
      exact hat
    have hmem := List.mem_of_getElem? hbare
    -- the scope of the function starts with its parameters, so their names lead there
    have hlookup : c.lookup scope p.name = some (scope, p.bare) :=
      lookup_own hs (Table.get?_of_prefix hstart
        (Table.get?_of_nodup (t := ⟨ps.records.map Record.bare⟩) hnames hmem))
    unfold location
    rw [hlookup]
    dsimp only
    rw [(hps _ hmem).1, Option.bind_some, hoffset]
    rfl

/-- The items from `enter label size` to `leave teardown bytes` are those of a function of the program: it
gives back the arguments that its type has, finds them one after another above the frame pointer, and stays
among them and its own variables. -/
def InFrame (c : Context) (program : DeclList) (label : String) (size : Nat) (inside : List Emission)
    (teardown : Option Ir) (bytes : Nat) : Prop :=
  ∃ site head params body scope ty result ps, some (.function site head params body) ∈ program ∧
    label = Symbol.function head.ident ∧ head.env = some scope ∧ head.ty = some ty ∧
    c.types.get? ty = some (.function result ps) ∧
    size = (Frame.layout c scope).size ∧ bytes = 4 * ps.size ∧
    (∀ i p, ps.at? i = some p →
      location c (some (Frame.layout c scope)) scope p.name = .ok (.slot (8 + 4 * i))) ∧
    ∀ e ∈ inside ++ [.leave teardown bytes], ∀ offset, .slot offset ∈ e.places →
      Frame.Holds size bytes offset

theorem InFrame.relabels {c c' : Context} {program : DeclList} {label : String} {size : Nat}
    {inside : List Emission} {teardown : Option Ir} {bytes : Nat}
    (h : InFrame c program label size inside teardown bytes) (hlabels : Relabels c c') :
    InFrame c' program label size inside teardown bytes := by
  rw [hlabels.eq]
  exact h

theorem Decl.Block.woven {owed : String → Prop} {c : Context} {debug : Bool} {program : DeclList} {d : Decl}
    {es : List Emission} (hc : Covered owed c) (ha : Arranged c) (hd : d ∈ program.filterMap id)
    (hseated : d.Seated c) (h : d.Block c debug es) :
    Woven (fun e => ∀ place ∈ e.places, place.IsStatic) (InFrame c program) es := by
  cases d with
  | var site v => exact h.2.woven
  | struct | data | array =>
    obtain ⟨bs, htouches⟩ := h
    exact htouches.woven
  | function site head params body =>
    obtain ⟨env, name, inner, henv, htouches, rfl⟩ := h
    obtain ⟨scope, ty, result, ps, hscope, hty, hget, hargs, hparams⟩ := hseated.frame hc ha
    obtain rfl : scope = env := Option.some.inj (hscope.symm.trans henv)
    have hinside : ∀ e ∈ head.inside c debug scope name inner, _ := head.inside_holds name htouches
    rw [head.items_eq]
    refine .block (fun e he => (hinside e he).1) ?_ .nil
    have hmem : some (Decl.function site head params body) ∈ program := by simpa using hd
    refine ⟨site, head, params, body, scope, ty, result, ps, hmem, rfl, henv, hty, hget, rfl, hargs,
      hparams, ?_⟩
    intro e he offset hoffset
    obtain he | he := List.mem_append.mp he
    · exact (hinside e he).2 offset hoffset
    · rw [List.mem_singleton.mp he] at hoffset
      exact FunctionHead.leave_holds hoffset

/-- In a compiled program functions open and close in turn, frames are accessed only inside of functions,
and every function stays in its frame. -/
theorem code_stays_in_frame (program : DeclList) (debug : Bool) (hwf : program.isWellFormed = true)
    (h : (({} : Compiler).compile program (Listing.empty debug)).outcome = .ok ()) :
    let r := ({} : Compiler).compile program (Listing.empty debug)
    let items := r.backend.items
    items.foldlM Emission.nest false = some false ∧
    (∀ before e later, items = before ++ e :: later → before.foldlM Emission.nest false = some false →
      ∀ place ∈ e.places, place.IsStatic) ∧
    ∀ before label size inside teardown bytes later,
      items = before ++ .enter label size :: (inside ++ .leave teardown bytes :: later) →
      (∀ e ∈ inside, e.isPlain = true) →
      InFrame r.compiler.session.context r.program label size inside teardown bytes := by
  intro r items
  obtain ⟨registered, c, final, hanalyzed, hlabels, blocks, data, hblocks, hdata, hitems⟩ :=
    compile_items hwf h
  obtain ⟨harranged, hseated⟩ := hanalyzed.seated hwf
  have hwoven : Woven (fun e => ∀ place ∈ e.places, place.IsStatic) (InFrame final r.program) items := by
    rw [show items = blocks.flatten ++ data from hitems]
    refine (Woven.flatten fun es hes => ?_).append hdata.woven
    obtain ⟨d, hd, hblock⟩ := exists_of_forall₂ hblocks hes
    exact hblock.woven (hanalyzed.prepared hwf).covered harranged hd (hseated d hd)
  refine ⟨hwoven.foldlM_nest, ?_, ?_⟩
  · intro before e later hes hclosed
    obtain hstatic | ⟨label, size, rfl⟩ := hwoven.outside hes hclosed
    · exact hstatic
    · nofun
  · intro before label size inside teardown bytes later hes hinside
    exact (hwoven.function hes hinside).relabels hlabels

theorem code_stays_in_frame_queueProgram :
    queueProgram.isWellFormed = true ∧
    (({} : Compiler).compile queueProgram (Listing.empty true)).outcome = .ok () ∧
    let r := ({} : Compiler).compile queueProgram (Listing.empty true)
    r.backend.items.foldlM Emission.nest false = some false ∧
      ∃ label size inside teardown bytes,
        InFrame r.compiler.session.context r.program label size inside teardown bytes := by
  have hwf : queueProgram.isWellFormed = true := by decide
  have hok : (({} : Compiler).compile queueProgram (Listing.empty true)).outcome = .ok () := by
    decide +kernel
  obtain ⟨hnest, -, hfunction⟩ := code_stays_in_frame queueProgram true hwf hok
  refine ⟨hwf, hok, hnest, ?_⟩
  -- the first function of the listing, found by its first and its last item
  have hopens : (((({} : Compiler).compile queueProgram (Listing.empty true)).backend.items.dropWhile
      Emission.isPlain).head?.bind (Emission.nest false)) = some true := by decide +kernel
  have hcloses : ((((({} : Compiler).compile queueProgram (Listing.empty true)).backend.items.dropWhile
      Emission.isPlain).tail.dropWhile Emission.isPlain).head?.bind (Emission.nest true)) = some false := by
    decide +kernel
  generalize (({} : Compiler).compile queueProgram (Listing.empty true)).backend.items = items at *
  have hitems := List.takeWhile_append_dropWhile (p := Emission.isPlain) (l := items)
  cases hrest : items.dropWhile Emission.isPlain with
  | nil => rw [hrest] at hopens; cases hopens
  | cons first tail =>
    rw [hrest] at hopens hcloses hitems
    have htail := List.takeWhile_append_dropWhile (p := Emission.isPlain) (l := tail)
    cases hend : tail.dropWhile Emission.isPlain with
    | nil => rw [List.tail_cons, hend] at hcloses; cases hcloses
    | cons last later =>
      rw [List.tail_cons, hend] at hcloses
      rw [hend] at htail
      cases first with
      | enter label size =>
        cases last with
        | leave teardown bytes =>
          rw [← htail] at hitems
          exact ⟨label, size, _, teardown, bytes, hfunction _ label size _ teardown bytes later hitems.symm
            fun e he => (List.mem_takeWhile_imp he)⟩
        | _ => cases hcloses
      | _ => cases hopens

end UnitCompiler
