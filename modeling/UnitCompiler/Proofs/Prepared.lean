import UnitCompiler.Proofs.EmittedProgram
import UnitCompiler.Proofs.Minted
import UnitCompiler.Proofs.Refusal

namespace UnitCompiler

open Context Emitter

def DeclList.labels (c : Context) (program : DeclList) : List String :=
  (program.filterMap id).flatMap (Decl.labels c)

/-- A checked program keeps all it promises: every label is owed once, and every declaration is ready. -/
structure DeclList.Prepared (c : Context) (program : DeclList) : Prop where
  covered : Covered (· ∈ program.labels c) c
  ready : ∀ d ∈ program.filterMap id, d.Ready (· ∈ program.labels c) c
  tracked : ∀ d ∈ program.filterMap id, d.JumpsTracked c
  minted : Minted (fun _ => False) (Origin.Taken c) (program.labels c)

variable {c c' final : Context} {env : ScopeId} {target : Target}

theorem Decl.partsWellFormed_of_isWellFormed {d : Decl} (h : d.isWellFormed = true) :
    d.PartsWellFormed := by
  cases d with
  | var | array | data => trivial
  | struct site head fields => exact DeclList.each_iff.mp h
  | function site head params body =>
    rw [isWellFormed, Bool.and_eq_true] at h
    exact h.2

theorem Decl.Entered.partsWellFormed {ds ds' : List Decl} (h : Decl.Entered env target c ds c' ds')
    (hds : ∀ d ∈ ds, d.PartsWellFormed) : ∀ d ∈ ds', d.PartsWellFormed := by
  induction h with
  | nil => exact hds
  | var _ _ ih | array _ _ ih | data _ _ ih =>
    exact List.forall_mem_cons.mpr ⟨trivial, ih (List.forall_mem_cons.mp hds).2⟩
  | struct _ _ ih | function _ _ _ _ _ ih =>
    obtain ⟨hd, hds⟩ := List.forall_mem_cons.mp hds
    exact List.forall_mem_cons.mpr ⟨hd, ih hds⟩

theorem Decl.Checked.headLabels {ds ds' : List Decl} (h : Decl.Checked env c ds c' ds') :
    ds'.flatMap (Decl.headLabels final) = ds.flatMap (Decl.headLabels final) := by
  induction h with
  | nil => rfl
  | var _ ih | array _ ih | data _ ih => rw [List.flatMap_cons, List.flatMap_cons, ih]
  | struct _ _ _ _ ih | function _ _ _ ih =>
    rw [List.flatMap_cons, List.flatMap_cons, ih]
    rfl

theorem DeclList.registered_parts {program registered : DeclList} (hwf : program.isWellFormed = true)
    (h : Decl.Entered env target c program.inOrder c' registered.inOrder) :
    ∀ d ∈ registered.filterMap id, d.PartsWellFormed := by
  rw [← DeclList.forall_mem_inOrder]
  apply h.partsWellFormed
  rw [DeclList.forall_mem_inOrder]
  exact fun d hd => Decl.partsWellFormed_of_isWellFormed (DeclList.each_iff.mp hwf d hd)

theorem Decl.Entered.jumpsClosed {ds ds' : List Decl} (h : Decl.Entered env target c ds c' ds') :
    (∀ d ∈ ds', d.JumpsClosed) ↔ ∀ d ∈ ds, d.JumpsClosed := by
  induction h with
  | nil => rfl
  | var _ _ ih | array _ _ ih | data _ _ ih | struct _ _ ih | function _ _ _ _ _ ih =>
    rw [List.forall_mem_cons, List.forall_mem_cons, ih]
    rfl

theorem Decl.Checked.jumpsClosed {ds ds' : List Decl} (h : Decl.Checked env c ds c' ds') :
    (∀ d ∈ ds', d.JumpsClosed) ↔ ∀ d ∈ ds, d.JumpsClosed := by
  induction h with
  | nil => rfl
  | var _ ih | array _ ih | data _ ih => rw [List.forall_mem_cons, List.forall_mem_cons, ih]
  | struct _ _ _ _ ih =>
    rw [List.forall_mem_cons, List.forall_mem_cons, ih]
    rfl
  | function _ hbody _ ih =>
    obtain ⟨hgotos, hlabels⟩ := hbody.names
    rw [List.forall_mem_cons, List.forall_mem_cons, ih, JumpsClosed, hgotos, hlabels]
    rfl

/-- Registration and check prepare a well-formed program. -/
theorem DeclList.prepared {program registered checked : DeclList} (hwf : program.isWellFormed = true)
    (henter : Decl.Entered root (.scope root) .initial program.inOrder c registered.inOrder)
    (hcheck : Decl.Checked root c (registered.filterMap id) final (checked.filterMap id)) :
    checked.Prepared final := by
  have hfits : ∀ d ∈ program.inOrder, d.Fits root (.scope root) := DeclList.forall_mem_inOrder.mpr
    fun d hd => Decl.fits_of_isWellFormed (DeclList.each_iff.mp hwf d hd)
  have hperm := DeclList.inOrder_perm registered
  have hparts := DeclList.registered_parts hwf henter
  have hroot := rooted_initial.extends henter.extends
  have hheads : (checked.filterMap id).flatMap (Decl.headLabels final) =
      (registered.filterMap id).flatMap (Decl.headLabels final) := hcheck.headLabels
  have howed : ∀ d ∈ checked.filterMap id, ∀ l ∈ d.labels final, l ∈ checked.labels final :=
    fun d hd l hl => List.mem_flatMap.mpr ⟨d, hd, hl⟩
  -- what registration names is still named after the check
  have hhead : ∀ d ∈ registered.inOrder, ∀ l ∈ d.headLabels final, l ∈ checked.labels final := by
    intro d hd l hl
    have hmem : l ∈ (registered.filterMap id).flatMap (Decl.headLabels final) :=
      List.mem_flatMap.mpr ⟨d, hperm.subset hd, hl⟩
    rw [← hheads] at hmem
    obtain ⟨d', hd', hl'⟩ := List.mem_flatMap.mp hmem
    exact howed d' hd' l (List.mem_append_left _ hl')
  obtain ⟨hcovered, hregistered⟩ := henter.ready covered_initial hfits (framed_root _ final none)
    hcheck.extends hhead
  obtain ⟨hfinal, hready⟩ := hcheck.ready hcovered hparts
    (fun d hd => hregistered d (hperm.symm.subset hd)) (.refl final)
    (fun d hd l hl => howed d hd l (List.mem_append_right _ hl))
  refine ⟨hfinal, hready, hcheck.jumpsTracked hroot, ?_⟩
  have houter := henter.minted rooted_initial hfits hcheck.extends
  have hinner := hcheck.minted hroot hparts (.refl final)
  have hall := (houter.perm (hperm.flatMap_right _)).append hinner henter.extends.taken
    hcheck.extends.taken
  rw [← hheads] at hall
  exact (hall.perm (List.flatMap_append_perm _ _ _)).mono (fun _ h => h.elim) fun _ h => h

def DeclList.Deliverable (c : Context) (program : DeclList) : Prop :=
  ∀ d ∈ program.filterMap id, d.JumpsClosed ∧ ∀ v ∈ d.arrays, v.Small c

def DeclList.Known (c : Context) (program : DeclList) (label : String) : Prop :=
  label ∈ program.labels c ∨ label ∈ Symbol.provided

namespace DeclList.Prepared

variable {program : DeclList} {s : Emitter Tape}

theorem emit_delivers (h : program.Prepared c) (hctx : Relabels c s.context) (hframe : s.frame = none) :
    Delivers Diagnostic.Excused (program.Known c) (program.labels c) false false
      (program.Deliverable c) program.emit s :=
  DeclList.emitFrom_delivers (fun d hd _ hctx hframe => Decl.emit_delivers h.covered (fun _ hl => hl)
    hctx hframe (h.ready d hd) (h.tracked d hd) fun _ hl => List.mem_flatMap.mpr ⟨d, hd, hl⟩)
    0 hctx hframe

theorem emitData_delivers (h : program.Prepared c) :
    Delivers Diagnostic.Excused (program.Known c) [] false false True program.emitData s :=
  DeclList.emitData_delivers h.ready fun d hd _ hl => Or.inl (List.mem_flatMap.mpr ⟨d, hd, hl⟩)

end DeclList.Prepared

namespace Compiler

variable {β : Type} [Backend β] {compiler : Compiler} {pass : Pass} {program : DeclList} {b : β}
  {x : PassM β Unit} {t : Emitter β}

def entry (compiler : Compiler) (pass : Pass) (program : DeclList) (b : β) : Emitter β :=
  { (compiler.log (.passStarted pass program.length)).session with backend := b }

theorem run_emitting_ok (hperform : ∀ c : Compiler, c.perform pass program b = c.emit x program b)
    (hcompleted : compiler.completed = pass.prerequisite)
    (hrun : x (compiler.entry pass program b) = .ok () t) :
    (compiler.run pass program b).outcome = .ok () ∧
      (compiler.run pass program b).compiler.completed = some pass ∧
      (compiler.run pass program b).compiler.session.context = t.context ∧
      (compiler.run pass program b).program = program ∧
      (compiler.run pass program b).backend = t.backend := by
  unfold run
  rw [if_pos hcompleted, hperform, emit]
  unfold entry at hrun
  rw [hrun]
  exact ⟨rfl, rfl, rfl, rfl, rfl⟩

theorem run_emitting_error (hperform : ∀ c : Compiler, c.perform pass program b = c.emit x program b)
    (hcompleted : compiler.completed = pass.prerequisite) {d : Diagnostic}
    (hrun : x (compiler.entry pass program b) = .error d t) :
    (compiler.run pass program b).outcome = .error d ∧
      (compiler.run pass program b).compiler.session.context = t.context ∧
      (compiler.run pass program b).backend = t.backend := by
  unfold run
  rw [if_pos hcompleted, hperform, emit]
  unfold entry at hrun
  rw [hrun]
  exact ⟨rfl, rfl, rfl⟩

end Compiler

theorem minted_generatedBetween (c : Context) (hi : Nat) :
    Minted (Origin.Taken c) (fun _ => True) (generatedBetween c.labels hi) := by
  have horigins : generatedBetween c.labels hi =
      ((List.range' (c.labels + 1) (hi - c.labels)).map Origin.generated).map Origin.text := by
    rw [List.map_map]
    rfl
  rw [horigins]
  apply Minted.of_origins
  · exact (List.nodup_range' ..).map fun _ _ h => Origin.generated.inj h
  · intro o ho
    obtain ⟨n, hn, rfl⟩ := List.mem_map.mp ho
    refine ⟨fun hle => ?_, trivial⟩
    have hlt := (List.mem_range'_1.mp hn).1
    have hle : n ≤ c.labels := hle
    omega

namespace DeclList.Prepared

variable {compiler : Compiler} {program : DeclList} {es : List Emission} {hi : Nat}

theorem nodup (h : program.Prepared c) (hi : Nat) :
    (program.labels c ++ generatedBetween c.labels hi).Nodup :=
  (h.minted.append (minted_generatedBetween c hi) (fun _ h => h.elim) fun _ _ => trivial).nodup

/-- A listing takes all that is written for a prepared program. -/
theorem accepts (h : program.Prepared c) (debug : Bool)
    (hes : Partial (program.labels c) false c.labels hi es) : Listing.Accepts debug es := by
  obtain ⟨inside, hnest⟩ := Option.isSome_iff_exists.mp hes.nest
  obtain ⟨labels, hperm, hsub⟩ := hes.defined
  exact Listing.accepts_of_nodup (hperm.nodup_iff.mp (hsub.nodup (h.nodup hi))) hnest

/-- On a tape, a prepared program is emitted whole if it is deliverable, and refused for one of the two
causes if not. -/
theorem runAll_tape (h : program.Prepared compiler.session.context)
    (hcompleted : compiler.completed = some .check) (debug : Bool) :
    let c := compiler.session.context
    let r := compiler.runAll program (⟨debug, []⟩ : Tape) [.emit, .emitData]
    r.backend.debug = debug ∧
      ((program.Deliverable c ∧ r.outcome = .ok () ∧ ∃ hi,
          Complete (program.Known c) (program.labels c) false false c.labels hi r.backend.items) ∨
        (¬ program.Deliverable c ∧ (∃ d, r.outcome = .error d ∧ d.Excused) ∧ ∃ hi,
          Partial (program.labels c) false c.labels hi r.backend.items)) := by
  intro c r
  have hemit := h.emit_delivers (s := compiler.entry .emit program ⟨debug, []⟩) (.refl c) rfl
  cases hemit with
  | @failed t es d hfits hrun hcause hwrites hes =>
    obtain ⟨houtcome, -, hbackend⟩ := Compiler.run_emitting_error (fun _ => rfl) hcompleted hrun
    have hr : r = _ := Compiler.runAll_of_error [.emitData] houtcome
    have hitems : t.backend.items = es := hwrites.items
    rw [hr, hbackend, hitems]
    exact ⟨hwrites.debug, Or.inr ⟨hfits, ⟨d, houtcome, hcause⟩, _, hes⟩⟩
  | @done t es hfits hrun hwrites hes =>
    obtain ⟨houtcome, hdone, hcontext, hprogram, hbackend⟩ :=
      Compiler.run_emitting_ok (fun _ => rfl) hcompleted hrun
    have hr : r = _ := Compiler.runAll_of_ok [.emitData] houtcome
    rw [hprogram, hbackend, Compiler.runAll_singleton] at hr
    -- of the compiler in between only its context and its last pass matter
    generalize (compiler.run .emit program (⟨debug, []⟩ : Tape)).compiler = next at hr hdone hcontext
    cases h.emitData_delivers (s := next.entry .emitData program t.backend) with
    | failed hfits' => exact absurd trivial hfits'
    | @done u es' _ hrun' hwrites' hes' =>
      obtain ⟨houtcome', -, -, -, hbackend'⟩ := Compiler.run_emitting_ok (fun _ => rfl) hdone hrun'
      have hitems : u.backend.items = es ++ es' := by
        rw [hwrites'.items]
        exact congrArg (· ++ es') hwrites.items
      have hstart : (next.entry .emitData program t.backend).context.labels = t.context.labels :=
        congrArg Context.labels hcontext
      have hle := hwrites'.context.labels
      rw [hstart] at hes' hle
      have hall := hes.append hes' hwrites.context.labels hle
      rw [List.append_nil] at hall
      rw [hr, hbackend', hitems]
      exact ⟨hwrites'.debug.trans hwrites.debug, Or.inl ⟨hfits, houtcome', _, hall⟩⟩

/-- A listing is no stricter than a tape: it refuses nothing that a prepared program sends. -/
theorem runAll_listing (h : program.Prepared compiler.session.context)
    (hcompleted : compiler.completed = some .check) (debug : Bool) :
    let c := compiler.session.context
    let r := compiler.runAll program (Listing.empty debug) [.emit, .emitData]
    (program.Deliverable c ∧ r.outcome = .ok () ∧ ∃ hi,
        Complete (program.Known c) (program.labels c) false false c.labels hi r.backend.items) ∨
      (¬ program.Deliverable c ∧ ∃ d, r.outcome = .error d ∧ d.Excused) := by
  intro c r
  obtain ⟨hdebug, hrun⟩ := h.runAll_tape hcompleted debug
  have haccepts : Listing.Accepts
      (compiler.runAll program (⟨debug, []⟩ : Tape) [.emit, .emitData]).backend.debug
      (compiler.runAll program (⟨debug, []⟩ : Tape) [.emit, .emitData]).backend.items := by
    obtain ⟨-, -, hi, hes⟩ | ⟨-, -, hi, hes⟩ := hrun
    · exact h.accepts _ hes.toPartial
    · exact h.accepts _ hes
  have hstep := compiler.runAll_listing program debug [.emit, .emitData] haccepts
  have hitems : r.backend.items =
      (compiler.runAll program (⟨debug, []⟩ : Tape) [.emit, .emitData]).backend.items := by
    rw [hstep.backend, Listing.recording_items]
  rw [hitems, hstep.outcome]
  obtain ⟨hfits, hok, hes⟩ | ⟨hfits, herror, -⟩ := hrun
  · exact Or.inl ⟨hfits, hok, hes⟩
  · exact Or.inr ⟨hfits, herror⟩

end DeclList.Prepared

namespace Compiler

variable {β : Type} [Backend β] {program : DeclList} {b : β}

theorem run_visiting_ok {compiler : Compiler} {pass : Pass} {x : SessionM (Visited DeclList)}
    (hperform : ∀ c : Compiler, c.perform pass program b = c.visit x b)
    (h : (compiler.run pass program b).outcome = .ok ()) :
    ∃ t, x (compiler.log (.passStarted pass program.length)).session =
        (⟨(compiler.run pass program b).program, .ok ()⟩, t) ∧
      (compiler.run pass program b).compiler.session.context = t.context ∧
      (compiler.run pass program b).compiler.completed = some pass := by
  unfold run at h ⊢
  by_cases hcompleted : compiler.completed = pass.prerequisite
  · rw [if_pos hcompleted, hperform, visit] at h ⊢
    generalize x (compiler.log (.passStarted pass program.length)).session = result at h ⊢
    obtain ⟨⟨node, outcome⟩, t⟩ := result
    cases outcome with
    | error d => cases h
    | ok _ => exact ⟨t, rfl, rfl, rfl⟩
  · rw [if_neg hcompleted] at h
    cases h

/-- The first two passes prepare a well-formed program and leave the backend alone. -/
theorem runAll_early (hwf : program.isWellFormed = true)
    (h : (({} : Compiler).runAll program b [.register, .check]).outcome = .ok ()) :
    let r := ({} : Compiler).runAll program b [.register, .check]
    r.program.Prepared r.compiler.session.context ∧ r.compiler.completed = some .check ∧
      ((∀ d ∈ r.program.filterMap id, d.JumpsClosed) ↔ ∀ d ∈ program.filterMap id, d.JumpsClosed) := by
  intro r
  cases hregister : (({} : Compiler).run .register program b).outcome with
  | error d =>
    rw [runAll_of_error _ hregister, hregister] at h
    cases h
  | ok _ =>
    have hr : r = _ := (runAll_of_ok [.check] hregister).trans (runAll_singleton ..)
    rw [runAll_of_ok _ hregister, runAll_singleton] at h
    obtain ⟨s, hentered, hcontext, -⟩ :=
      run_visiting_ok (x := program.register root (.scope root)) (fun _ => rfl) hregister
    have henter := DeclList.register_entered hentered
    -- the second pass starts from whatever the first one has left
    generalize ({} : Compiler).run .register program b = first at hr h henter hcontext
    obtain ⟨t, hchecked, hcontext', hcompleted⟩ :=
      run_visiting_ok (x := first.program.check root) (fun _ => rfl) h
    have hcheck := DeclList.checkFrom_checked (fun site head params body hd =>
      DeclList.registered_parts hwf henter (.function site head params body) hd) hchecked
    rw [hr]
    refine ⟨?_, hcompleted, ?_⟩
    · rw [hcontext']
      refine DeclList.prepared hwf henter ?_
      rw [← hcontext]
      exact hcheck
    · rw [hcheck.jumpsClosed, ← DeclList.forall_mem_inOrder, henter.jumpsClosed,
        DeclList.forall_mem_inOrder]

end Compiler

end UnitCompiler
