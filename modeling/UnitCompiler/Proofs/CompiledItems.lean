import UnitCompiler.Proofs.Arranged
import UnitCompiler.Proofs.Prepared
import UnitCompiler.Proofs.Readback

namespace UnitCompiler

open Context Emitter

theorem Decl.LeafReady.isLeaf {owed : String → Prop} {c : Context} {frame : Option Frame} {d : Decl}
    (h : d.LeafReady owed c frame) : d.isLeaf = true := by
  cases d with
  | var | array | data => rfl
  | struct | function => cases h

theorem Decl.Ready.isFlat {owed : String → Prop} {c : Context} {d : Decl} (h : d.Ready owed c) :
    d.IsFlat := by
  cases d with
  | var | array | data => trivial
  | struct site head fields => exact fun d hd => (h.2 d hd).isLeaf
  | function site head params body =>
    obtain ⟨env, -, -, hbody⟩ := h
    intro d hd
    have hready : d.LeafReady owed c _ := hbody _ hd
    exact hready.isLeaf

/-- The program was registered, which led to `c`, and was then checked, which led to `final`. -/
structure DeclList.Analyzed (program registered checked : DeclList) (c final : Context) : Prop where
  register : ∃ s t : Session, s.context = .initial ∧ t.context = c ∧
    program.register root (.scope root) s = (⟨registered, .ok ()⟩, t)
  check : ∃ s t : Session, s.context = c ∧ t.context = final ∧
    registered.check root s = (⟨checked, .ok ()⟩, t)

namespace DeclList.Analyzed

variable {program registered checked : DeclList} {c final : Context}

theorem entered (h : program.Analyzed registered checked c final) :
    Decl.Entered root (.scope root) .initial program.inOrder c registered.inOrder := by
  obtain ⟨s, t, hs, rfl, hrun⟩ := h.register
  rw [← hs]
  exact DeclList.register_entered hrun

theorem parts (h : program.Analyzed registered checked c final) (hwf : program.isWellFormed = true) :
    ∀ d ∈ registered.filterMap id, d.PartsWellFormed :=
  DeclList.registered_parts hwf h.entered

theorem derivation (h : program.Analyzed registered checked c final)
    (hwf : program.isWellFormed = true) :
    Decl.Checked root c (registered.filterMap id) final (checked.filterMap id) := by
  obtain ⟨s, t, rfl, rfl, hrun⟩ := h.check
  exact DeclList.checkFrom_checked (fun site head params body hd =>
    h.parts hwf (.function site head params body) hd) hrun

theorem prepared (h : program.Analyzed registered checked c final)
    (hwf : program.isWellFormed = true) : checked.Prepared final :=
  DeclList.prepared hwf h.entered (h.derivation hwf)

theorem wellFormed_inOrder (hwf : program.isWellFormed = true) :
    ∀ d ∈ program.inOrder, d.isWellFormed = true :=
  DeclList.forall_mem_inOrder.mpr (DeclList.each_iff.mp hwf)

theorem shaped (h : program.Analyzed registered checked c final)
    (hwf : program.isWellFormed = true) : Shaped c :=
  h.entered.shaped covered_initial (fun d hd => Decl.fits_of_isWellFormed (wellFormed_inOrder hwf d hd))
    fun hne => absurd rfl hne

theorem seated (h : program.Analyzed registered checked c final)
    (hwf : program.isWellFormed = true) :
    Arranged final ∧ ∀ d ∈ checked.filterMap id, d.Seated final := by
  have harranged := h.entered.arranged covered_initial arranged_initial (wellFormed_inOrder hwf)
  obtain ⟨ha, -, hseated⟩ := (h.derivation hwf).seated (h.shaped hwf) harranged (h.parts hwf)
  exact ⟨ha, hseated⟩

end DeclList.Analyzed

namespace Compiler

variable {β : Type} [Backend β] {program : DeclList} {b : β}

/-- An emitting pass that succeeds leaves the state of its computation. -/
theorem run_emitting_eq_ok {compiler : Compiler} {pass : Pass} {x : PassM β Unit}
    (hperform : ∀ c : Compiler, c.perform pass program b = c.emit x program b)
    (h : (compiler.run pass program b).outcome = .ok ()) :
    ∃ t, x (compiler.entry pass program b) = .ok () t ∧
      (compiler.run pass program b).compiler.session.context = t.context ∧
      (compiler.run pass program b).program = program ∧
      (compiler.run pass program b).backend = t.backend := by
  by_cases hcompleted : compiler.completed = pass.prerequisite
  · cases hrun : x (compiler.entry pass program b) with
    | error d t =>
      rw [(run_emitting_error hperform hcompleted hrun).1] at h
      cases h
    | ok _ t =>
      obtain ⟨-, -, hcontext, hprogram, hbackend⟩ := run_emitting_ok hperform hcompleted hrun
      exact ⟨t, rfl, hcontext, hprogram, hbackend⟩
  · unfold run at h
    rw [if_neg hcompleted] at h
    cases h

theorem runAll_cons_ok {compiler : Compiler} {pass : Pass} {rest : List Pass}
    (h : (compiler.runAll program b (pass :: rest)).outcome = .ok ()) :
    (compiler.run pass program b).outcome = .ok () ∧
      compiler.runAll program b (pass :: rest) = (compiler.run pass program b).compiler.runAll
        (compiler.run pass program b).program (compiler.run pass program b).backend rest := by
  cases hrun : (compiler.run pass program b).outcome with
  | error d =>
    rw [runAll_of_error rest hrun, hrun] at h
    cases h
  | ok _ => exact ⟨rfl, runAll_of_ok rest hrun⟩

/-- The first two passes analyze a program and leave the backend alone. -/
theorem runAll_check_stages (h : (({} : Compiler).runAll program b [.register, .check]).outcome = .ok ()) :
    let r := ({} : Compiler).runAll program b [.register, .check]
    (∃ registered c, program.Analyzed registered r.program c r.compiler.session.context) ∧
      r.compiler.completed = some .check ∧ r.backend = b := by
  intro r
  have hr : r = ({} : Compiler).runAll program b [.register, .check] := rfl
  obtain ⟨hregister, hnext⟩ := runAll_cons_ok h
  rw [hnext, runAll_singleton] at h hr
  obtain ⟨t₁, hrun₁, hcontext₁, -⟩ :=
    run_visiting_ok (x := program.register root (.scope root)) (fun _ => rfl) hregister
  have hbackend₁ : (({} : Compiler).run .register program b).backend = b := conclude_backend _ _
  rw [hbackend₁] at h hr
  generalize ({} : Compiler).run .register program b = first at h hr hrun₁ hcontext₁
  obtain ⟨t₂, hrun₂, hcontext₂, hcompleted⟩ :=
    run_visiting_ok (x := first.program.check root) (fun _ => rfl) h
  have hbackend₂ : (first.compiler.run .check first.program b).backend = b := by
    unfold run
    split
    · exact conclude_backend _ _
    · rfl
  rw [hr, hcontext₂]
  have hchecked : (first.compiler.log (.passStarted .check first.program.length)).session.context =
      t₁.context := hcontext₁
  exact ⟨⟨first.program, t₁.context, ⟨_, t₁, rfl, rfl, hrun₁⟩, ⟨_, t₂, hchecked, rfl, hrun₂⟩⟩, hcompleted,
    hbackend₂⟩

/-- The first three passes analyze a program and emit it. -/
theorem runAll_emit_stages
    (h : (({} : Compiler).runAll program b [.register, .check, .emit]).outcome = .ok ()) :
    let r := ({} : Compiler).runAll program b [.register, .check, .emit]
    ∃ registered c final, program.Analyzed registered r.program c final ∧
      ∃ e t : Emitter β, e.context = final ∧ e.frame = none ∧ e.backend = b ∧
        r.program.emit e = .ok () t ∧ r.compiler.session.context = t.context ∧ r.backend = t.backend := by
  intro r
  have hearly : (({} : Compiler).runAll program b [.register, .check]).outcome = .ok () := by
    cases ho : (({} : Compiler).runAll program b [.register, .check]).outcome with
    | ok _ => rfl
    | error d =>
      have hall : r = _ := runAll_append_of_error [.emit] ho
      rw [show ({} : Compiler).runAll program b [.register, .check, .emit] = r from rfl, hall, ho] at h
      cases h
  have hr : r = _ := (runAll_append_of_ok [.emit] hearly).trans (runAll_singleton ..)
  rw [show ({} : Compiler).runAll program b [.register, .check, .emit] = r from rfl, hr] at h
  obtain ⟨⟨registered, c, hanalyzed⟩, -, hbackend⟩ := runAll_check_stages hearly
  generalize ({} : Compiler).runAll program b [.register, .check] = early at h hr hanalyzed hbackend
  obtain ⟨t, hrun, hcontext, hprogram, hemitted⟩ :=
    run_emitting_eq_ok (x := early.program.emit) (fun _ => rfl) h
  rw [hr, hprogram, hcontext, hemitted]
  exact ⟨registered, c, _, hanalyzed, early.compiler.entry .emit early.program early.backend, t, rfl, rfl,
    hbackend, hrun, rfl, rfl⟩

/-- The data segment comes last. -/
theorem compile_last (h : (({} : Compiler).compile program b).outcome = .ok ()) :
    let r := ({} : Compiler).compile program b
    let code := ({} : Compiler).runAll program b [.register, .check, .emit]
    code.outcome = .ok () ∧ ∃ e u : Emitter β, e.context = code.compiler.session.context ∧
      e.frame = none ∧ e.backend = code.backend ∧ code.program.emitData e = .ok () u ∧
      r.program = code.program ∧ r.compiler.session.context = u.context ∧ r.backend = u.backend := by
  intro r code
  have hcode : code.outcome = .ok () := by
    cases ho : code.outcome with
    | ok _ => rfl
    | error d =>
      have hall : r = code := runAll_append_of_error [.emitData] ho
      rw [show ({} : Compiler).compile program b = r from rfl, hall, ho] at h
      cases h
  have hr : r = code.compiler.run .emitData code.program code.backend :=
    (runAll_append_of_ok [.emitData] hcode).trans (runAll_singleton ..)
  rw [show ({} : Compiler).compile program b = r from rfl, hr] at h
  obtain ⟨u, hrun, hcontext, hprogram, hbackend⟩ :=
    run_emitting_eq_ok (x := code.program.emitData) (fun _ => rfl) h
  rw [hr, hcontext, hprogram, hbackend]
  exact ⟨hcode, code.compiler.entry .emitData code.program code.backend, u, rfl, rfl, rfl, hrun, rfl, rfl, rfl⟩

/-- A compilation that succeeds goes through all four passes. -/
theorem compile_stages (h : (({} : Compiler).compile program b).outcome = .ok ()) :
    let r := ({} : Compiler).compile program b
    ∃ registered c final, program.Analyzed registered r.program c final ∧
      ∃ e t e' u : Emitter β, e.context = final ∧ e.frame = none ∧ e.backend = b ∧
        r.program.emit e = .ok () t ∧
        e'.context = t.context ∧ e'.frame = none ∧ e'.backend = t.backend ∧
        r.program.emitData e' = .ok () u ∧
        r.compiler.session.context = u.context ∧ r.backend = u.backend := by
  intro r
  obtain ⟨hcode, e', u, hcontext', hframe', hbackend', hdata, hprogram, hcontext, hbackend⟩ := compile_last h
  obtain ⟨registered, c, final, hanalyzed, e, t, he, hframe, hb, hemit, ht, htb⟩ := runAll_emit_stages hcode
  have hr : r.program = _ := hprogram
  rw [hr]
  exact ⟨registered, c, final, hanalyzed, e, t, e', u, he, hframe, hb, hemit, hcontext'.trans ht, hframe',
    hbackend'.trans htb, hdata, hcontext, hbackend⟩

/-- What is compiled into a listing with success is compiled onto a tape in the same way. -/
theorem compile_tape {debug : Bool}
    (h : (({} : Compiler).compile program (Listing.empty debug)).outcome = .ok ()) :
    (({} : Compiler).compile program (Listing.empty debug)).InStep
      (fun l t => l = Listing.recording t.debug t.items)
      (({} : Compiler).compile program (⟨debug, []⟩ : Tape)) := by
  obtain hstep | ⟨d, herror, -⟩ := ({} : Compiler).runAll_follows Listing.tape_simulation program
    (show Listing.empty debug = Listing.recording debug [] from rfl) (g := ⟨debug, []⟩)
    [.register, .check, .emit, .emitData]
  · exact hstep
  · cases h.symm.trans herror

/-- A program can be compiled into a listing if it can be onto a tape and the listing takes what is on it. -/
theorem compile_listing_iff (debug : Bool) :
    (({} : Compiler).compile program (Listing.empty debug)).outcome = .ok () ↔
      (({} : Compiler).compile program (⟨debug, []⟩ : Tape)).outcome = .ok () ∧
        Listing.Accepts (({} : Compiler).compile program (⟨debug, []⟩ : Tape)).backend.debug
          (({} : Compiler).compile program (⟨debug, []⟩ : Tape)).backend.items := by
  refine ⟨fun h => ?_, fun ⟨hok, haccepts⟩ => ?_⟩
  · have hstep := compile_tape h
    have hsent : Sent (Listing.empty debug) (({} : Compiler).compile program (Listing.empty debug)).backend :=
      runAll_sent ..
    obtain ⟨-, haccepts⟩ := Listing.accepts_of_sent hsent
    refine ⟨hstep.outcome.symm.trans h, ?_⟩
    rw [hstep.backend, Listing.recording_items, Listing.accepts_iff] at haccepts
    exact Listing.accepts_iff.mpr haccepts
  · exact (({} : Compiler).runAll_listing program debug [.register, .check, .emit, .emitData] haccepts).outcome.trans
      hok

end Compiler

/-- The items of a compiled program are those of its declarations, one after another, and then data. -/
theorem compile_items {program : DeclList} {debug : Bool} (hwf : program.isWellFormed = true)
    (h : (({} : Compiler).compile program (Listing.empty debug)).outcome = .ok ()) :
    let r := ({} : Compiler).compile program (Listing.empty debug)
    ∃ registered c final, program.Analyzed registered r.program c final ∧
      Relabels final r.compiler.session.context ∧
      ∃ blocks data, List.Forall₂ (Decl.Block final debug) (r.program.filterMap id) blocks ∧
        Touches final none [] data ∧ r.backend.items = blocks.flatten ++ data := by
  intro r
  -- the listing records what a tape does, and a tape refuses nothing
  have hstep := Compiler.compile_tape h
  have htape := hstep.outcome.symm.trans h
  obtain ⟨registered, c, final, hanalyzed, e, t, e', u, rfl, hframe, hbackend, hemit, hcontext', hframe',
    hbackend', hdata, hcontext, hitems⟩ := Compiler.compile_stages htape
  have hprogram : r.program = _ := hstep.program
  have hcompiler : r.compiler = _ := hstep.compiler
  have hrecorded : r.backend.items = u.backend.items := by
    rw [hstep.backend, Listing.recording_items, hitems]
  rw [hprogram, hcompiler, hcontext, hrecorded]
  have hprepared := hanalyzed.prepared hwf
  have hyields : Yields e.context none debug (DeclList.emitFrom 0 _ : PassM Tape Unit) _ :=
    DeclList.emitFrom_yields (fun d hd => Decl.emit_yields (hprepared.ready d hd).isFlat) 0
  obtain ⟨es, hw, blocks, hblocks, rfl⟩ := hyields e () t ⟨.refl _, hframe, by rw [hbackend]⟩ hemit
  -- the data pass starts where the code pass has ended
  have hstands : Stands e.context none debug e' := by
    refine ⟨?_, hframe', ?_⟩
    · rw [hcontext']
      exact hw.context
    · rw [hbackend', hw.debug, hbackend]
  obtain ⟨es', hw', htouches⟩ := DeclList.emitData_yields _ e' () u hstands hdata
  refine ⟨registered, c, e.context, hanalyzed, ?_, blocks, es', hblocks, htouches, ?_⟩
  · exact hstands.context.trans hw'.context
  · rw [hw'.items, hbackend', hw.items, hbackend]
    rfl

end UnitCompiler
