import UnitCompiler.Proofs.Prepared

namespace UnitCompiler

/-- A well-formed program that is registered and checked is emitted if and only if its gotos have their
labels and its arrays are not too large, and no other cause is ever given. -/
theorem emission_succeeds_iff (program : DeclList) (debug : Bool)
    (hwf : program.isWellFormed = true)
    (h : (({} : Compiler).runAll program (Listing.empty debug) [.register, .check]).outcome = .ok ()) :
    let checked := ({} : Compiler).runAll program (Listing.empty debug) [.register, .check]
    let emitted := checked.compiler.runAll checked.program (Listing.empty debug) [.emit, .emitData]
    (emitted.outcome = .ok () ↔
      (∀ d ∈ program.filterMap id, d.JumpsClosed) ∧
        ∀ d ∈ checked.program.filterMap id, ∀ v ∈ d.arrays, v.Small checked.compiler.session.context) ∧
      ∀ d, emitted.outcome = .error d → d.kind = .undefinedLabel ∨ d.kind = .invalidArraySize := by
  intro checked emitted
  obtain ⟨hprepared, hcompleted, hjumps⟩ := Compiler.runAll_early hwf h
  have hfits : checked.program.Deliverable checked.compiler.session.context ↔
      (∀ d ∈ program.filterMap id, d.JumpsClosed) ∧
        ∀ d ∈ checked.program.filterMap id, ∀ v ∈ d.arrays,
          v.Small checked.compiler.session.context := by
    rw [← hjumps]
    exact forall₂_and
  obtain ⟨hdeliverable, hok, -⟩ | ⟨hnot, d, herror, hexcused⟩ :=
    hprepared.runAll_listing hcompleted debug
  · refine ⟨⟨fun _ => hfits.mp hdeliverable, fun _ => hok⟩, fun d herror => ?_⟩
    cases hok.symm.trans herror
  · refine ⟨⟨fun hok => ?_, fun hboth => absurd (hfits.mpr hboth) hnot⟩, fun d' herror' => ?_⟩
    · cases hok.symm.trans herror
    · cases herror.symm.trans herror'
      exact hexcused

def strayJump : DeclList :=
  [some (.function {} { ident := "f", tag := .int } []
    [.block [.declare (.array {}
        { ident := "grid", tag := .int, kind := .localVar,
          dims := [.literal (.int 65535) {}, .literal (.int 65535) {}] })] {},
      .goto "out" ⟨2, 1⟩ none])]

theorem emission_succeeds_iff_strayJump :
    strayJump.isWellFormed = true ∧
    (({} : Compiler).runAll strayJump (Listing.empty true) [.register, .check]).outcome = .ok () ∧
    let checked := ({} : Compiler).runAll strayJump (Listing.empty true) [.register, .check]
    let emitted := checked.compiler.runAll checked.program (Listing.empty true) [.emit, .emitData]
    emitted.outcome ≠ .ok () ∧
      ∀ d, emitted.outcome = .error d → d.kind = .undefinedLabel ∨ d.kind = .invalidArraySize := by
  have hwf : strayJump.isWellFormed = true := by decide
  have hok : (({} : Compiler).runAll strayJump (Listing.empty true) [.register, .check]).outcome =
      .ok () := by rfl
  obtain ⟨hiff, hkinds⟩ := emission_succeeds_iff strayJump true hwf hok
  refine ⟨hwf, hok, fun hemitted => ?_, hkinds⟩
  have hclosed := (hiff.mp hemitted).1 _ List.mem_cons_self
  have hout : "out" ∈ ([] : List String) := hclosed "out" (by decide)
  cases hout

end UnitCompiler
