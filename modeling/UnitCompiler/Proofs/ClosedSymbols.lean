import UnitCompiler.Proofs.Prepared

namespace UnitCompiler

/-- What a deliverable program leaves in a listing is unambiguous and closed. -/
theorem DeclList.Prepared.symbols {c : Context} {program : DeclList} (h : program.Prepared c) {hi : Nat}
    {es : List Emission}
    (hes : Complete (program.Known c) (program.labels c) false false c.labels hi es) :
    (definedBy es).Nodup ∧
      ∀ label ∈ referredBy es, label ∈ definedBy es ∨ label ∈ Symbol.provided := by
  refine ⟨hes.defined.nodup_iff.mpr (h.nodup hi), fun label hlabel => ?_⟩
  obtain (hpromised | hprovided) | hdefined := hes.refers label hlabel
  · exact Or.inl (hes.defined.symm.subset (List.mem_append_left _ hpromised))
  · exact Or.inr hprovided
  · exact Or.inl hdefined

/-- A compiled program defines each of its labels once and refers to no others, apart from the
descriptors that the runtime provides. -/
theorem compile_symbols_closed (program : DeclList) (debug : Bool)
    (hwf : program.isWellFormed = true)
    (h : (({} : Compiler).compile program (Listing.empty debug)).outcome = .ok ()) :
    let items := (({} : Compiler).compile program (Listing.empty debug)).backend.items
    (definedBy items).Nodup ∧
      ∀ label ∈ referredBy items, label ∈ definedBy items ∨ label ∈ Symbol.provided := by
  intro items
  have hpasses : [Pass.register, .check, .emit, .emitData] = [.register, .check] ++ [.emit, .emitData] :=
    rfl
  cases hearly : (({} : Compiler).runAll program (Listing.empty debug) [.register, .check]).outcome with
  | error d =>
    rw [Compiler.compile, hpasses, Compiler.runAll_append_of_error _ hearly, hearly] at h
    cases h
  | ok _ =>
    obtain ⟨hprepared, hcompleted, -⟩ := Compiler.runAll_early hwf hearly
    have hrun : ({} : Compiler).compile program (Listing.empty debug) = _ :=
      Compiler.runAll_append_of_ok [.emit, .emitData] hearly
    rw [Compiler.runAll_early_backend] at hrun
    -- the last two passes run on a prepared program and an empty listing
    obtain ⟨-, -, hi, hes⟩ | ⟨-, d, herror, -⟩ := hprepared.runAll_listing hcompleted debug
    · rw [← hrun] at hes
      exact hprepared.symbols hes
    · rw [hrun, herror] at h
      cases h

/-- A struct with an array, a global object, a text, and a function with a loop and a local array. -/
def queueProgram : DeclList :=
  [some (.var {} { ident := "head", tag := .named "Node", kind := .global, init := some (.new "Node" {}) }),
    none,
    some (.struct {} { ident := "Node" }
      [some (.var {} { ident := "next", tag := .named "Node", kind := .field }), none,
        some (.array {} { ident := "slots", tag := .int, kind := .field, dims := [.literal (.int 3) {}] })]),
    some (.data {} { expr := .literal (.string "queue") {} }),
    some (.function {} { ident := "run", tag := .int }
      [some (.var {} { ident := "limit", tag := .int, kind := .param })]
      [.label "again" {} none,
        .block [.declare (.array {}
            { ident := "seen", tag := .named "Node", kind := .localVar, dims := [.name "size" {}] }),
          .goto "again" {} none] {},
        .eval (.name "limit" {}) none, .eval (.literal (.string "done") {}) none]),
    some (.var {}
      { ident := "size", tag := .int, kind := Kind.union .global .const, init := some (.literal (.int 7) {}) })]

theorem compile_symbols_closed_queueProgram :
    queueProgram.isWellFormed = true ∧
    (({} : Compiler).compile queueProgram (Listing.empty true)).outcome = .ok () ∧
    let items := (({} : Compiler).compile queueProgram (Listing.empty true)).backend.items
    (definedBy items).Nodup ∧
      ∀ label ∈ referredBy items, label ∈ definedBy items ∨ label ∈ Symbol.provided := by
  have hwf : queueProgram.isWellFormed = true := by decide
  have hok : (({} : Compiler).compile queueProgram (Listing.empty true)).outcome = .ok () := by
    decide +kernel
  exact ⟨hwf, hok, compile_symbols_closed queueProgram true hwf hok⟩

end UnitCompiler
