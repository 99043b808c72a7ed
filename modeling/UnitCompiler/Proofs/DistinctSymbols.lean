import UnitCompiler.Proofs.ScopeTree

namespace UnitCompiler

open Context

namespace Symbol

def runtime (name : String) : String := "__bb" ++ name

/-- What the code of a unit calls and points at outside of it. -/
def ofRuntime : List String :=
  [intType, floatType, stringType, debugEnter, debugLeave, stringConst, stringRelease, stringFromInt,
    stringFromFloat, stringToInt, stringToFloat, objectNew, objectRelease, arrayAlloc, arrayFree]

theorem mem_ofRuntime {label : String} (h : label ∈ ofRuntime) : ∃ name, label = runtime name := by
  have hmap : ofRuntime = ["IntType", "FltType", "StrType", "DebugEnter", "DebugLeave", "StrConst",
    "StrRelease", "StrFromInt", "StrFromFloat", "StrToInt", "StrToFloat", "ObjNew", "ObjRelease", "VecAlloc",
    "VecFree"].map runtime := by decide
  rw [hmap] at h
  obtain ⟨name, -, rfl⟩ := List.mem_map.mp h
  exact ⟨name, rfl⟩

theorem runtime_injective {name name' : String} (h : runtime name = runtime name') : name = name' := by
  have hlist := congrArg String.toList h
  simp only [runtime, String.toList_append] at hlist
  exact String.toList_inj.mp (List.append_cancel_left hlist)

/-- What a symbol is made for, with what it is made of. Functions are told apart by their scopes. -/
inductive Source where
  | function (name : String)
  | struct (name : String)
  | global (name : String)
  | generated (n : Nat)
  | exit (func : ScopeId)
  | jump (func : ScopeId) (name : String)
  | runtime (name : String)
deriving DecidableEq, Repr

namespace Source

def symbol (c : Context) : Source → String
  | .function name => Symbol.function name
  | .struct name => Symbol.struct name
  | .global name => Symbol.global name
  | .generated n => Symbol.generated n
  | .exit func => c.exitSymbol func
  | .jump func name => c.jumpSymbol func name
  | .runtime name => Symbol.runtime name

def Exists (c : Context) : Source → Prop
  | .exit func | .jump func _ => ∃ s, c.scopes[func]? = some s ∧ s.kind = .function
  | .function _ | .struct _ | .global _ | .generated _ | .runtime _ => True

end Source

end Symbol

/-- The second character tells the runtime system's symbols from those of a unit. -/
theorem Origin.text_ne_runtime (o : Origin) (name : String) : o.text ≠ Symbol.runtime name := by
  intro h
  have hsecond := congrArg (fun s : String => s.toList.tail.head?) h
  have hruntime : (Symbol.runtime name).toList.tail.head? = some '_' := by
    rw [Symbol.runtime, String.toList_append]
    rfl
  simp only [hruntime] at hsecond
  cases hn : o.numbered with
  | none =>
    cases o with
    | struct | global | function =>
      simp only [text, Symbol.struct, Symbol.global, Symbol.function, String.toList_append] at hsecond
      exact absurd hsecond (by simp)
    | generated | jump | exit => cases hn
  | some p =>
    rw [text_of_numbered hn, List.tail_cons] at hsecond
    cases hdigits : Nat.toDigits 10 p.1 with
    | nil => exact Nat.toDigits_ne_nil hdigits
    | cons d ds =>
      rw [hdigits, List.cons_append, List.head?_cons] at hsecond
      have hdigit := Origin.digits_isDigit p.1 d (hdigits ▸ List.mem_cons_self)
      rw [Option.some.inj hsecond] at hdigit
      exact absurd hdigit (by decide)

/-- What is known of a function by its scope does not change. -/
theorem Context.CheckSteps.keeps_function {c c' : Context} (h : CheckSteps c c') {e : ScopeId} {s : Scope}
    (hs : c.scopes[e]? = some s) : ∃ s', c'.scopes[e]? = some s' ∧ s'.kind = s.kind ∧ s'.symbol = s.symbol := by
  induction h with
  | refl => exact ⟨s, hs, rfl, rfl⟩
  | @tail c₁ c₂ _ hstep ih =>
    obtain ⟨s₁, hs₁, hkind, hsymbol⟩ := ih
    obtain ⟨hbare, -⟩ | ⟨parent, -, result, rfl⟩ | ⟨parent, hlt, rfl⟩ := hstep.scopes_cases
    · obtain ⟨s₂, hs₂, _, _, _, rfl⟩ := exists_of_map_bare hbare.symm hs₁
      exact ⟨s₂, hs₂, hkind, hsymbol⟩
    · exact ⟨s₁, getElem?_concat_eq_some.mpr (Or.inl hs₁), hkind, hsymbol⟩
    · exact ⟨_, (ScopeTree.getElem?_openBlock hlt).mpr (Or.inl ⟨s₁, hs₁, rfl⟩), hkind, hsymbol⟩

theorem Context.CheckSteps.labels_le {c c' : Context} (h : CheckSteps c c') : c.labels ≤ c'.labels := by
  induction h with
  | refl => exact Nat.le_refl _
  | tail _ hstep ih =>
    obtain ⟨-, hle⟩ | ⟨parent, -, result, rfl⟩ | ⟨parent, -, rfl⟩ := hstep.scopes_cases
    · exact Nat.le_trans ih hle
    · exact Nat.le_succ_of_le ih
    · exact ih

namespace Symbol.Source

variable {c : Context}

/-- A function's symbols are built on the label of its own scope. -/
theorem symbol_of_function {func : ScopeId} {s : Scope} (hs : c.scopes[func]? = some s) (hkind : s.kind = .function) :
    c.exitSymbol func = Symbol.exit s.symbol ∧ ∀ name, c.jumpSymbol func name = Symbol.inFunction s.symbol name := by
  have hself : c.functionOf func = func := (Within.here hs hkind).functionOf
  refine ⟨?_, fun name => ?_⟩
  · rw [exitSymbol, hself, scope_eq hs]
  · rw [jumpSymbol, hself, scope_eq hs]

/-- The symbol of a source stays the same, whatever is done later. -/
theorem symbol_stable {c' : Context} (h : CheckSteps c c') {a : Source} (ha : a.Exists c) :
    a.Exists c' ∧ a.symbol c' = a.symbol c := by
  cases a with
  | function | struct | global | generated | runtime => exact ⟨trivial, rfl⟩
  | exit func =>
    obtain ⟨s, hs, hkind⟩ := ha
    obtain ⟨s', hs', hkind', hsymbol⟩ := h.keeps_function hs
    refine ⟨⟨s', hs', hkind'.trans hkind⟩, ?_⟩
    simp only [symbol, (symbol_of_function hs hkind).1, (symbol_of_function hs' (hkind'.trans hkind)).1, hsymbol]
  | jump func name =>
    obtain ⟨s, hs, hkind⟩ := ha
    obtain ⟨s', hs', hkind', hsymbol⟩ := h.keeps_function hs
    refine ⟨⟨s', hs', hkind'.trans hkind⟩, ?_⟩
    simp only [symbol, (symbol_of_function hs hkind).2, (symbol_of_function hs' (hkind'.trans hkind)).2, hsymbol]

inductive Stands (c : Context) : Source → Origin → Prop
  | function (name : String) : Stands c (.function name) (.function name)
  | struct (name : String) : Stands c (.struct name) (.struct name)
  | global (name : String) : Stands c (.global name) (.global name)
  | generated (n : Nat) : Stands c (.generated n) (.generated n)
  | exit {func : ScopeId} {s : Scope} {n : Nat} (hs : c.scopes[func]? = some s) (hkind : s.kind = .function)
      (hsymbol : s.symbol = Symbol.generated n) : Stands c (.exit func) (.exit n)
  | jump {func : ScopeId} {s : Scope} {n : Nat} (hs : c.scopes[func]? = some s) (hkind : s.kind = .function)
      (hsymbol : s.symbol = Symbol.generated n) (name : String) : Stands c (.jump func name) (.jump n name)

theorem Stands.symbol_eq {a : Source} {o : Origin} (h : Stands c a o) : a.symbol c = o.text := by
  cases h with
  | function | struct | global | generated => rfl
  | exit hs hkind hsymbol => rw [symbol, (symbol_of_function hs hkind).1, hsymbol, Origin.text]
  | jump hs hkind hsymbol => rw [symbol, (symbol_of_function hs hkind).2, hsymbol, Origin.text]

theorem Stands.eq (hc : ScopeTree c.scopes c.labels) {a b : Source} {o : Origin} (ha : Stands c a o)
    (hb : Stands c b o) : a = b := by
  cases ha with
  | function | struct | global | generated => cases hb; rfl
  | exit hs hkind hsymbol =>
    cases hb with
    | exit hs' hkind' hsymbol' => rw [hc.distinct hs hkind hs' hkind' (hsymbol.trans hsymbol'.symm)]
  | jump hs hkind hsymbol =>
    cases hb with
    | jump hs' hkind' hsymbol' => rw [hc.distinct hs hkind hs' hkind' (hsymbol.trans hsymbol'.symm)]

theorem exists_origin (hc : ScopeTree c.scopes c.labels) {a : Source} (ha : a.Exists c) :
    (∃ name, a = .runtime name) ∨ ∃ o, Stands c a o := by
  cases a with
  | function name => exact Or.inr ⟨_, .function name⟩
  | struct name => exact Or.inr ⟨_, .struct name⟩
  | global name => exact Or.inr ⟨_, .global name⟩
  | generated n => exact Or.inr ⟨_, .generated n⟩
  | runtime name => exact Or.inl ⟨name, rfl⟩
  | exit func =>
    obtain ⟨s, hs, hkind⟩ := ha
    obtain ⟨n, -, hsymbol⟩ := hc.numbered hs hkind
    exact Or.inr ⟨_, .exit hs hkind hsymbol⟩
  | jump func name =>
    obtain ⟨s, hs, hkind⟩ := ha
    obtain ⟨n, -, hsymbol⟩ := hc.numbered hs hkind
    exact Or.inr ⟨_, .jump hs hkind hsymbol name⟩

theorem symbol_injective (hc : ScopeTree c.scopes c.labels) {a b : Source} (ha : a.Exists c) (hb : b.Exists c)
    (h : a.symbol c = b.symbol c) : a = b := by
  obtain ⟨name, rfl⟩ | ⟨o, ho⟩ := exists_origin hc ha
  · obtain ⟨name', rfl⟩ | ⟨o', ho'⟩ := exists_origin hc hb
    · rw [runtime_injective h]
    · exact absurd (ho'.symbol_eq.symm.trans h.symm) (o'.text_ne_runtime name)
  · obtain ⟨name', rfl⟩ | ⟨o', ho'⟩ := exists_origin hc hb
    · exact absurd (ho.symbol_eq.symm.trans h) (o.text_ne_runtime name')
    · have hsame : o = o' := Origin.text_injective (ho.symbol_eq.symm.trans (h.trans ho'.symbol_eq))
      exact ho.eq hc (hsame ▸ ho')

end Symbol.Source

/-- Two symbols of a unit, made at any two times, are equal only if they are made for the same thing, and no label
is handed out twice. -/
theorem symbols_distinct {c c' : Context} (h : Run .initial c) (h' : Run c c') :
    (∀ a b : Symbol.Source, a.Exists c → b.Exists c' → (a.symbol c = b.symbol c' ↔ a = b)) ∧
    (∀ label ∈ Symbol.ofRuntime, ∃ name, label = Symbol.runtime name) ∧
    (∀ {func : ScopeId} {s : Scope}, c.scopes[func]? = some s → s.kind = .function →
      c'.freshLabel.1 ≠ s.symbol) ∧
    ∀ {later : Context}, Run c.freshLabel.2 later → later.freshLabel.1 ≠ c.freshLabel.1 := by
  have hrun : Run .initial c' := h.trans h'
  have hlabels := h'.steps.labels_le
  refine ⟨?_, fun _ => Symbol.mem_ofRuntime, ?_, ?_⟩
  · intro a b ha hb
    obtain ⟨ha', hsymbol⟩ := Symbol.Source.symbol_stable h'.steps ha
    constructor
    · intro heq
      exact Symbol.Source.symbol_injective hrun.scopeTree ha' hb (hsymbol.trans heq)
    · rintro rfl
      exact hsymbol.symm
  · intro func s hs hkind heq
    obtain ⟨n, hn, hsymbol⟩ := h.scopeTree.numbered hs hkind
    have hsame := Symbol.generated_injective (heq.trans hsymbol)
    omega
  · intro later hlater heq
    have hle : c.labels + 1 ≤ later.labels := hlater.steps.labels_le
    have hsame := Symbol.generated_injective heq
    omega

def leaveLabels : DeclList :=
  [some (.function {} { ident := "1", tag := .int } [] [
    .label "leave" {} none,
    .declare (.function {} { ident := "1_leave", tag := .int } [] [.label "l_leave" {} none]),
    .label "eave" {} none])]

theorem symbols_distinct_leaveLabels :
    Run .initial leaveLabels.checkedContext ∧
    Run leaveLabels.checkedContext leaveLabels.checkedContext.freshLabel.2 ∧
    (Symbol.Source.exit 1).Exists leaveLabels.checkedContext ∧
    (Symbol.Source.jump 2 "l_leave").Exists leaveLabels.checkedContext.freshLabel.2 ∧
    leaveLabels.checkedContext.exitSymbol 1 ≠ leaveLabels.checkedContext.freshLabel.2.jumpSymbol 2 "l_leave" ∧
    ∀ name, leaveLabels.checkedContext.exitSymbol 1 ≠
      leaveLabels.checkedContext.freshLabel.2.jumpSymbol 1 name := by
  have hrun := leaveLabels.run_checkedContext
  have hlater : Run leaveLabels.checkedContext leaveLabels.checkedContext.freshLabel.2 :=
    .single (.step (.register (.label _)))
  have hkinds : leaveLabels.checkedContext.scopes.map Scope.kind = [.unit, .function, .function] := by
    decide +kernel
  have hfunction : ∀ func ∈ [1, 2], ∃ s, leaveLabels.checkedContext.scopes[func]? = some s ∧
      s.kind = .function := by
    intro func hfunc
    have hkind : (leaveLabels.checkedContext.scopes.map Scope.kind)[func]? = some .function := by
      rw [hkinds]
      revert func
      decide
    rw [List.getElem?_map] at hkind
    exact Option.map_eq_some_iff.mp hkind
  have hexit := hfunction 1 (by decide)
  have hjump := hfunction 2 (by decide)
  obtain ⟨hdistinct, -⟩ := symbols_distinct hrun hlater
  refine ⟨hrun, hlater, hexit, hjump, ?_, ?_⟩
  · intro heq
    cases (hdistinct (.exit 1) (.jump 2 "l_leave") hexit hjump).mp heq
  · intro name heq
    cases (hdistinct (.exit 1) (.jump 1 name) hexit hexit).mp heq

end UnitCompiler
