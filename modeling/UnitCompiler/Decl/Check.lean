import UnitCompiler.Decl.Register

namespace UnitCompiler

namespace FunctionHead

/-- Opens the scope of a function and declares its parameters there. -/
def enter (f : FunctionHead) (env : ScopeId) : CheckM ScopeId := do
  match f.ty with
  | none => throw (.unregistered s!"function '{f.ident}'")
  | some ty =>
    match (← get).types.get? ty with
    | some (.function result params) =>
      let scope ← CheckM.change fun c => c.openFunction env result
      params.records.forM fun p =>
        CheckM.insert (.scope scope) { name := p.name, ty := p.ty, kind := p.kind } "identifier"
      pure scope
    | _ => throw (.released "function")

end FunctionHead

namespace Decl

/-- Checks a declaration; `runBody` checks the statements of a function in the scope it is given. -/
def checkWith (env : ScopeId) (runBody : ScopeId → SessionM (Visited (List Stmt))) : Decl → SessionM (Visited Decl)
  | .function site head params body => do
    match ← Session.attempt (head.enter env) with
    | .error e => pure ⟨.function site head params body, .error e⟩
    | .ok scope =>
      let visited ← runBody scope
      pure ⟨.function site { head with env := some scope } params visited.node, visited.outcome⟩
  | .struct site head fields => do
    match head.ty with
    | none => pure ⟨.struct site head fields, .error (.unregistered s!"struct '{head.ident}'")⟩
    | some ty =>
      let visited ← DeclList.register env (.fields ty) fields
      match visited.outcome with
      | .error e => pure ⟨.struct site head visited.node, .error e⟩
      | .ok () =>
        let outcome ← Session.attempt
          (CheckM.change? fun c => c.layOutFields ty (UInt32.ofNat wordSize))
        pure ⟨.struct site head visited.node, outcome⟩
  | d => pure ⟨d, .ok ()⟩

end Decl

mutual

/-- Checks the statements of a function; other declarations have none. -/
def Decl.checkBody : Decl → ScopeId → SessionM (Visited (List Stmt))
  | .function _ _ _ body, env => Stmt.checkAll body env
  | _, _ => pure ⟨[], .ok ()⟩

/-- Checks a statement in a scope. Registration leaves the body of a declaration alone, so the body
comes from the declaration as it was before. -/
def Stmt.check : Stmt → ScopeId → SessionM (Visited Stmt)
  | .declare d, env => do
    let registered ← d.register env (.scope env)
    match registered.outcome with
    | .error e => pure ⟨.declare registered.node, .error (d.stamp e)⟩
    | .ok () =>
      let checked ← registered.node.checkWith env fun scope => Decl.checkBody d scope
      pure ⟨.declare checked.node, checked.outcome.mapError d.stamp⟩
  | .block body span, env => do
    let scope ← modifyGet fun (s : Session) =>
      ((s.context.openBlock env).1, { s with context := (s.context.openBlock env).2 })
    let visited ← Stmt.checkAll body scope
    pure ⟨.block visited.node span, visited.outcome⟩
  | .goto label span _, env => do
    modify fun s => { s with context := s.context.noteJump env label span }
    pure ⟨.goto label span (some env), .ok ()⟩
  | .label name span old, env =>
    Visited.leaf (.label name span old) (fun _ => .label name span (some env))
      (CheckM.change? fun c => c.placeLabel env name span)
  | .eval e old, env =>
    Visited.leaf (.eval e old) (fun v => .eval e (some v)) fun c =>
      CheckM.ofExcept (e.check c env) c

/-- Checks statements in order, up to the first that fails. -/
def Stmt.checkAll : List Stmt → ScopeId → SessionM (Visited (List Stmt))
  | [], _ => pure ⟨[], .ok ()⟩
  | stmt :: rest, env => do
    let here ← Stmt.check stmt env
    match here.outcome with
    | .error e => pure ⟨here.node :: rest, .error (e.withPosition stmt.span)⟩
    | .ok () =>
      let visited ← Stmt.checkAll rest env
      pure ⟨here.node :: visited.node, visited.outcome⟩

end

/-- Checks the fields of a struct or the body of a function. -/
def Decl.check (env : ScopeId) (d : Decl) : SessionM (Visited Decl) :=
  d.checkWith env d.checkBody

/-- Checks every declaration of a sequence from slot `index` on, up to the first that fails. -/
def DeclList.checkFrom (env : ScopeId) (index : Nat) : DeclList → SessionM (Visited DeclList)
  | [] => pure ⟨[], .ok ()⟩
  | none :: rest => do
    let visited ← DeclList.checkFrom env (index + 1) rest
    pure ⟨none :: visited.node, visited.outcome⟩
  | some d :: rest => do
    Session.log (.visited .check index d.noun)
    let here ← d.check env
    match here.outcome with
    | .error e =>
      let e ← DeclList.report .check d e
      pure ⟨some here.node :: rest, .error e⟩
    | .ok () =>
      let visited ← DeclList.checkFrom env (index + 1) rest
      pure ⟨some here.node :: visited.node, visited.outcome⟩

def DeclList.check (env : ScopeId) (seq : DeclList) : SessionM (Visited DeclList) :=
  DeclList.checkFrom env 0 seq

end UnitCompiler
