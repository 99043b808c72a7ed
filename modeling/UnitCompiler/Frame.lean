import UnitCompiler.Context
import UnitCompiler.Ir

namespace UnitCompiler

/-- The place of a variable relative to the frame pointer. -/
structure Slot where
  env : ScopeId
  name : String
  ty : TypeId
  offset : Int
  isParam : Bool
deriving DecidableEq, Repr

/-- The storage of one function. -/
structure Frame where
  slots : List Slot
deriving DecidableEq, Repr

namespace Frame

/-- The offset of the first parameter, above the saved frame pointer and the return address. -/
def paramBase : Int := 8

/-- A scope and the blocks inside it, each before its own blocks. -/
def blockTree (scopes : List Scope) : Nat → ScopeId → List ScopeId
  | 0, _ => []
  | fuel + 1, env => env :: (scopes[env]?.getD .unit).children.flatMap (blockTree scopes fuel)

/-- The records of a scope that need a place in the frame. -/
def stored (c : Context) (env : ScopeId) : List (ScopeId × Record) :=
  ((c.scope env).decls.records.filter fun r =>
    r.kind.isStored && !c.types.isConst r.ty && r.kind.meets (Kind.union .param .localVar)).map
      fun r => (env, r)

/-- Parameters go up from `paramBase`, other variables down from the frame pointer. -/
def place (params locals : Nat) : List (ScopeId × Record) → List Slot
  | [] => []
  | (env, r) :: rest =>
    if r.kind.has .param then
      ⟨env, r.name, r.ty, paramBase + wordSize * params, true⟩ :: place (params + 1) locals rest
    else
      ⟨env, r.name, r.ty, -(wordSize * (locals + 1)), false⟩ :: place params (locals + 1) rest

/-- A block is younger than the scope around it, so the number of scopes bounds the depth. -/
def layout (c : Context) (env : ScopeId) : Frame :=
  ⟨place 0 0 ((blockTree c.scopes (c.scopes.length + 1) env).flatMap (stored c))⟩

def locals (f : Frame) : List Slot :=
  f.slots.filter fun s => !s.isParam

def params (f : Frame) : List Slot :=
  f.slots.filter Slot.isParam

/-- The bytes below the frame pointer. -/
def size (f : Frame) : Nat :=
  f.locals.length * wordSize

/-- The bytes of arguments that a call pushes. -/
def argBytes (f : Frame) : Nat :=
  f.params.length * wordSize

def offset? (f : Frame) (env : ScopeId) (name : String) : Option Int :=
  (f.slots.find? fun s => s.env == env && s.name == name).map Slot.offset

/-- Texts start empty and arrays are allocated on entry. -/
def slotEntry (types : Arena) (s : Slot) : Option Ir :=
  match types.get? s.ty with
  | some .string => some (.store (.slot s.offset) (.const 0))
  | some (.array label _ _) =>
    some (.store (.slot s.offset) (.call Symbol.arrayAlloc [.global label]))
  | _ => none

/-- Texts, objects and arrays are given back on exit. -/
def slotExit (types : Arena) (s : Slot) : Option Ir :=
  match types.get? s.ty with
  | some .string => some (.call Symbol.stringRelease [.slot s.offset])
  | some (.struct _ _) => some (.call Symbol.objectRelease [.slot s.offset])
  | some (.array label _ _) => some (.call Symbol.arrayFree [.slot s.offset, .global label])
  | _ => none

def entryCode (f : Frame) (types : Arena) : Option Ir :=
  Ir.ofList (f.locals.filterMap (slotEntry types))

def exitCode (f : Frame) (types : Arena) : Option Ir :=
  Ir.ofList (f.locals.filterMap (slotExit types))

end Frame

end UnitCompiler
