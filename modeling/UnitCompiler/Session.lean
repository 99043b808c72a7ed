import UnitCompiler.Context
import UnitCompiler.Event

namespace UnitCompiler

/-- A computation on a context that may fail. What it changed before the failure stays changed. -/
abbrev CheckM := EStateM Diagnostic Context

namespace CheckM

def ofExcept {α : Type} (x : Except Diagnostic α) : CheckM α := fun c =>
  match x with
  | .ok a => .ok a c
  | .error d => .error d c

/-- Runs an operation of the context that yields a new context. -/
def change {α : Type} (f : Context → α × Context) : CheckM α := fun c =>
  .ok (f c).1 (f c).2

def change? (f : Context → Except Diagnostic Context) : CheckM Unit := fun c =>
  match f c with
  | .ok c' => .ok () c'
  | .error d => .error d c

def insert (target : Target) (r : Record) (what : String) : CheckM Unit := fun c =>
  match c.insert target r what with
  | .ok (_, c') => .ok () c'
  | .error d => .error d c

/-- Declares a record; if that fails, the types from `mark` on are given back. -/
def insertOrRelease (mark : Nat) (target : Target) (r : Record) (what : String) : CheckM Unit :=
  fun c =>
    match c.insert target r what with
    | .ok (_, c') => .ok () c'
    | .error d => .error d (c.release mark)

end CheckM

/-- A context and the log of what was done to it. -/
structure Session where
  context : Context := .initial
  events : List Event := []
deriving Repr

/-- What a pass makes of a node. The node is there after a failure too, as far as the pass came. -/
structure Visited (ν : Type) where
  node : ν
  outcome : Except Diagnostic Unit

/-- A computation on a session. -/
abbrev SessionM := StateM Session

namespace Session

def log (e : Event) : SessionM Unit :=
  modify fun s => { s with events := s.events ++ [e] }

def attempt {α : Type} (x : CheckM α) : SessionM (Except Diagnostic α) := fun s =>
  match x s.context with
  | .ok a c => (.ok a, { s with context := c })
  | .error d c => (.error d, { s with context := c })

end Session

/-- A node without parts to visit changes only if the computation succeeds. -/
def Visited.leaf {ν α : Type} (old : ν) (wrap : α → ν) (x : CheckM α) : SessionM (Visited ν) := do
  match ← Session.attempt x with
  | .ok a => pure ⟨wrap a, .ok ()⟩
  | .error d => pure ⟨old, .error d⟩

end UnitCompiler
