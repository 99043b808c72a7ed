import UnitCompiler.Backend

namespace UnitCompiler

/-- The backend that records what it accepts. -/
structure Listing where
  debug : Bool := false
  items : List Emission := []
  defined : List String := []
  inside : Option String := none
deriving Repr

namespace Listing

def empty (debug : Bool) : Listing := { debug }

def size (l : Listing) : Nat :=
  l.items.length

def isEmpty (l : Listing) : Bool :=
  l.items.isEmpty

def defines (l : Listing) (label : String) : Bool :=
  l.defined.contains label

/-- The items from index `start` on. -/
def itemsFrom (l : Listing) (start : Nat) : List Emission :=
  l.items.drop start

/-- Why an emission cannot be recorded: functions do not nest, and a label is defined only once. -/
def refusal? (l : Listing) (e : Emission) : Option BackendError :=
  match e, l.inside with
  | .enter label _, some outer =>
    some (.unbalancedFrame s!"'{label}' entered while '{outer}' is open")
  | .leave _ _, none => some (.unbalancedFrame "leave without enter")
  | e, _ => match e.defines? with
    | some label => if l.defines label then some (.labelRedefined label) else none
    | none => none

/-- The function that is open after an emission. -/
def insideAfter (l : Listing) : Emission → Option String
  | .enter label _ => some label
  | .leave _ _ => none
  | _ => l.inside

def push (l : Listing) (e : Emission) : Listing :=
  { l with
    items := l.items ++ [e]
    defined := l.defined ++ e.defines?.toList
    inside := l.insideAfter e }

/-- Records an emission; a refused one leaves the listing as it was. -/
def accept (l : Listing) (e : Emission) : Except BackendError Unit × Listing :=
  match l.refusal? e with
  | some err => (.error err, l)
  | none => (.ok (), l.push e)

instance : Backend Listing where
  debug := Listing.debug
  accept := accept

def lines (es : List Emission) : List String :=
  es.map Emission.text

def text (l : Listing) : String :=
  String.join ((lines l.items).map (· ++ "\n"))

end Listing

end UnitCompiler
