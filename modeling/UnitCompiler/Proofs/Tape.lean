import UnitCompiler.Proofs.Simulation
import Mathlib.Data.List.Induction

namespace UnitCompiler

mutual

def Ir.labels : Ir → List String
  | .global label => [label]
  | .jump label => [label]
  | .mem addr => Ir.labels addr
  | .store target value => Ir.labels target ++ Ir.labels value
  | .call _ args => Ir.labelsOfAll args
  | .intToFloat value => Ir.labels value
  | .floatToInt value => Ir.labels value
  | .seq nodes => Ir.labelsOfAll nodes
  | .const _ | .slot _ | .framePointer => []

def Ir.labelsOfAll : List Ir → List String
  | [] => []
  | node :: rest => Ir.labels node ++ Ir.labelsOfAll rest

end

theorem Ir.mem_labelsOfAll {l : String} {nodes : List Ir} :
    l ∈ Ir.labelsOfAll nodes ↔ ∃ node ∈ nodes, l ∈ node.labels := by
  induction nodes with
  | nil => simp [Ir.labelsOfAll]
  | cons node rest ih => simp [Ir.labelsOfAll, ih]

theorem Ir.mem_labels_ofList {l : String} {nodes : List Ir} {tree : Ir}
    (htree : Ir.ofList nodes = some tree) (hl : l ∈ tree.labels) : ∃ node ∈ nodes, l ∈ node.labels := by
  match nodes, htree with
  | [node], htree =>
    cases htree
    exact ⟨tree, List.mem_cons_self, hl⟩
  | node :: node' :: rest, htree =>
    cases htree
    exact Ir.mem_labelsOfAll.mp hl

/-- The labels in the code on the way into a function are those of array types. -/
theorem Frame.exists_array_of_entryCode {frame : Frame} {types : Arena} {tree : Ir}
    (htree : frame.entryCode types = some tree) {l : String} (hl : l ∈ tree.labels) :
    ∃ id element sizes, types.get? id = some (.array l element sizes) := by
  obtain ⟨node, hnode, hl⟩ := Ir.mem_labels_ofList htree hl
  obtain ⟨slot, -, hslot⟩ := List.mem_filterMap.mp hnode
  unfold Frame.slotEntry at hslot
  split at hslot
  · cases hslot
    simp [Ir.labels] at hl
  · rename_i label element sizes hget
    cases hslot
    obtain rfl : l = label := by simpa [Ir.labels, Ir.labelsOfAll] using hl
    exact ⟨slot.ty, element, sizes, hget⟩
  · cases hslot

theorem Frame.exists_array_of_exitCode {frame : Frame} {types : Arena} {tree : Ir}
    (htree : frame.exitCode types = some tree) {l : String} (hl : l ∈ tree.labels) :
    ∃ id element sizes, types.get? id = some (.array l element sizes) := by
  obtain ⟨node, hnode, hl⟩ := Ir.mem_labels_ofList htree hl
  obtain ⟨slot, -, hslot⟩ := List.mem_filterMap.mp hnode
  unfold Frame.slotExit at hslot
  split at hslot
  · cases hslot
    simp [Ir.labels, Ir.labelsOfAll] at hl
  · cases hslot
    simp [Ir.labels, Ir.labelsOfAll] at hl
  · rename_i label element sizes hget
    cases hslot
    obtain rfl : l = label := by simpa [Ir.labels, Ir.labelsOfAll] using hl
    exact ⟨slot.ty, element, sizes, hget⟩
  · cases hslot

namespace Emission

def refers : Emission → List String
  | .pointer symbol => [symbol]
  | .code tree => tree.labels
  | .leave (some teardown) _ => teardown.labels
  | _ => []

/-- Whether a function is open after the item; functions do not nest. -/
def nest (inside : Bool) : Emission → Option Bool
  | .enter _ _ => if inside then none else some true
  | .leave _ _ => if inside then some false else none
  | _ => some inside

end Emission

/-- The descriptors that the runtime provides. -/
def Symbol.provided : List String :=
  [Symbol.intType, Symbol.floatType, Symbol.stringType]

def definedBy (es : List Emission) : List String :=
  es.filterMap Emission.defines?

def referredBy (es : List Emission) : List String :=
  es.flatMap Emission.refers

@[simp] theorem definedBy_append (es es' : List Emission) :
    definedBy (es ++ es') = definedBy es ++ definedBy es' :=
  List.filterMap_append

@[simp] theorem referredBy_append (es es' : List Emission) :
    referredBy (es ++ es') = referredBy es ++ referredBy es' :=
  List.flatMap_append

/-- A backend that takes every item. -/
structure Tape where
  debug : Bool
  items : List Emission := []

instance : Backend Tape where
  debug := Tape.debug
  accept t e := (.ok (), { t with items := t.items ++ [e] })

namespace Listing

/-- The listing that holds the given items, taken without a look at them. -/
def recording (debug : Bool) (es : List Emission) : Listing :=
  es.foldl push (empty debug)

def Accepts (debug : Bool) (es : List Emission) : Prop :=
  ∀ before e later, es = before ++ e :: later → (recording debug before).refusal? e = none

@[simp] theorem recording_concat (debug : Bool) (es : List Emission) (e : Emission) :
    recording debug (es ++ [e]) = (recording debug es).push e := by
  simp [recording]

@[simp] theorem recording_items (debug : Bool) (es : List Emission) : (recording debug es).items = es := by
  induction es using List.reverseRecOn with
  | nil => rfl
  | append_singleton es e ih => simp [push, ih]

@[simp] theorem recording_debug (debug : Bool) (es : List Emission) : (recording debug es).debug = debug := by
  induction es using List.reverseRecOn with
  | nil => rfl
  | append_singleton es e ih => simp [push, ih]

@[simp] theorem recording_defined (debug : Bool) (es : List Emission) :
    (recording debug es).defined = definedBy es := by
  induction es using List.reverseRecOn with
  | nil => rfl
  | append_singleton es e ih =>
    rw [recording_concat, definedBy_append]
    simp only [push, ih]
    cases h : e.defines? <;> simp [definedBy, h]

theorem recording_inside {debug : Bool} {es : List Emission} {inside : Bool}
    (h : es.foldlM Emission.nest false = some inside) :
    (recording debug es).inside.isSome = inside := by
  induction es using List.reverseRecOn generalizing inside with
  | nil =>
    cases h
    rfl
  | append_singleton es e ih =>
    rw [List.foldlM_append] at h
    obtain ⟨b, hb, he⟩ := Option.bind_eq_some_iff.mp h
    have hprev := ih hb
    rw [recording_concat]
    cases e <;> simp_all [push, insideAfter, Emission.nest]

/-- An item is taken if its label is new and it fits the open function. -/
theorem refusal?_eq_none_iff {l : Listing} {e : Emission} :
    l.refusal? e = none ↔
      (∀ label, e.defines? = some label → label ∉ l.defined) ∧ (e.nest l.inside.isSome).isSome := by
  cases e with
  | word value symbol => cases symbol <;> simp [refusal?, Emission.nest, Emission.defines?, defines]
  | enter symbol size =>
    cases hi : l.inside <;> simp [refusal?, hi, Emission.nest, Emission.defines?, defines]
  | leave teardown bytes =>
    cases hi : l.inside <;> simp [refusal?, hi, Emission.nest, Emission.defines?]
  | align | pointer | string | label | code =>
    simp [refusal?, Emission.nest, Emission.defines?, defines]

/-- Items with labels of their own and functions that do not nest are all taken. -/
theorem accepts_of_nodup {debug : Bool} {es : List Emission} {inside : Bool}
    (hlabels : (definedBy es).Nodup) (hnest : es.foldlM Emission.nest false = some inside) :
    Accepts debug es := by
  rintro before e later rfl
  rw [List.foldlM_append] at hnest
  obtain ⟨b, hb, hrest⟩ := Option.bind_eq_some_iff.mp hnest
  rw [List.foldlM_cons] at hrest
  obtain ⟨b', he, -⟩ := Option.bind_eq_some_iff.mp hrest
  refine refusal?_eq_none_iff.mpr ⟨?_, ?_⟩
  · intro label hlabel hmem
    rw [recording_defined] at hmem
    rw [definedBy_append] at hlabels
    have hdisj := (List.nodup_append.mp hlabels).2.2
    apply hdisj label hmem label
    · simp [definedBy, hlabel]
    · rfl
  · rw [recording_inside hb, he]
    rfl

theorem accepts_concat {debug : Bool} {es : List Emission} {e : Emission} (h : Accepts debug es)
    (he : (recording debug es).refusal? e = none) : Accepts debug (es ++ [e]) := by
  intro before x later heq
  rw [List.append_eq_append_iff] at heq
  obtain ⟨more, rfl, hlast⟩ | ⟨more, rfl, hlast⟩ := heq
  · obtain ⟨rfl, hrest⟩ | ⟨more, rfl, hrest⟩ := List.cons_eq_append_iff.mp hlast
    · cases hrest
      rwa [List.append_nil]
    · cases List.append_eq_nil_iff.mp hrest.symm |>.2
  · cases more with
    | nil =>
      cases hlast
      rwa [List.append_nil] at he
    | cons y more =>
      cases hlast
      exact h before _ more rfl

/-- Only such items are all taken. -/
theorem accepts_iff {debug : Bool} {es : List Emission} :
    Accepts debug es ↔ (definedBy es).Nodup ∧ (es.foldlM Emission.nest false).isSome = true := by
  refine ⟨fun h => ?_, fun ⟨hlabels, hnest⟩ => ?_⟩
  · induction es using List.reverseRecOn with
    | nil => exact ⟨List.nodup_nil, rfl⟩
    | append_singleton es e ih =>
      have hbefore : Accepts debug es := fun before x later heq =>
        h before x (later ++ [e]) (by rw [heq, List.append_assoc, List.cons_append])
      obtain ⟨hlabels, hnest⟩ := ih hbefore
      obtain ⟨inside, hinside⟩ := Option.isSome_iff_exists.mp hnest
      obtain ⟨hnew, hfits⟩ := refusal?_eq_none_iff.mp (h es e [] rfl)
      rw [recording_defined] at hnew
      rw [recording_inside hinside] at hfits
      constructor
      · rw [definedBy_append]
        cases he : e.defines? with
        | none => simpa [definedBy, he] using hlabels
        | some label =>
          rw [show definedBy [e] = [label] by simp [definedBy, he]]
          exact List.nodup_append.mpr ⟨hlabels, List.nodup_singleton _, fun a ha b hb heq =>
            hnew label he (List.mem_singleton.mp hb ▸ heq ▸ ha)⟩
      · obtain ⟨after, hafter⟩ := Option.isSome_iff_exists.mp hfits
        rw [List.foldlM_append, hinside, Option.bind_eq_bind, Option.bind_some, List.foldlM_cons, hafter]
        rfl
  · obtain ⟨inside, hinside⟩ := Option.isSome_iff_exists.mp hnest
    exact accepts_of_nodup hlabels hinside

/-- Whatever is sent, a listing holds what it has taken. -/
theorem accepts_of_sent {debug : Bool} {l : Listing} (h : Emitter.Sent (empty debug) l) :
    l = recording debug l.items ∧ Accepts debug l.items := by
  induction h with
  | refl => exact ⟨rfl, fun before e later heq => by simp [empty] at heq⟩
  | @tail l _ _ hstep ih =>
    obtain ⟨e, rfl⟩ := hstep
    obtain ⟨hl, hitems⟩ := ih
    change (l.accept e).2 = recording debug (l.accept e).2.items ∧ Accepts debug (l.accept e).2.items
    unfold accept
    cases he : l.refusal? e with
    | some err => exact ⟨hl, hitems⟩
    | none =>
      change l.push e = recording debug (l.items ++ [e]) ∧ Accepts debug (l.items ++ [e])
      rw [recording_concat, ← hl]
      exact ⟨rfl, accepts_concat hitems (hl ▸ he)⟩

/-- A listing is in step with a tape that holds the same items, until it refuses one. -/
theorem tape_simulation :
    Backend.Simulation (fun (l : Listing) (t : Tape) => l = recording t.debug t.items)
      fun _ t => ¬ Accepts t.debug t.items where
  debug := by
    rintro l t rfl
    exact recording_debug t.debug t.items
  accept := by
    rintro l t rfl e
    change ((accept (recording t.debug t.items) e).1 = .ok () ∧
        (accept (recording t.debug t.items) e).2 = recording t.debug (t.items ++ [e])) ∨
      (∃ err, (accept (recording t.debug t.items) e).1 = .error err) ∧
        ¬ Accepts t.debug (t.items ++ [e])
    unfold accept
    cases h : (recording t.debug t.items).refusal? e with
    | none => exact Or.inl ⟨rfl, (recording_concat t.debug t.items e).symm⟩
    | some err =>
      refine Or.inr ⟨⟨err, rfl⟩, fun hacc => ?_⟩
      have hnone := hacc t.items e [] rfl
      rw [h] at hnone
      cases hnone
  lost := by
    -- what is not acceptable does not become so by one more item
    intro l t hlost e hacc
    apply hlost
    rintro before x later hitems
    apply hacc before x (later ++ [e])
    change t.items ++ [e] = _
    rw [hitems]
    simp

end Listing

/-- A compilation into a listing is the one onto a tape, if the tape's items are acceptable. -/
theorem Compiler.runAll_listing (c : Compiler) (program : DeclList) (debug : Bool)
    (passes : List Pass)
    (h : Listing.Accepts (c.runAll program (⟨debug, []⟩ : Tape) passes).backend.debug
      (c.runAll program (⟨debug, []⟩ : Tape) passes).backend.items) :
    (c.runAll program (Listing.empty debug) passes).InStep
      (fun l t => l = Listing.recording t.debug t.items)
      (c.runAll program (⟨debug, []⟩ : Tape) passes) := by
  obtain hstep | ⟨_, -, -, hlost⟩ := c.runAll_follows Listing.tape_simulation program
    (show Listing.empty debug = Listing.recording debug [] from rfl) (g := ⟨debug, []⟩) passes
  · exact hstep
  · exact absurd h hlost

end UnitCompiler
