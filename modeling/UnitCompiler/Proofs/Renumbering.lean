import UnitCompiler.Proofs.Origins
import UnitCompiler.Proofs.Tape
import Mathlib.Order.Monotone.Basic

namespace UnitCompiler

namespace Symbol

def number? (label : String) : Option Nat :=
  let n := Nat.ofDigitChars 10 label.toList.tail 0
  if generated n = label then some n else none

/-- Gives a generated label another number; every other label stays. -/
def renumber (lab : Nat → Nat) (label : String) : String :=
  match number? label with
  | some n => generated (lab n)
  | none => label

def UpTo (n : Nat) (label : String) : Prop :=
  ∀ k, label = generated k → k ≤ n

@[simp] theorem number?_generated (n : Nat) : number? (generated n) = some n := by
  simp [number?]

theorem eq_of_number? {label : String} {n : Nat} (h : number? label = some n) : label = generated n := by
  unfold number? at h
  dsimp only at h
  split at h
  · rename_i hgenerated
    rw [← Option.some.inj h, hgenerated]
  · cases h

@[simp] theorem renumber_generated (lab : Nat → Nat) (n : Nat) : renumber lab (generated n) = generated (lab n) := by
  simp [renumber]

theorem renumber_of_forall_ne {label : String} (h : ∀ n, label ≠ generated n) (lab : Nat → Nat) :
    renumber lab label = label := by
  unfold renumber
  split
  · rename_i n hn
    exact absurd (eq_of_number? hn) (h n)
  · rfl

/-- Either the label has a number, or it is left alone. -/
theorem generated_cases (label : String) : (∃ n, label = generated n) ∨ ∀ n, label ≠ generated n := by
  by_cases h : ∃ n, label = generated n
  · exact Or.inl h
  · exact Or.inr (not_exists.mp h)

theorem renumber_eq_self {lab : Nat → Nat} {n : Nat} (hlab : ∀ k ≤ n, lab k = k) {label : String}
    (h : UpTo n label) : renumber lab label = label := by
  obtain ⟨k, rfl⟩ | hne := generated_cases label
  · simp [hlab k (h k rfl)]
  · exact renumber_of_forall_ne hne lab

theorem renumber_injective {lab : Nat → Nat} (hlab : Function.Injective lab) :
    Function.Injective (renumber lab) := by
  intro label label' h
  obtain ⟨k, rfl⟩ | hne := generated_cases label
  · obtain ⟨k', rfl⟩ | hne' := generated_cases label'
    · rw [renumber_generated, renumber_generated] at h
      rw [hlab (generated_injective h)]
    · rw [renumber_generated, renumber_of_forall_ne hne'] at h
      exact absurd h.symm (hne' _)
  · obtain ⟨k', rfl⟩ | hne' := generated_cases label'
    · rw [renumber_generated, renumber_of_forall_ne hne] at h
      exact absurd h (hne _)
    · rwa [renumber_of_forall_ne hne, renumber_of_forall_ne hne'] at h

/-- A generated label has nothing but an underscore and digits. -/
theorem ne_generated_of_mem {label : String} (ch : Char) (hmem : ch ∈ label.toList)
    (hdigit : ch.isDigit = false) (hunderscore : ch ≠ '_') (n : Nat) : label ≠ generated n := by
  rintro rfl
  rw [Origin.toList_generated] at hmem
  obtain heq | hmem := List.mem_cons.mp hmem
  · exact hunderscore heq
  · rw [Origin.digits_isDigit n ch hmem] at hdigit
    cases hdigit

theorem struct_ne_generated (name : String) (n : Nat) : struct name ≠ generated n := by
  refine ne_generated_of_mem 't' ?_ (by decide) (by decide) n
  simp [struct, String.toList_append]

theorem global_ne_generated (name : String) (n : Nat) : global name ≠ generated n := by
  refine ne_generated_of_mem 'v' ?_ (by decide) (by decide) n
  simp [global, String.toList_append]

theorem function_ne_generated (name : String) (n : Nat) : function name ≠ generated n := by
  refine ne_generated_of_mem 'f' ?_ (by decide) (by decide) n
  simp [function, String.toList_append]

theorem inFunction_ne_generated (func name : String) (n : Nat) : inFunction func name ≠ generated n := by
  refine ne_generated_of_mem 'l' ?_ (by decide) (by decide) n
  simp [inFunction, String.toList_append]

theorem exit_ne_generated (func : String) (n : Nat) : exit func ≠ generated n := by
  refine ne_generated_of_mem 'l' ?_ (by decide) (by decide) n
  simp [exit, String.toList_append]

theorem provided_ne_generated {label : String} (h : label ∈ provided) (n : Nat) : label ≠ generated n := by
  refine ne_generated_of_mem 'b' ?_ (by decide) (by decide) n
  simp only [provided, List.mem_cons, List.not_mem_nil, or_false] at h
  obtain rfl | rfl | rfl := h <;> decide

end Symbol

mutual

def Ir.renumber (lab : Nat → Nat) : Ir → Ir
  | .const value => .const value
  | .slot offset => .slot offset
  | .global label => .global (Symbol.renumber lab label)
  | .mem addr => .mem (Ir.renumber lab addr)
  | .framePointer => .framePointer
  | .store target value => .store (Ir.renumber lab target) (Ir.renumber lab value)
  | .call name args => .call name (Ir.renumberAll lab args)
  | .intToFloat value => .intToFloat (Ir.renumber lab value)
  | .floatToInt value => .floatToInt (Ir.renumber lab value)
  | .jump label => .jump (Symbol.renumber lab label)
  | .seq nodes => .seq (Ir.renumberAll lab nodes)

def Ir.renumberAll (lab : Nat → Nat) : List Ir → List Ir
  | [] => []
  | node :: rest => Ir.renumber lab node :: Ir.renumberAll lab rest

end

mutual

theorem Ir.renumber_eq_self {lab : Nat → Nat} : ∀ tree : Ir,
    (∀ label ∈ tree.labels, Symbol.renumber lab label = label) → tree.renumber lab = tree
  | .const _, _ | .slot _, _ | .framePointer, _ => rfl
  | .global label, h => by
    rw [Ir.renumber, h label List.mem_cons_self]
  | .jump label, h => by
    rw [Ir.renumber, h label List.mem_cons_self]
  | .mem addr, h => by
    rw [Ir.renumber, Ir.renumber_eq_self addr h]
  | .intToFloat value, h => by
    rw [Ir.renumber, Ir.renumber_eq_self value h]
  | .floatToInt value, h => by
    rw [Ir.renumber, Ir.renumber_eq_self value h]
  | .store target value, h => by
    obtain ⟨ht, hv⟩ := List.forall_mem_append.mp h
    rw [Ir.renumber, Ir.renumber_eq_self target ht, Ir.renumber_eq_self value hv]
  | .call name args, h => by
    rw [Ir.renumber, Ir.renumberAll_eq_self args h]
  | .seq nodes, h => by
    rw [Ir.renumber, Ir.renumberAll_eq_self nodes h]

theorem Ir.renumberAll_eq_self {lab : Nat → Nat} : ∀ trees : List Ir,
    (∀ label ∈ Ir.labelsOfAll trees, Symbol.renumber lab label = label) → Ir.renumberAll lab trees = trees
  | [], _ => rfl
  | tree :: rest, h => by
    obtain ⟨ht, hr⟩ := List.forall_mem_append.mp h
    rw [Ir.renumberAll, Ir.renumber_eq_self tree ht, Ir.renumberAll_eq_self rest hr]

end

def Emission.renumber (lab : Nat → Nat) : Emission → Emission
  | .align bytes => .align bytes
  | .word value symbol => .word value (symbol.map (Symbol.renumber lab))
  | .pointer symbol => .pointer (Symbol.renumber lab symbol)
  | .string value symbol => .string value (Symbol.renumber lab symbol)
  | .label symbol => .label (Symbol.renumber lab symbol)
  | .enter symbol frameBytes => .enter (Symbol.renumber lab symbol) frameBytes
  | .leave teardown argBytes => .leave (teardown.map (Ir.renumber lab)) argBytes
  | .code tree => .code (tree.renumber lab)

@[simp] theorem Emission.renumber_defines? (lab : Nat → Nat) (e : Emission) :
    (e.renumber lab).defines? = e.defines?.map (Symbol.renumber lab) := by
  cases e <;> rfl

/-- An item all of whose labels stay as they are stays as it is. -/
theorem Emission.renumber_eq_self {lab : Nat → Nat} {e : Emission}
    (hdefines : ∀ label, e.defines? = some label → Symbol.renumber lab label = label)
    (hrefers : ∀ label ∈ e.refers, Symbol.renumber lab label = label) : e.renumber lab = e := by
  cases e with
  | align bytes => rfl
  | word value symbol =>
    cases symbol with
    | none => rfl
    | some symbol => rw [renumber, Option.map_some, hdefines symbol rfl]
  | pointer symbol => rw [renumber, hrefers symbol List.mem_cons_self]
  | string value symbol => rw [renumber, hdefines symbol rfl]
  | label symbol => rw [renumber, hdefines symbol rfl]
  | enter symbol frameBytes => rw [renumber, hdefines symbol rfl]
  | leave teardown argBytes =>
    cases teardown with
    | none => rfl
    | some tree => rw [renumber, Option.map_some, Ir.renumber_eq_self tree hrefers]
  | code tree => rw [renumber, Ir.renumber_eq_self tree hrefers]

/-- A numbering that goes on from `f`: up to `p` it is the same, and behind it the numbers up to `q` are not
used any more. -/
structure Continues (f : Nat → Nat) (p q : Nat) (lab : Nat → Nat) : Prop where
  mono : StrictMono lab
  before : ∀ k ≤ p, lab k = f k
  beyond : ∀ k, p < k → q < lab k

def resume (f : Nat → Nat) (p q gap k : Nat) : Nat :=
  if k ≤ p then f k else k - p + q + gap

namespace Continues

variable {f lab : Nat → Nat} {p q : Nat}

theorem resumed (hmono : ∀ k m, k < m → m ≤ p → f k < f m) (hle : ∀ k ≤ p, f k ≤ q) (gap : Nat) :
    Continues f p q (resume f p q gap) := by
  refine ⟨?_, fun k hk => if_pos hk, ?_⟩
  · intro k m hkm
    unfold resume
    split
    · rename_i hk
      split
      · rename_i hm
        exact hmono k m hkm hm
      · have := hle k hk
        omega
    · rw [if_neg (by omega)]
      omega
  · intro k hk
    unfold resume
    rw [if_neg (by omega)]
    omega

/-- The next number was given out on both sides. -/
theorem of_both (h : Continues (resume f p q 0) (p + 1) (q + 1) lab) : Continues f p q lab := by
  refine ⟨h.mono, ?_, ?_⟩
  · intro k hk
    rw [h.before k (by omega), resume, if_pos hk]
  · intro k hk
    by_cases hnext : k = p + 1
    · rw [h.before k (by omega), resume, if_neg (by omega)]
      omega
    · have := h.beyond k (by omega)
      omega

theorem both_next (h : Continues (resume f p q 0) (p + 1) (q + 1) lab) : lab (p + 1) = q + 1 := by
  rw [h.before (p + 1) (Nat.le_refl _), resume, if_neg (by omega)]
  omega

/-- The next number was given out on one side only, so the numbering leaves it out. -/
theorem of_one (h : Continues f p (q + 1) lab) : Continues f p q lab :=
  ⟨h.mono, h.before, fun k hk => Nat.lt_of_succ_lt (h.beyond k hk)⟩

theorem ne_left_out (hle : ∀ k ≤ p, f k ≤ q) (h : Continues f p (q + 1) lab) (k : Nat) : lab k ≠ q + 1 := by
  by_cases hk : k ≤ p
  · rw [h.before k hk]
    have := hle k hk
    omega
  · have := h.beyond k (by omega)
    omega

/-- A label on which all numberings agree is one that has been given out. -/
theorem le_of_agree (hmono : ∀ k m, k < m → m ≤ p → f k < f m) (hle : ∀ k ≤ p, f k ≤ q) (label : String) {k : Nat}
    (h : ∀ lab, Continues f p q lab → label = Symbol.generated (lab k)) : k ≤ p := by
  by_contra hk
  -- two numberings that differ behind `p`
  have hfirst := h _ (resumed hmono hle 0)
  have hsecond := h _ (resumed hmono hle 1)
  have heq := Symbol.generated_injective (hfirst.symm.trans hsecond)
  rw [resume, if_neg hk, resume, if_neg hk] at heq
  omega

end Continues

end UnitCompiler
