import UnitCompiler.Proofs.Tape
import Mathlib.Data.List.Chain

namespace UnitCompiler

open Emitter

namespace Emission

def isEnter : Emission → Bool
  | .enter _ _ => true
  | _ => false

def isLeave : Emission → Bool
  | .leave _ _ => true
  | _ => false

/-- The item defines the label: a labelled word, a text, a label in the code, or the beginning of a function. -/
inductive Defines (name : String) : Emission → Prop
  | word (value : Int32) : Defines name (.word value (some name))
  | string (text : String) : Defines name (.string text name)
  | label : Defines name (.label name)
  | enter (frameBytes : Nat) : Defines name (.enter name frameBytes)

theorem defines?_eq_some_iff {e : Emission} {label : String} : e.defines? = some label ↔ e.Defines label := by
  constructor
  · intro h
    cases e with
    | word value symbol =>
      cases h
      exact .word value
    | string text symbol =>
      cases h
      exact .string text
    | label symbol =>
      cases h
      exact .label
    | enter symbol size =>
      cases h
      exact .enter size
    | align | pointer | leave | code => cases h
  · rintro (_ | _ | _ | _) <;> rfl

/-- An item does not fit if it enters a function inside another one or leaves one that is not open. -/
theorem nest_eq_none_iff {e : Emission} {inside : Bool} :
    e.nest inside = none ↔ (e.isEnter = true ∧ inside = true) ∨ (e.isLeave = true ∧ inside = false) := by
  cases e <;> cases inside <;> simp [nest, isEnter, isLeave]

theorem isEnter_ne_of_nest {e : Emission} {inside : Bool} (hmark : (e.isEnter || e.isLeave) = true)
    (hfits : (e.nest inside).isSome = true) : e.isEnter ≠ inside := by
  cases e with
  | enter | leave => cases inside <;> simp_all [nest, isEnter]
  | align | word | pointer | string | label | code => cases hmark

end Emission

def functionMarks (es : List Emission) : List Emission :=
  es.filter fun e => e.isEnter || e.isLeave

theorem functionMarks_concat_mark {e : Emission} (h : (e.isEnter || e.isLeave) = true) (es : List Emission) :
    functionMarks (es ++ [e]) = functionMarks es ++ [e] := by
  simp [functionMarks, h]

theorem functionMarks_concat_other {e : Emission} (h : (e.isEnter || e.isLeave) = false) (es : List Emission) :
    functionMarks (es ++ [e]) = functionMarks es := by
  simp [functionMarks, h]

namespace Listing

variable {l l' : Listing}

structure Tidy (l : Listing) : Prop where
  defined : l.defined = definedBy l.items
  nodup : l.defined.Nodup

/-- Whatever is sent, a listing keeps what it has recorded. -/
theorem prefix_of_sent (h : Sent l l') : l.items <+: l'.items := by
  induction h with
  | refl => exact List.prefix_refl _
  | @tail m _ _ hstep ih =>
    obtain ⟨e, rfl⟩ := hstep
    refine ih.trans ?_
    change m.items <+: (m.accept e).2.items
    unfold Listing.accept
    cases m.refusal? e with
    | some err => exact List.prefix_refl _
    | none => exact List.prefix_append ..

theorem Tidy.accept (h : l.Tidy) (e : Emission) : (l.accept e).2.Tidy := by
  unfold Listing.accept
  cases hr : l.refusal? e with
  | some err => exact h
  | none =>
    refine ⟨?_, ?_⟩
    · change l.defined ++ e.defines?.toList = definedBy (l.items ++ [e])
      rw [definedBy_append, h.defined]
      cases he : e.defines? <;> simp [definedBy, he]
    · change (l.defined ++ e.defines?.toList).Nodup
      cases he : e.defines? with
      | none => simpa using h.nodup
      | some label =>
        have hnew := (refusal?_eq_none_iff.mp hr).1 label he
        simp only [Option.toList_some, List.nodup_append, List.nodup_singleton, List.mem_singleton]
        exact ⟨h.nodup, trivial, fun a ha b hb heq => hnew (hb ▸ heq ▸ ha)⟩

/-- Whatever is sent, a listing stays tidy. -/
theorem Tidy.sent (h : l.Tidy) (hsent : Sent l l') : l'.Tidy ∧ l.items <+: l'.items := by
  refine ⟨?_, prefix_of_sent hsent⟩
  induction hsent with
  | refl => exact h
  | tail _ hstep ih =>
    obtain ⟨e, rfl⟩ := hstep
    exact ih.accept e

theorem tidy_empty (debug : Bool) : (empty debug).Tidy := ⟨rfl, List.nodup_nil⟩

/-- Only one item defines a label. -/
theorem Tidy.index_unique (h : l.Tidy) {i j : Nat} {e e' : Emission} {label : String} (hi : l.items[i]? = some e)
    (hj : l.items[j]? = some e') (he : e.Defines label) (he' : e'.Defines label) : i = j := by
  rw [← Emission.defines?_eq_some_iff] at he he'
  have hpair : l.items.Pairwise fun x y => ∀ a, x.defines? = some a → ∀ b, y.defines? = some b → a ≠ b :=
    List.pairwise_filterMap.mp (show (definedBy l.items).Nodup from h.defined ▸ h.nodup)
  obtain ⟨hilt, rfl⟩ := List.getElem?_eq_some_iff.mp hi
  obtain ⟨hjlt, rfl⟩ := List.getElem?_eq_some_iff.mp hj
  obtain hlt | heq | hlt := Nat.lt_trichotomy i j
  · exact absurd rfl (List.pairwise_iff_getElem.mp hpair i j hilt hjlt hlt label he label he')
  · exact heq
  · exact absurd rfl (List.pairwise_iff_getElem.mp hpair j i hjlt hilt hlt label he' label he)

theorem Tidy.defines_iff (h : l.Tidy) (label : String) :
    l.defines label = true ↔ ∃! i : Nat, ∃ e, l.items[i]? = some e ∧ e.Defines label := by
  rw [defines, List.contains_iff_mem, h.defined, definedBy, List.mem_filterMap]
  simp only [Emission.defines?_eq_some_iff]
  constructor
  · rintro ⟨e, hmem, he⟩
    obtain ⟨i, hi⟩ := List.getElem?_of_mem hmem
    refine ⟨i, ⟨e, hi, he⟩, ?_⟩
    rintro j ⟨e', hj, he'⟩
    exact h.index_unique hj hi he' he
  · rintro ⟨i, ⟨e, hi, he⟩, -⟩
    exact ⟨e, List.mem_of_getElem? hi, he⟩

/-- The listing knows from its items which function is open, and these begin and end functions by turns. -/
structure Coherent (l : Listing) : Prop extends Tidy l where
  inside : ∀ label, l.inside = some label ↔
    ∃ size, (functionMarks l.items).getLast? = some (.enter label size)
  first : ∀ e ∈ (functionMarks l.items).head?, e.isEnter = true
  alternate : (functionMarks l.items).IsChain fun e e' => e.isEnter ≠ e'.isEnter

theorem coherent_empty (debug : Bool) : (empty debug).Coherent where
  toTidy := tidy_empty debug
  inside label := by simp [empty, functionMarks]
  first := by simp [empty, functionMarks]
  alternate := List.isChain_nil

/-- A function is open if the last mark is its beginning. -/
theorem Coherent.isEnter_last (h : l.Coherent) {e : Emission} (he : e ∈ (functionMarks l.items).getLast?) :
    e.isEnter = l.inside.isSome := by
  cases hinside : l.inside with
  | some label =>
    obtain ⟨size, hlast⟩ := (h.inside label).mp hinside
    rw [hlast] at he
    cases he
    rfl
  | none =>
    cases e with
    | enter label size => cases hinside.symm.trans ((h.inside label).mpr ⟨size, he⟩)
    | align | word | pointer | string | label | leave | code => rfl

/-- A mark that fits what is open goes on with the turns. -/
theorem Coherent.concat (h : l.Coherent) {e : Emission} (he : e.isEnter ≠ l.inside.isSome) :
    (∀ x ∈ (functionMarks l.items ++ [e]).head?, x.isEnter = true) ∧
      (functionMarks l.items ++ [e]).IsChain fun x y => x.isEnter ≠ y.isEnter := by
  constructor
  · cases hmarks : functionMarks l.items with
    | nil =>
      -- no function was ever entered
      have hclosed : l.inside.isSome = false := by
        rw [Option.isSome_eq_false_iff, Option.isNone_iff_eq_none, Option.eq_none_iff_forall_ne_some]
        intro label hinside
        obtain ⟨size, hlast⟩ := (h.inside label).mp hinside
        rw [hmarks] at hlast
        cases hlast
      rw [hclosed] at he
      simpa using he
    | cons x xs =>
      have hfirst := h.first
      rw [hmarks] at hfirst
      exact hfirst
  · refine List.isChain_append.mpr ⟨h.alternate, List.isChain_singleton e, ?_⟩
    intro x hx y hy
    cases hy
    rw [h.isEnter_last hx]
    exact he.symm

/-- The beginning or the end of a function moves the listing in or out. -/
theorem Coherent.push_mark (h : l.Coherent) {e : Emission} (hmark : (e.isEnter || e.isLeave) = true)
    (he : e.isEnter ≠ l.inside.isSome) (htidy : (l.push e).Tidy) : (l.push e).Coherent := by
  have hmarks : functionMarks (l.push e).items = functionMarks l.items ++ [e] :=
    functionMarks_concat_mark hmark l.items
  obtain ⟨hfirst, halternate⟩ := h.concat he
  refine ⟨htidy, fun label => ?_, hmarks ▸ hfirst, hmarks ▸ halternate⟩
  rw [hmarks, List.getLast?_concat]
  cases e with
  | enter | leave => simp [push, insideAfter]
  | align | word | pointer | string | label | code => cases hmark

/-- Any other item leaves the open function as it is. -/
theorem Coherent.push_other (h : l.Coherent) {e : Emission} (hother : (e.isEnter || e.isLeave) = false)
    (htidy : (l.push e).Tidy) : (l.push e).Coherent := by
  have hmarks : functionMarks (l.push e).items = functionMarks l.items :=
    functionMarks_concat_other hother l.items
  have hinside : (l.push e).inside = l.inside := by
    cases e with
    | enter | leave => cases hother
    | align | word | pointer | string | label | code => rfl
  exact ⟨htidy, by rw [hmarks, hinside]; exact h.inside, by rw [hmarks]; exact h.first,
    by rw [hmarks]; exact h.alternate⟩

theorem Coherent.accept (h : l.Coherent) (e : Emission) : (l.accept e).2.Coherent := by
  have htidy := h.toTidy.accept e
  unfold Listing.accept at htidy ⊢
  cases hr : l.refusal? e with
  | some err => exact h
  | none =>
    rw [hr] at htidy
    cases hmark : e.isEnter || e.isLeave with
    | false => exact h.push_other hmark htidy
    | true => exact h.push_mark hmark (Emission.isEnter_ne_of_nest hmark (refusal?_eq_none_iff.mp hr).2) htidy

/-- The listing after a sequence of calls. It goes on after a refusal. -/
def after (debug : Bool) (calls : List Emission) : Listing :=
  calls.foldl (fun l call => (l.accept call).2) (empty debug)

theorem coherent_after (debug : Bool) (calls : List Emission) : (after debug calls).Coherent := by
  induction calls using List.reverseRecOn with
  | nil => exact coherent_empty debug
  | append_singleton calls call ih =>
    have hstep : after debug (calls ++ [call]) = ((after debug calls).accept call).2 := by simp [after]
    rw [hstep]
    exact ih.accept call

/-- A call is recorded, or it is refused and changes nothing. -/
theorem accept_cases (l : Listing) (call : Emission) :
    ((l.accept call).1 = .ok () ∧ (l.accept call).2.items = l.items ++ [call]) ∨
      ∃ err, l.accept call = (.error err, l) := by
  unfold accept
  cases l.refusal? call with
  | none => exact Or.inl ⟨rfl, rfl⟩
  | some err => exact Or.inr ⟨err, rfl⟩

theorem accept_error_iff {call : Emission} :
    (∃ err, (l.accept call).1 = .error err) ↔
      (∃ label, call.Defines label ∧ l.defines label = true) ∨
      (call.isEnter = true ∧ l.inside.isSome = true) ∨ (call.isLeave = true ∧ l.inside = none) := by
  have hrefused : (∃ err, (l.accept call).1 = .error err) ↔ ¬ l.refusal? call = none := by
    unfold accept
    cases l.refusal? call <;> simp
  have hmisfit : ¬ (call.nest l.inside.isSome).isSome = true ↔
      (call.isEnter = true ∧ l.inside.isSome = true) ∨ (call.isLeave = true ∧ l.inside = none) := by
    rw [Bool.not_eq_true, Option.isSome_eq_false_iff, Option.isNone_iff_eq_none, Emission.nest_eq_none_iff,
      Option.isSome_eq_false_iff, Option.isNone_iff_eq_none]
  rw [hrefused, refusal?_eq_none_iff, Classical.not_and_iff_not_or_not, hmisfit]
  simp [defines, Emission.defines?_eq_some_iff]

end Listing

/-- A listing keeps its own account right, whatever it is sent and however often it has refused. A label is defined if
and only if it is the label of one labelled word, text, code label or beginning of a function, and no two items define
one label. A function is open if the last mark begins it, and functions begin and end by turns. A call is refused
exactly if it would define a label that is defined already, if it enters a function inside another one, or if it leaves
one while none is open; then nothing changes, and else the call is recorded. -/
theorem listing_state_consistent (debug : Bool) (calls : List Emission) :
    let l := Listing.after debug calls
    (∀ label, l.defines label = true ↔ ∃! i : Nat, ∃ e, l.items[i]? = some e ∧ e.Defines label) ∧
    (∀ (i j : Nat) (e e' : Emission) (label : String), l.items[i]? = some e → l.items[j]? = some e' →
      e.Defines label → e'.Defines label → i = j) ∧
    (∀ label, l.inside = some label ↔ ∃ size, (functionMarks l.items).getLast? = some (.enter label size)) ∧
    (∀ e ∈ (functionMarks l.items).head?, e.isEnter = true) ∧
    ((functionMarks l.items).IsChain fun e e' => e.isEnter ≠ e'.isEnter) ∧
    ∀ call,
      ((∃ err, (l.accept call).1 = .error err) ↔
        (∃ label, call.Defines label ∧ l.defines label = true) ∨
        (call.isEnter = true ∧ l.inside.isSome = true) ∨ (call.isLeave = true ∧ l.inside = none)) ∧
      (((l.accept call).1 = .ok () ∧ (l.accept call).2.items = l.items ++ [call]) ∨
        ∃ err, l.accept call = (.error err, l)) := by
  intro l
  have hl : l.Coherent := Listing.coherent_after debug calls
  exact ⟨hl.defines_iff, fun i j e e' label => hl.index_unique, hl.inside, hl.first, hl.alternate,
    fun call => ⟨Listing.accept_error_iff, l.accept_cases call⟩⟩

end UnitCompiler
