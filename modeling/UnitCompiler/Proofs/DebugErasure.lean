import UnitCompiler.Proofs.CompiledItems
import UnitCompiler.Proofs.IssuedLabels

namespace UnitCompiler

open Context Emitter

namespace Ir

def isDebugLeave : Ir → Bool
  | .call f [] => f == Symbol.debugLeave
  | _ => false

def withoutLeave : Ir → Option Ir
  | .seq [first, t] => if first.isDebugLeave then some t else some (.seq [first, t])
  | t => if t.isDebugLeave then none else some t

end Ir

namespace Emission

/-- The code that tells the debugger about the function whose name stands under the label. -/
def announces (symbol : String) : Emission → Bool
  | .code (.call f [.framePointer, .const _, .global name]) => f == Symbol.debugEnter && name == symbol
  | _ => false

def withoutLeave : Emission → Emission
  | .leave (some teardown) argBytes => .leave teardown.withoutLeave argBytes
  | e => e

def isOrdinary : Emission → Bool
  | .leave _ _ => false
  | .code (.call f _) => f != Symbol.debugEnter
  | _ => true

theorem announces_of_isOrdinary {e : Emission} (h : e.isOrdinary = true) (symbol : String) :
    e.announces symbol = false := by
  unfold announces
  split
  · simp_all [isOrdinary]
  · rfl

theorem withoutLeave_of_isOrdinary {e : Emission} (h : e.isOrdinary = true) : e.withoutLeave = e := by
  cases e with
  | leave => cases h
  | _ => rfl

@[simp] theorem defines?_withoutLeave (e : Emission) : e.withoutLeave.defines? = e.defines? := by
  cases e with
  | leave teardown argBytes => cases teardown <;> rfl
  | _ => rfl

@[simp] theorem nest_withoutLeave (e : Emission) (inside : Bool) : e.withoutLeave.nest inside = e.nest inside := by
  cases e with
  | leave teardown argBytes => cases teardown <;> rfl
  | _ => rfl

@[simp] theorem nest_renumber (lab : Nat → Nat) (e : Emission) (inside : Bool) :
    (e.renumber lab).nest inside = e.nest inside := by
  cases e <;> rfl

end Emission

/-- The items without the names of functions, the debugger's calls on the way into them, and those on the
way out. -/
def withoutDebug : List Emission → List Emission
  | .string text symbol :: e :: rest =>
    if e.announces symbol then withoutDebug rest else .string text symbol :: withoutDebug (e :: rest)
  | e :: rest => e.withoutLeave :: withoutDebug rest
  | [] => []

theorem withoutDebug_append (es : List Emission) {e : Emission} (he : ∀ symbol, e.announces symbol = false)
    (rest : List Emission) : withoutDebug (es ++ e :: rest) = withoutDebug es ++ withoutDebug (e :: rest) := by
  induction es using withoutDebug.induct with
  | case1 text symbol e' rest' h ih =>
    rw [List.cons_append, List.cons_append, withoutDebug, withoutDebug, if_pos h, if_pos h, ih]
  | case2 text symbol e' rest' h ih =>
    rw [List.cons_append, List.cons_append, withoutDebug, withoutDebug, if_neg h, if_neg h, ← List.cons_append,
      ih, List.cons_append]
  | case3 e' rest' hne ih =>
    cases e' with
    | string text symbol =>
      cases rest' with
      | nil => simp [withoutDebug, he, Emission.withoutLeave]
      | cons e'' rest'' => exact absurd rfl (hne text symbol e'' rest'' rfl)
    | _ => simp [withoutDebug, ih]
  | case4 => rfl

theorem withoutDebug_singleton (e : Emission) : withoutDebug [e] = [e.withoutLeave] := by
  cases e <;> rfl

theorem withoutDebug_announced (es : List Emission) {e : Emission} {symbol : String} (text : String)
    (he : e.announces symbol = true) : withoutDebug (es ++ [.string text symbol, e]) = withoutDebug es := by
  rw [withoutDebug_append es fun _ => rfl, withoutDebug, if_pos he, withoutDebug, List.append_nil]

/-- Whether a function is open after an item depends on the sort of the item only. -/
theorem Listing.insideAfter_isSome (l : Listing) (e : Emission) :
    (l.insideAfter e).isSome = (e.nest true).elim true (· && l.inside.isSome) := by
  cases e <;> simp [insideAfter, Emission.nest]

def Context.Fixes (base : Context) (lab : Nat → Nat) : Prop := ∀ k ≤ base.labels, lab k = k

/-- An item that refers only to labels given out before emission is the same in every numbering. -/
theorem Context.Fixes.renumber {base : Context} {lab : Nat → Nat} (h : base.Fixes lab) {e : Emission}
    (hdefines : ∀ symbol, e.defines? = some symbol → base.Knows symbol)
    (hrefers : ∀ symbol ∈ e.refers, base.Knows symbol) : e.renumber lab = e :=
  Emission.renumber_eq_self (fun symbol hs => Symbol.renumber_eq_self h (hdefines symbol hs))
    fun symbol hs => Symbol.renumber_eq_self h (hrefers symbol hs)

/-- A run with the debugger next to one without it. They have emitted the same, up to what the debugger adds
and to the numbers of labels, in all numberings that can still come about. -/
structure Beside (base : Context) (f : Nat → Nat) (s t : Emitter Listing) : Prop where
  debugged : Relabels base s.context
  plain : Relabels base t.context
  frame : s.frame = t.frame
  debug : s.backend.debug = true
  noDebug : t.backend.debug = false
  inside : s.backend.inside.isSome = t.backend.inside.isSome
  mono : ∀ k m, k < m → m ≤ t.context.labels → f k < f m
  le : ∀ k ≤ t.context.labels, f k ≤ s.context.labels
  fixes : base.Fixes f
  bound : ∀ n, Symbol.generated n ∈ s.backend.defined → n ≤ s.context.labels
  items : ∀ lab, Continues f t.context.labels s.context.labels lab →
    withoutDebug s.backend.items = t.backend.items.map (Emission.renumber lab)
  defined : ∀ lab, Continues f t.context.labels s.context.labels lab →
    ∀ symbol, Symbol.renumber lab symbol ∈ s.backend.defined ↔ symbol ∈ t.backend.defined

namespace Beside

variable {base : Context} {f : Nat → Nat} {s t : Emitter Listing}

abbrev Open (f : Nat → Nat) (s t : Emitter Listing) (lab : Nat → Nat) : Prop :=
  Continues f t.context.labels s.context.labels lab

theorem fixed (h : Beside base f s t) {lab : Nat → Nat} (hlab : Open f s t lab) : base.Fixes lab := by
  intro k hk
  rw [hlab.before k (Nat.le_trans hk h.plain.labels), h.fixes k hk]

/-- Both runs take the next number. -/
theorem freshLabel (h : Beside base f s t) :
    Beside base (resume f t.context.labels s.context.labels 0)
      { s with context := s.context.freshLabel.2 } { t with context := t.context.freshLabel.2 } := by
  have hmono : ∀ k m, k < m → m ≤ t.context.labels + 1 →
      resume f t.context.labels s.context.labels 0 k < resume f t.context.labels s.context.labels 0 m :=
    fun k m hkm _ => (Continues.resumed h.mono h.le 0).mono hkm
  refine { h with
    debugged := h.debugged.trans (relabels_freshLabel _), plain := h.plain.trans (relabels_freshLabel _),
    mono := hmono, le := ?_, fixes := ?_, bound := ?_, items := ?_, defined := ?_ }
  · intro k hk
    change k ≤ t.context.labels + 1 at hk
    change _ ≤ s.context.labels + 1
    unfold resume
    split
    · rename_i hold
      exact Nat.le_succ_of_le (h.le k hold)
    · omega
  · intro k hk
    rw [resume, if_pos (Nat.le_trans hk h.plain.labels), h.fixes k hk]
  · exact fun n hn => Nat.le_succ_of_le (h.bound n hn)
  · exact fun lab hlab => h.items lab hlab.of_both
  · exact fun lab hlab => h.defined lab hlab.of_both

/-- A generated label that an item defines has been given out. -/
theorem le_of_defines (h : Beside base f s t) {e' e : Emission}
    (hdefines : ∀ lab, Open f s t lab → e'.defines? = e.defines?.map (Symbol.renumber lab)) {n : Nat}
    (hn : e'.defines? = some (Symbol.generated n)) : n ≤ s.context.labels := by
  have hopen : Open f s t _ := Continues.resumed h.mono h.le 0
  obtain ⟨symbol, hsymbol, hrenumber⟩ := Option.map_eq_some_iff.mp ((hdefines _ hopen).symm.trans hn)
  obtain ⟨k, rfl⟩ | hne := Symbol.generated_cases symbol
  · have hk : k ≤ t.context.labels := by
      refine Continues.le_of_agree h.mono h.le (Symbol.generated n) fun lab hlab => ?_
      have heq := (hdefines lab hlab).symm.trans hn
      rw [hsymbol, Option.map_some, Symbol.renumber_generated] at heq
      exact (Option.some.inj heq).symm
    rw [Symbol.renumber_generated, hopen.before k hk] at hrenumber
    rw [← Symbol.generated_injective hrenumber]
    exact h.le k hk
  · rw [Symbol.renumber_of_forall_ne hne] at hrenumber
    exact absurd hrenumber (hne n)

/-- Both runs send an item, which differs at most in what the debugger adds. -/
theorem push (h : Beside base f s t) {e' e : Emission}
    (he : ∀ lab, Open f s t lab → e'.withoutLeave = e.renumber lab)
    (hquiet : ∀ symbol, e'.announces symbol = false) :
    Beside base f { s with backend := s.backend.push e' } { t with backend := t.backend.push e } := by
  have hdefines : ∀ lab, Open f s t lab → e'.defines? = e.defines?.map (Symbol.renumber lab) := by
    intro lab hlab
    rw [← e'.defines?_withoutLeave, he lab hlab, e.renumber_defines? lab]
  refine { h with inside := ?_, bound := ?_, items := ?_, defined := ?_ }
  · have hnest : e'.nest true = e.nest true := by
      rw [← e'.nest_withoutLeave, he _ (Continues.resumed h.mono h.le 0), e.nest_renumber]
    change (s.backend.insideAfter e').isSome = (t.backend.insideAfter e).isSome
    rw [Listing.insideAfter_isSome, Listing.insideAfter_isSome, hnest, h.inside]
  · intro n hn
    obtain hold | hnew := List.mem_append.mp hn
    · exact h.bound n hold
    · exact h.le_of_defines hdefines (Option.mem_toList.mp hnew)
  · intro lab hlab
    change withoutDebug (s.backend.items ++ [e']) = (t.backend.items ++ [e]).map (Emission.renumber lab)
    rw [withoutDebug_append _ hquiet, h.items lab hlab, withoutDebug_singleton, List.map_append,
      List.map_singleton, he lab hlab]
  · intro lab hlab symbol
    change Symbol.renumber lab symbol ∈ s.backend.defined ++ e'.defines?.toList ↔
      symbol ∈ t.backend.defined ++ e.defines?.toList
    rw [List.mem_append, List.mem_append, h.defined lab hlab, hdefines lab hlab]
    cases e.defines? with
    | none => simp
    | some other => simp [(Symbol.renumber_injective hlab.mono.injective).eq_iff]

/-- Both listings take an item, or both refuse it. -/
theorem refusal (h : Beside base f s t) {e' e : Emission}
    (he : ∀ lab, Open f s t lab → e'.withoutLeave = e.renumber lab) :
    s.backend.refusal? e' = none ↔ t.backend.refusal? e = none := by
  have hopen : Open f s t (resume f t.context.labels s.context.labels 0) := Continues.resumed h.mono h.le 0
  generalize resume f t.context.labels s.context.labels 0 = lab at hopen
  have hnest : e'.nest t.backend.inside.isSome = e.nest t.backend.inside.isSome := by
    rw [← e'.nest_withoutLeave, he _ hopen, e.nest_renumber]
  have hdefines : e'.defines? = e.defines?.map (Symbol.renumber lab) := by
    rw [← e'.defines?_withoutLeave, he _ hopen, e.renumber_defines?]
  rw [Listing.refusal?_eq_none_iff, Listing.refusal?_eq_none_iff, h.inside, hnest, hdefines]
  cases e.defines? with
  | none => simp
  | some symbol => simp [h.defined _ hopen]

/-- The name of a function goes under a label that is not yet defined. -/
theorem refusal_string (h : Beside base f s t) (text : String) :
    s.backend.refusal? (.string text s.context.freshLabel.1) = none := by
  rw [Listing.refusal?_eq_none_iff]
  refine ⟨fun symbol hsymbol hmem => ?_, rfl⟩
  obtain rfl : Symbol.generated (s.context.labels + 1) = symbol := Option.some.inj hsymbol
  exact Nat.not_succ_le_self _ (h.bound _ hmem)

/-- The run with the debugger names the function that it enters, under a number of its own. -/
theorem announce (h : Beside base f s t) (text : String) {tree : Ir}
    (htree : (Emission.code tree).announces s.context.freshLabel.1 = true) :
    Beside base f { s with
      context := s.context.freshLabel.2
      backend := (s.backend.push (.string text s.context.freshLabel.1)).push (.code tree) } t := by
  -- the text defines a label that only the call after it uses
  have hdefined : ((s.backend.push (.string text s.context.freshLabel.1)).push (.code tree)).defined =
      s.backend.defined ++ [s.context.freshLabel.1] := by
    simp [Listing.push, Emission.defines?]
  refine { h with
    debugged := h.debugged.trans (relabels_freshLabel _), inside := ?_, le := ?_, bound := ?_, items := ?_,
    defined := ?_ }
  · exact h.inside
  · exact fun k hk => Nat.le_succ_of_le (h.le k hk)
  · intro n hn
    rw [hdefined] at hn
    obtain hold | hnew := List.mem_append.mp hn
    · exact Nat.le_succ_of_le (h.bound n hold)
    · exact Nat.le_of_eq (Symbol.generated_injective (List.mem_singleton.mp hnew))
  · intro lab hlab
    rw [← h.items lab hlab.of_one, ← withoutDebug_announced s.backend.items text htree]
    simp [Listing.push]
  · intro lab hlab symbol
    rw [hdefined, List.mem_append, h.defined lab hlab.of_one, List.mem_singleton]
    -- the label of the text is left out by the renumbering
    refine or_iff_left fun heq => ?_
    obtain ⟨k, rfl⟩ | hne := Symbol.generated_cases symbol
    · rw [Symbol.renumber_generated] at heq
      exact Continues.ne_left_out h.le hlab k (Symbol.generated_injective heq)
    · rw [Symbol.renumber_of_forall_ne hne] at heq
      exact hne _ heq

end Beside

inductive EmitError.Agrees : EmitError → EmitError → Prop
  | diagnostic (d : Diagnostic) : Agrees (.diagnostic d) (.diagnostic d)
  | backend (e' e : BackendError) : Agrees (.backend e') (.backend e)

namespace Emitter

variable {ε α γ : Type} {base : Context} {E : ε → ε → Prop} {W : (Nat → Nat) → Prop}
  {R : (Nat → Nat) → α → α → Prop} {S : (Nat → Nat) → γ → γ → Prop}

/-- Both end side by side with related results, in numberings from `W` only, or both fail alike. -/
inductive Paired (base : Context) (E : ε → ε → Prop) (W : (Nat → Nat) → Prop)
    (R : (Nat → Nat) → α → α → Prop) :
    EStateM.Result ε (Emitter Listing) α → EStateM.Result ε (Emitter Listing) α → Prop
  | ok {a' a : α} {f : Nat → Nat} {s t : Emitter Listing} (h : Beside base f s t)
      (hopen : ∀ lab, Beside.Open f s t lab → W lab ∧ R lab a' a) : Paired base E W R (.ok a' s) (.ok a t)
  | error {e' e : ε} {s t : Emitter Listing} (h : E e' e) : Paired base E W R (.error e' s) (.error e t)

def Shadows (base : Context) (E : ε → ε → Prop) (W : (Nat → Nat) → Prop) (R : (Nat → Nat) → α → α → Prop)
    (x y : EStateM ε (Emitter Listing) α) : Prop :=
  ∀ f s t, Beside base f s t → (∀ lab, Beside.Open f s t lab → W lab) → Paired base E W R (x s) (y t)

theorem shadows_pure {a' a : α} (h : ∀ lab, W lab → base.Fixes lab → R lab a' a) :
    Shadows base E W R (pure a') (pure a) :=
  fun _ _ _ hst hW => .ok hst fun lab hlab => ⟨hW lab hlab, h lab (hW lab hlab) (hst.fixed hlab)⟩

theorem shadows_throw {e' e : ε} (h : E e' e) : Shadows base E W R (throw e') (throw e) :=
  fun _ _ _ _ _ => .error h

theorem Shadows.bind {x y : EStateM ε (Emitter Listing) α} {g' g : α → EStateM ε (Emitter Listing) γ}
    (h : Shadows base E W R x y)
    (hg : ∀ a' a V, (∀ lab, V lab → W lab) → (∀ lab, V lab → R lab a' a) → Shadows base E V S (g' a') (g a)) :
    Shadows base E W S (x >>= g') (y >>= g) := by
  intro f s t hst hW
  have hxy := h f s t hst hW
  generalize hx : x s = rx at hxy
  generalize hy : y t = ry at hxy
  cases hxy with
  | error he =>
    rw [bind_of_error g' hx, bind_of_error g hy]
    exact .error he
  | @ok a' a f₁ s₁ t₁ hst₁ hopen =>
    rw [bind_of_ok g' hx, bind_of_ok g hy]
    have hrest := hg a' a (Beside.Open f₁ s₁ t₁) (fun lab hlab => (hopen lab hlab).1)
      (fun lab hlab => (hopen lab hlab).2) f₁ s₁ t₁ hst₁ fun _ hlab => hlab
    generalize g' a' s₁ = r' at hrest
    generalize g a t₁ = r at hrest
    cases hrest with
    | error he => exact .error he
    | ok hst₂ hopen₂ =>
      exact .ok hst₂ fun lab hlab => ⟨(hopen lab (hopen₂ lab hlab).1).1, (hopen₂ lab hlab).2⟩

/-- Results that are related in whatever numbering. -/
theorem Shadows.bindPlain {P : α → α → Prop} {x y : EStateM ε (Emitter Listing) α}
    {g' g : α → EStateM ε (Emitter Listing) γ} (h : Shadows base E W (fun _ => P) x y)
    (hg : ∀ a' a V, P a' a → Shadows base E V S (g' a') (g a)) : Shadows base E W S (x >>= g') (y >>= g) := by
  refine h.bind fun a' a V _ hP => ?_
  intro f s t hst hV
  exact hg a' a V (hP _ (hV _ (Continues.resumed hst.mono hst.le 0))) f s t hst hV

theorem Shadows.imp {R' : (Nat → Nat) → α → α → Prop} {x y : EStateM ε (Emitter Listing) α}
    (h : Shadows base E W R x y) (hR : ∀ lab a' a, R lab a' a → R' lab a' a) : Shadows base E W R' x y := by
  intro f s t hst hW
  have hxy := h f s t hst hW
  generalize x s = rx at hxy
  generalize y t = ry at hxy
  cases hxy with
  | error he => exact .error he
  | ok hst hopen => exact .ok hst fun lab hlab => ⟨(hopen lab hlab).1, hR lab _ _ (hopen lab hlab).2⟩

theorem Shadows.adaptExcept {δ : Type} {E' : δ → δ → Prop} {x y : EStateM ε (Emitter Listing) α}
    (h : Shadows base E W R x y) {g : ε → δ} (hg : ∀ e' e, E e' e → E' (g e') (g e)) :
    Shadows base E' W R (EStateM.adaptExcept g x) (EStateM.adaptExcept g y) := by
  intro f s t hst hW
  have hxy := h f s t hst hW
  unfold EStateM.adaptExcept
  generalize x s = rx at hxy
  generalize y t = ry at hxy
  cases hxy with
  | error he => exact .error (hg _ _ he)
  | ok hst hopen => exact .ok hst hopen

theorem Shadows.withFrame {R : (Nat → Nat) → Unit → Unit → Prop} {x y : EmitM Listing Unit}
    (h : Shadows base EmitError.Agrees W R x y) (frame : Frame) :
    Shadows base EmitError.Agrees W R (withFrame frame x) (withFrame frame y) := by
  intro f s t hst hW
  have hxy := h f { s with frame := some frame } { t with frame := some frame } { hst with frame := rfl } hW
  unfold Emitter.withFrame
  generalize x { s with frame := some frame } = rx at hxy
  generalize y { t with frame := some frame } = ry at hxy
  cases hxy with
  | error he => exact .error he
  | ok hst' hopen => exact .ok { hst' with frame := hst.frame } hopen

/-- A computation that reads the state sees the same of it on both sides, the numbers of labels apart. -/
theorem shadows_get {x y : Emitter Listing → EStateM ε (Emitter Listing) α}
    (h : ∀ s t, Relabels base s.context → Relabels base t.context → s.frame = t.frame →
      s.backend.debug = true → t.backend.debug = false → Shadows base E W R (x s) (y t)) :
    Shadows base E W R (get >>= x) (get >>= y) :=
  fun f s t hst hW => h s t hst.debugged hst.plain hst.frame hst.debug hst.noDebug f s t hst hW

theorem shadows_log (e' e : Event) :
    Shadows base Eq W (fun _ _ _ => True) (log e' : PassM Listing Unit) (log e) :=
  fun _ _ _ hst hW => .ok { hst with } fun lab hlab => ⟨hW lab hlab, trivial⟩

theorem shadows_fail (d : Diagnostic) :
    Shadows base EmitError.Agrees W R (fail d) (fail d) :=
  shadows_throw (.diagnostic d)

theorem shadows_ofExcept (x : Except Diagnostic α) :
    Shadows base EmitError.Agrees W (fun _ a' a => a' = a ∧ x = .ok a) (ofExcept x) (ofExcept x) := by
  cases x with
  | error d => exact shadows_fail d
  | ok a => exact shadows_pure fun _ _ _ => ⟨rfl, rfl⟩

theorem shadows_freshLabel :
    Shadows base EmitError.Agrees W (fun lab label' label => label' = Symbol.renumber lab label)
      freshLabel freshLabel := by
  intro f s t hst hW
  refine .ok hst.freshLabel fun lab hlab => ⟨hW lab hlab.of_both, ?_⟩
  change Symbol.generated (s.context.labels + 1) = Symbol.renumber lab (Symbol.generated (t.context.labels + 1))
  simp [hlab.both_next]

theorem send_listing (e : Emission) (s : Emitter Listing) :
    send e s = match s.backend.refusal? e with
      | some err => .error (.backend err) s
      | none => .ok () { s with backend := s.backend.push e } := by
  have haccept : Backend.accept s.backend e = Listing.accept s.backend e := rfl
  unfold send
  rw [haccept]
  unfold Listing.accept
  cases s.backend.refusal? e <;> rfl

/-- Sending an item that differs at most in what the debugger adds. -/
theorem shadows_send {e' e : Emission}
    (he : ∀ lab, W lab → base.Fixes lab → e'.withoutLeave = e.renumber lab)
    (hquiet : ∀ symbol, e'.announces symbol = false) :
    Shadows base EmitError.Agrees W (fun _ _ _ => True) (send e') (send e) := by
  intro f s t hst hW
  have he : ∀ lab, Beside.Open f s t lab → e'.withoutLeave = e.renumber lab :=
    fun lab hlab => he lab (hW lab hlab) (hst.fixed hlab)
  have hrefusal := hst.refusal he
  rw [send_listing, send_listing]
  cases ht : t.backend.refusal? e with
  | none =>
    rw [hrefusal.mpr ht]
    exact .ok (hst.push he hquiet) fun lab hlab => ⟨hW lab hlab, trivial⟩
  | some err =>
    cases hs : s.backend.refusal? e' with
    | none =>
      rw [hrefusal.mp hs] at ht
      cases ht
    | some err' => exact .error (.backend err' err)

theorem shadows_sendAll {es' es : List Emission}
    (hes : ∀ lab, W lab → base.Fixes lab → es' = es.map (Emission.renumber lab))
    (hordinary : ∀ e ∈ es', e.isOrdinary = true) :
    Shadows base EmitError.Agrees W (fun _ _ _ => True) (sendAll es') (sendAll es) := by
  induction es generalizing es' W with
  | nil =>
    intro f s t hst hW
    have hopen := Continues.resumed hst.mono hst.le 0
    obtain rfl : es' = [] := hes _ (hW _ hopen) (hst.fixed hopen)
    exact shadows_pure (fun _ _ _ => trivial) f s t hst hW
  | cons e es ih =>
    intro f s t hst hW
    have hopen := Continues.resumed hst.mono hst.le 0
    obtain ⟨e', rest, rfl⟩ : ∃ e' rest, es' = e' :: rest := ⟨_, _, hes _ (hW _ hopen) (hst.fixed hopen)⟩
    obtain ⟨hfirst, hrest⟩ := List.forall_mem_cons.mp hordinary
    have hsend : Shadows base EmitError.Agrees W (fun _ _ _ => True) (send e') (send e) := by
      refine shadows_send (fun lab hlab hfix => ?_) (Emission.announces_of_isOrdinary hfirst)
      rw [Emission.withoutLeave_of_isOrdinary hfirst]
      exact (List.cons.inj (hes lab hlab hfix)).1
    refine hsend.bind (fun _ _ V hV _ => ?_) f s t hst hW
    exact ih (fun lab hlab hfix => (List.cons.inj (hes lab (hV lab hlab) hfix)).2) hrest

end Emitter

end UnitCompiler
