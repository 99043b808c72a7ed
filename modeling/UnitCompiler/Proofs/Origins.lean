import UnitCompiler.Symbol
import Mathlib.Data.List.TakeWhile

namespace UnitCompiler

/-- What a label of a unit stands for. Functions are told apart by the number of their scope's label. -/
inductive Origin where
  | struct (name : String)
  | global (name : String)
  | function (name : String)
  | generated (n : Nat)
  | jump (func : Nat) (name : String)
  | exit (func : Nat)
deriving DecidableEq, Repr

namespace Origin

def text : Origin → String
  | .struct name => Symbol.struct name
  | .global name => Symbol.global name
  | .function name => Symbol.function name
  | .generated n => Symbol.generated n
  | .jump func name => Symbol.inFunction (Symbol.generated func) name
  | .exit func => Symbol.exit (Symbol.generated func)

def numbered : Origin → Option (Nat × List Char)
  | .generated n => some (n, [])
  | .jump func name => some (func, '_' :: 'l' :: '_' :: name.toList)
  | .exit func => some (func, ['_', 'l', 'e', 'a', 'v', 'e'])
  | _ => none

theorem numbered_injective {o o' : Origin} (h : o.numbered.isSome) (heq : o.numbered = o'.numbered) :
    o = o' := by
  cases o <;> cases o' <;> simp_all [numbered, String.toList_inj]

@[simp] theorem toList_generated (n : Nat) : (Symbol.generated n).toList = '_' :: Nat.toDigits 10 n := by
  simp [Symbol.generated, String.toList_append]

theorem text_of_numbered {o : Origin} {n : Nat} {rest : List Char} (h : o.numbered = some (n, rest)) :
    o.text.toList = '_' :: (Nat.toDigits 10 n ++ rest) := by
  cases o with
  | struct | global | function => cases h
  | generated m =>
    cases h
    simp [text]
  | jump func name =>
    cases h
    simp [text, Symbol.inFunction]
  | exit func =>
    cases h
    simp [text, Symbol.exit]

/-- No digit follows the number, so the label can be read back. -/
theorem not_isDigit_head {o : Origin} {n : Nat} {rest : List Char} (h : o.numbered = some (n, rest)) :
    rest.takeWhile Char.isDigit = [] := by
  cases o <;> cases h <;> rfl

theorem digits_isDigit (n : Nat) : ∀ ch ∈ Nat.toDigits 10 n, ch.isDigit = true :=
  fun _ hch => Nat.isDigit_of_mem_toDigits (by decide) (by decide) hch

theorem takeWhile_text {o : Origin} {n : Nat} {rest : List Char} (h : o.numbered = some (n, rest)) :
    o.text.toList.tail.takeWhile Char.isDigit = Nat.toDigits 10 n := by
  rw [text_of_numbered h, List.tail_cons, List.takeWhile_append_of_pos (digits_isDigit n),
    not_isDigit_head h, List.append_nil]

theorem takeWhile_text_named {o : Origin} (h : o.numbered = none) :
    o.text.toList.tail.takeWhile Char.isDigit = [] := by
  cases o with
  | struct | global | function =>
    simp only [text, Symbol.struct, Symbol.global, Symbol.function, String.toList_append]
    rfl
  | generated | jump | exit => cases h

/-- Labels of different origin differ, whatever the names are. -/
theorem text_injective {o o' : Origin} (h : o.text = o'.text) : o = o' := by
  -- behind its first character a label has the digits of its number, or none if it is a name
  have hdigits := congrArg (fun s : String => s.toList.tail.takeWhile Char.isDigit) h
  cases hn : o.numbered with
  | none =>
    cases hn' : o'.numbered with
    | none =>
      cases o <;> cases o' <;> simp_all [text, numbered, Symbol.struct, Symbol.global,
        Symbol.function, ← String.toList_inj]
    | some p =>
      simp only [takeWhile_text_named hn, takeWhile_text hn'] at hdigits
      exact absurd hdigits.symm Nat.toDigits_ne_nil
  | some p =>
    cases hn' : o'.numbered with
    | none =>
      simp only [takeWhile_text_named hn', takeWhile_text hn] at hdigits
      exact absurd hdigits Nat.toDigits_ne_nil
    | some p' =>
      simp only [takeWhile_text hn, takeWhile_text hn'] at hdigits
      have hnum : p.1 = p'.1 := by
        simpa using congrArg (fun ds => Nat.ofDigitChars 10 ds 0) hdigits
      have hrest : p.2 = p'.2 := by
        have hlist := congrArg String.toList h
        rw [text_of_numbered hn, text_of_numbered hn', hnum] at hlist
        exact List.append_cancel_left (List.cons.inj hlist).2
      apply numbered_injective (by rw [hn]; rfl)
      rw [hn, hn', Prod.ext hnum hrest]

end Origin

theorem Symbol.generated_injective : Function.Injective generated :=
  fun _ _ h => Origin.generated.inj (Origin.text_injective h)

end UnitCompiler
