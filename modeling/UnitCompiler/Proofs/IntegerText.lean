import UnitCompiler.Proofs.Casts
import UnitCompiler.Proofs.Origins

namespace UnitCompiler

namespace Text

def Blank (s : String) : Prop := ∀ ch ∈ s.toList, isBlank ch = true

theorem blank_empty : Blank "" := List.forall_mem_nil _

theorem isBlank_of_isDigit {ch : Char} (h : ch.isDigit = true) : isBlank ch = false := by
  have hbounds := Char.isDigit_iff_toNat.mp h
  simp only [Char.reduceToNat] at hbounds
  have houtside : ∀ r ∈ blankRanges, r.2 < 48 ∨ 57 < r.1 := by decide
  refine List.any_eq_false.mpr fun r hr => ?_
  have hr := houtside r hr
  simp only [Bool.and_eq_true, decide_eq_true_eq]
  omega

theorem dropWhile_isBlank {cs : List Char} (h : ∀ ch ∈ cs, isBlank ch = false) (hne : cs ≠ []) (rest : List Char) :
    (cs ++ rest).dropWhile isBlank = cs ++ rest := by
  obtain ⟨ch, cs, rfl⟩ := List.exists_cons_of_ne_nil hne
  exact List.dropWhile_cons_of_neg (by simp [h ch List.mem_cons_self])

/-- White space around a text that has none is all that is dropped. -/
theorem trim_between {before cs after : List Char} (hbefore : ∀ ch ∈ before, isBlank ch = true)
    (hcs : ∀ ch ∈ cs, isBlank ch = false) (hne : cs ≠ []) (hafter : ∀ ch ∈ after, isBlank ch = true) :
    trim (before ++ cs ++ after) = cs := by
  have hfront : (before ++ cs ++ after).dropWhile isBlank = cs ++ after := by
    rw [List.append_assoc, List.dropWhile_append_of_pos hbefore, dropWhile_isBlank hcs hne]
  have hback : (cs ++ after).reverse.dropWhile isBlank = cs.reverse := by
    rw [List.reverse_append, List.dropWhile_append_of_pos fun ch hch => hafter ch (List.mem_reverse.mp hch)]
    have hdrop := dropWhile_isBlank (fun ch hch => hcs ch (List.mem_reverse.mp hch))
      (List.reverse_ne_nil_iff.mpr hne) []
    rwa [List.append_nil] at hdrop
  rw [trim, hfront, hback, List.reverse_reverse]

theorem takeSign_of_isDigit {ds : List Char} (h : ∀ ch ∈ ds, ch.isDigit = true) : takeSign ds = (false, ds) := by
  unfold takeSign
  split
  · exact absurd (h '-' List.mem_cons_self) (by decide)
  · exact absurd (h '+' List.mem_cons_self) (by decide)
  · rfl

theorem toList_integerText (i : Int) :
    (integerText i).toList = (if i < 0 then ['-'] else []) ++ Nat.toDigits 10 i.natAbs := by
  unfold integerText
  split <;> simp

theorem integerText_ne_nil (i : Int) : (integerText i).toList ≠ [] := by
  rw [toList_integerText]
  exact List.append_ne_nil_of_right_ne_nil _ Nat.toDigits_ne_nil

theorem isBlank_integerText (i : Int) : ∀ ch ∈ (integerText i).toList, isBlank ch = false := by
  intro ch hch
  rw [toList_integerText] at hch
  obtain hsign | hdigit := List.mem_append.mp hch
  · split at hsign
    · rw [List.mem_singleton.mp hsign]
      decide
    · cases hsign
  · exact isBlank_of_isDigit (Origin.digits_isDigit _ ch hdigit)

theorem takeSign_integerText (i : Int) :
    takeSign (integerText i).toList = (decide (i < 0), Nat.toDigits 10 i.natAbs) := by
  rw [toList_integerText]
  by_cases h : i < 0
  · simp only [h, if_true, decide_true]
    rfl
  · simp only [h, if_false, decide_false, List.nil_append]
    exact takeSign_of_isDigit (Origin.digits_isDigit _)

/-- What is printed of an integer in the range is read back; the least one has no positive counterpart. -/
theorem readInt32?_integerText {i : Int} (hlow : -2147483648 ≤ i) (hhigh : i ≤ 2147483647) :
    readInt32? (integerText i).toList = some (Int32.ofInt i) := by
  have hdigits : (Nat.toDigits 10 i.natAbs).all Char.isDigit = true :=
    List.all_eq_true.mpr (Origin.digits_isDigit _)
  have hnumber : Nat.ofDigitChars 10 (Nat.toDigits 10 i.natAbs) 0 = i.natAbs :=
    Nat.ofDigitChars_toDigits (by decide) (Nat.le_refl 10)
  have hsigned : (if decide (i < 0) = true then -(i.natAbs : Int) else i.natAbs) = i := by
    by_cases h : i < 0
    · rw [decide_eq_true h, if_pos rfl]
      omega
    · rw [decide_eq_false h, if_neg Bool.false_ne_true]
      omega
  simp only [readInt32?, takeSign_integerText, hdigits, hnumber, hsigned]
  simp [Nat.toDigits_ne_nil, hlow, hhigh]

end Text

/-- White space around an integer does not matter. -/
theorem Literal.toInt32_string (v : Int32) {before after : String} (hbefore : Text.Blank before)
    (hafter : Text.Blank after) :
    (Literal.string (before ++ (Literal.int v).toText ++ after)).toInt32 = v := by
  have htrim : Text.trim (before ++ (Literal.int v).toText ++ after).toList = (Text.integerText v.toInt).toList := by
    rw [String.toList_append, String.toList_append]
    exact Text.trim_between hbefore (Text.isBlank_integerText _) (Text.integerText_ne_nil _) hafter
  have hread : Text.readInt32? (Text.integerText v.toInt).toList = some v := by
    have hlow := v.le_toInt
    have hhigh := v.toInt_lt
    rw [Text.readInt32?_integerText (by omega) (by omega), Int32.ofInt_toInt]
  simp only [Literal.toInt32, htrim, hread]

namespace Value

variable {types : Arena} {source target : TypeId}

/-- A literal is converted to a type other than its own. -/
theorem cast_const_of_ne {lit : Literal} {s t : Ty} (hs : types.get? source = some s)
    (ht : types.get? target = some t) (hne : s ≠ t) (hconst : t.isConst = false) :
    (Value.const lit source).cast types target =
      (castLiteral types lit source target).map fun w => .const w target := by
  have hid : (source == target) = false := by
    rw [beq_eq_false_iff_ne]
    rintro rfl
    exact hne (Option.some.inj (hs.symm.trans ht))
  have hsame : types.same source target = false := by
    rw [Arena.same_eq_beq (Or.inr _), hid]
    rw [Arena.isConst, ht]
    exact hconst
  simp only [Value.cast, hsame]
  rfl

end Value

/-- An integer survives as a text. Whatever white space is put around its digits, they are read as the same number and
never as a rounded one. So a constant that is cast to a text and back is the constant it was. -/
theorem integer_text_reads_back (v : Int32) :
    (∀ before after : String, Text.Blank before → Text.Blank after →
      (Literal.string (before ++ (Literal.int v).toText ++ after)).toInt32 = v) ∧
    ∀ {types : Arena} {source text target : TypeId}, types.get? source = some .int →
      types.get? text = some .string → types.get? target = some .int →
      ∃ w, (Value.const (.int v) source).cast types text = .ok w ∧
        w.fold? = some (.string (Literal.int v).toText) ∧
        w.cast types target = .ok (.const (.int v) target) := by
  refine ⟨fun before after hbefore hafter => Literal.toInt32_string v hbefore hafter, ?_⟩
  intro types source text target hsource htext htarget
  refine ⟨.const (.string (Literal.int v).toText) text, ?_, rfl, ?_⟩
  · rw [Value.cast_const_of_ne hsource htext (by decide) rfl]
    simp only [Value.castLiteral, htext]
    rfl
  · have hback := Literal.toInt32_string v Text.blank_empty Text.blank_empty
    rw [String.empty_append, String.append_empty] at hback
    rw [Value.cast_const_of_ne htext htarget (by decide) rfl]
    simp only [Value.castLiteral, htarget, hback]
    rfl

/-- The least integer between an ideographic space, a tab and a line feed. -/
theorem integer_text_reads_back_least :
    Text.Blank "\u3000\t" ∧ Text.Blank "\n" ∧
    (Literal.string ("\u3000\t" ++ "-2147483648" ++ "\n")).toInt32 = -2147483648 ∧
    ∃ w, (Value.const (.int (-2147483648)) .int).cast .initial .string = .ok w ∧
      w.fold? = some (.string "-2147483648") ∧ w.cast .initial .int = .ok (.const (.int (-2147483648)) .int) := by
  have hbefore : Text.Blank "\u3000\t" := List.all_eq_true.mp (by decide)
  have hafter : Text.Blank "\n" := List.all_eq_true.mp (by decide)
  have htext : (Literal.int (-2147483648)).toText = "-2147483648" := by decide +kernel
  obtain ⟨hread, hcast⟩ := integer_text_reads_back (-2147483648)
  rw [htext] at hread
  refine ⟨hbefore, hafter, hread _ _ hbefore hafter, ?_⟩
  rw [← htext]
  exact hcast rfl rfl rfl

end UnitCompiler
