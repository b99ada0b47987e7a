import EdgeFields.Proofs.RequestTexts

/-!
# Decimals

A decimal is one or more digits of ASCII behind at most one sign, and it denotes one number.  The texts that filters
compare with the numbers of entities are, blanks around them apart, the decimals of the numbers in their range
(`Filter.entityNumber?_eq`); leading zeros and the sign of a positive number do not matter.
-/

namespace EdgeFields

namespace Text

/-- Whether there is a character, and all are digits of ASCII. -/
def IsDigits (cs : List Char) : Prop :=
  cs ≠ [] ∧ ∀ c ∈ cs, c.isDigit = true

/-- The decimals of a number. -/
inductive Decimal : List Char → Int → Prop where
  | plain {cs : List Char} (h : IsDigits cs) : Decimal cs (Nat.ofDigitChars 10 cs 0)
  | plus {cs : List Char} (h : IsDigits cs) : Decimal ('+' :: cs) (Nat.ofDigitChars 10 cs 0)
  | minus {cs : List Char} (h : IsDigits cs) : Decimal ('-' :: cs) (-Nat.ofDigitChars 10 cs 0)

variable {cs : List Char} {n : Int}

private theorem ofDigits_map (cs : List Char) : ofDigits (cs.map (·.toNat - 48)) = Nat.ofDigitChars 10 cs 0 := by
  rw [ofDigits, List.foldl_map]
  rfl

/-- A decimal is told by what is left of it without its sign. -/
private theorem decimal_iff : Decimal cs n ↔ IsDigits (splitSign cs).2 ∧
    n = if (splitSign cs).1 then -(Nat.ofDigitChars 10 (splitSign cs).2 0 : Int)
      else Nat.ofDigitChars 10 (splitSign cs).2 0 := by
  constructor
  · rintro (h | h | h)
    · rw [splitSign_of_isDigit h.2]
      exact ⟨h, rfl⟩
    · exact ⟨h, rfl⟩
    · exact ⟨h, rfl⟩
  · unfold splitSign
    split
    · rintro ⟨h, rfl⟩
      exact .minus h
    · rintro ⟨h, rfl⟩
      exact .plus h
    · rintro ⟨h, rfl⟩
      exact .plain h

/-- A decimal denotes one number. -/
theorem Decimal.unique {m : Int} (hm : Decimal cs m) (hn : Decimal cs n) : m = n :=
  (decimal_iff.1 hm).2.trans (decimal_iff.1 hn).2.symm

/-- What is short enough is read as the number that it denotes. -/
private theorem readInteger_eq_ok_iff (h : IsDigits (splitSign cs).2)
    (hshort : (splitSign cs).2.length ≤ digitLimit) : readInteger cs = .ok n ↔ Decimal cs n := by
  rw [readInteger_eq h.1 h.2, if_neg (Nat.not_lt.2 hshort), Except.ok.injEq, ofDigits_map, decimal_iff,
    and_iff_right h, eq_comm]

theorem toList_trim (s : String) : (trim s).toList = trimChars s.toList := String.toList_ofList

private theorem trim_trim (s : String) : trim (trim s) = trim s := by
  rw [trim, toList_trim, trimChars, trimChars, trimWith_trimWith]
  rfl

end Text

namespace Filter

/-- Whether a text, blanks around it apart, is a decimal of a number from `-2 ^ 31` to `2 ^ 31 - 1`. -/
def Denotes (s : String) (n : Int) : Prop :=
  Text.Decimal (Text.trim s).toList n ∧ -2147483648 ≤ n ∧ n ≤ 2147483647

theorem Denotes.unique {s : String} {m n : Int} (hm : Denotes s m) (hn : Denotes s n) : m = n :=
  hm.1.unique hn.1

theorem denotes_trim {s : String} {n : Int} : Denotes (Text.trim s) n ↔ Denotes s n := by
  rw [Denotes, Text.trim_trim]
  rfl

theorem isDecimal_iff {cs : List Char} : isDecimal cs = true ↔ Text.IsDigits (Text.splitSign cs).2 := by
  simp [isDecimal, Text.IsDigits]

/-- The number of an entity that a text is taken for is the one that it denotes. -/
theorem entityNumber?_eq {s : String} (hs : Legible s) :
    ∃ found, entityNumber? s = .ok found ∧ ∀ n, found = some n ↔ Denotes s n := by
  obtain ⟨found, hfound⟩ := entityNumber?_eq_ok_iff.2 hs
  refine ⟨found, hfound, fun n => ?_⟩
  rw [Denotes, Text.toList_trim]
  unfold entityNumber? at hfound
  unfold Legible at hs
  generalize Text.trimChars s.toList = cs at hfound hs
  cases hdecimal : isDecimal cs with
  | false =>
    obtain rfl : none = found := by simpa [hdecimal] using hfound
    have hnot : ¬ Text.IsDigits (Text.splitSign cs).2 := fun h => by simp [isDecimal_iff.2 h] at hdecimal
    exact iff_of_false (by simp) fun h => hnot (Text.decimal_iff.1 h.1).1
  | true =>
    rw [← Text.readInteger_eq_ok_iff (isDecimal_iff.1 hdecimal) (hs hdecimal)]
    cases hread : Text.readInteger cs with
    | error e => simp [hdecimal, hread, Except.mapError] at hfound
    | ok m =>
      simp only [hdecimal, hread, Except.mapError, ok_bind, Bool.not_true, Bool.false_eq_true, if_false] at hfound
      obtain rfl := Except.ok.inj hfound
      rw [Option.ite_none_right_eq_some, Option.some.injEq, Except.ok.injEq, and_comm, leastId, greatestId]
      refine and_congr_right ?_
      rintro rfl
      rfl

/-! ### Comparisons of decimals -/

theorem valueClauses_of_denotes (field : Value) {s : String} (hs : Legible s) {n : Int} (hn : Denotes s n) :
    valueClauses field (.string s) = .ok [comparison "term" field "entity_id" (.int n)] := by
  obtain ⟨found, hfound, hiff⟩ := entityNumber?_eq hs
  rw [(hiff n).2 hn] at hfound
  rw [valueClauses, textOf, ok_bind, hfound]
  rfl

theorem valueClauses_of_not_denotes (field : Value) {s : String} (hs : Legible s) (hnot : ∀ n, ¬ Denotes s n) :
    valueClauses field (.string s) = .ok [comparison "term" field "slug" (.string s),
      comparison "term" field "title.raw" (.string s), comparison "match" field "title" (.string s)] := by
  obtain ⟨found, hfound, hiff⟩ := entityNumber?_eq hs
  have hnone : found = none := by
    rw [Option.eq_none_iff_forall_ne_some]
    intro n hn
    exact hnot n ((hiff n).1 hn)
  rw [hnone] at hfound
  rw [valueClauses, textOf, ok_bind, hfound]
  rfl

end Filter

end EdgeFields
