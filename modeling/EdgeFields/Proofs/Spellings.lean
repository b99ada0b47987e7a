import EdgeFields.Proofs.Decimals
import Mathlib.Data.List.DropRight
import Mathlib.Data.List.Induction

/-!
# Spellings of numbers

A number has many spellings: blanks may stand around it, zeros in front of its digits, a plus in front of them
unless it is negative, and zero has a minus as well.  These are all the texts that denote it (`Filter.denotes_iff`).
A filter compares each of them with the number if it has 32 bits, and any other text with slugs and titles
(`Filter.valueClauses_compares`).
-/

namespace EdgeFields

namespace Text

variable {p : Char → Bool} {cs : List Char} {n : Int}

/-! ### Trimming -/

/-- Trimming takes away all that was to be dropped around a text. -/
private theorem trimWith_append {before after : List Char} (hbefore : ∀ c ∈ before, p c = true)
    (hafter : ∀ c ∈ after, p c = true) : trimWith p (before ++ cs ++ after) = trimWith p cs := by
  rw [trimWith, trimWith, List.append_assoc, List.dropWhile_append_of_pos hbefore, List.dropWhile_append]
  cases hfront : cs.dropWhile p with
  | nil =>
    rw [List.dropWhile_eq_nil_iff.2 hafter]
    rfl
  | cons c ds =>
    have hbehind : ∀ d ∈ after.reverse, p d = true := fun d hd => hafter d (List.mem_reverse.1 hd)
    rw [List.isEmpty_cons, if_neg Bool.false_ne_true, List.reverse_append, List.dropWhile_append_of_pos hbehind]

private theorem exists_eq_append_trimWith (p : Char → Bool) (cs : List Char) : ∃ before after,
    (∀ c ∈ before, p c = true) ∧ (∀ c ∈ after, p c = true) ∧ cs = before ++ trimWith p cs ++ after := by
  refine ⟨cs.takeWhile p, (cs.dropWhile p).rtakeWhile p, ?_, ?_, ?_⟩
  · intro c hc
    exact List.mem_takeWhile_imp hc
  · intro c hc
    exact List.mem_rtakeWhile_imp hc
  · have hback : trimWith p cs ++ (cs.dropWhile p).rtakeWhile p = cs.dropWhile p :=
      List.rdropWhile_append_rtakeWhile ..
    rw [List.append_assoc, hback, List.takeWhile_append_dropWhile]

/-! ### Digits -/

/-- The digits of a number behind some zeros. -/
def padded (zeros m : Nat) : List Char :=
  List.replicate zeros '0' ++ Nat.toDigits 10 m

private theorem isDigits_padded (zeros m : Nat) : IsDigits (padded zeros m) := by
  constructor
  · exact List.append_ne_nil_of_right_ne_nil _ Nat.toDigits_ne_nil
  · intro c hc
    rcases List.mem_append.1 hc with hc | hc
    · rw [List.eq_of_mem_replicate hc]
      decide
    · exact isDigit_of_mem_toDigits hc

private theorem ofDigitChars_padded (zeros m : Nat) : Nat.ofDigitChars 10 (padded zeros m) 0 = m := by
  rw [padded, Nat.ofDigitChars_append, Nat.ofDigitChars_replicate_zero, Nat.mul_zero, Nat.ofDigitChars_ten_toDigits]

private theorem toDigits_of_isDigit {c : Char} (h : c.isDigit = true) : Nat.toDigits 10 (c.toNat - 48) = [c] := by
  have hc := toNat_of_isDigit h
  have hvalue : (c.toNat - 48).digitChar.toNat = c.toNat := by
    have hdigit : ∀ d < 10, d.digitChar.toNat = d + 48 := by decide
    rw [hdigit _ (by omega)]
    omega
  rw [Nat.toDigits_of_lt_base (by omega), Char.toNat_inj.1 hvalue]

/-- Digits spell the number that they denote, behind some zeros. -/
private theorem IsDigits.exists_eq_padded (h : IsDigits cs) :
    ∃ zeros, cs = padded zeros (Nat.ofDigitChars 10 cs 0) := by
  obtain ⟨hne, hdigits⟩ := h
  -- From the right: the digits before the last one spell a tenth of the number, rounded down.
  induction cs using List.reverseRecOn with
  | nil => exact absurd rfl hne
  | append_singleton ds c ih =>
    have hc : c.isDigit = true := hdigits c (by simp)
    have hlast := toDigits_of_isDigit hc
    have hten := toNat_of_isDigit hc
    have hvalue : Nat.ofDigitChars 10 (ds ++ [c]) 0 = 10 * Nat.ofDigitChars 10 ds 0 + (c.toNat - 48) := by
      rw [Nat.ofDigitChars_append]
      rfl
    by_cases hds : ds = []
    · subst hds
      refine ⟨0, ?_⟩
      rw [hvalue, Nat.ofDigitChars_nil, Nat.mul_zero, Nat.zero_add, padded, hlast]
      rfl
    · obtain ⟨zeros, hzeros⟩ := ih hds fun d hd => hdigits d (List.mem_append_left _ hd)
      generalize Nat.ofDigitChars 10 ds 0 = m at hvalue hzeros
      rw [hvalue, hzeros]
      by_cases hm : m = 0
      · -- Zero is no part of the digits of the number: it becomes one of the zeros in front.
        subst hm
        refine ⟨zeros + 1, ?_⟩
        rw [padded, padded, Nat.mul_zero, Nat.zero_add, hlast, Nat.toDigits_zero, List.replicate_succ']
      · refine ⟨zeros, ?_⟩
        have hdigit : c.toNat - 48 < 10 := by omega
        rw [padded, padded, List.append_assoc, ← hlast,
          Nat.toDigits_append_toDigits (by decide) (Nat.pos_of_ne_zero hm) hdigit]

/-! ### Signs -/

/-- The signs that a number may have. -/
inductive SignOf (n : Int) : List Char → Prop where
  | plain (h : 0 ≤ n) : SignOf n []
  | plus (h : 0 ≤ n) : SignOf n ['+']
  | minus (h : n ≤ 0) : SignOf n ['-']

private theorem decimal_signed {sign : List Char} (h : SignOf n sign) (zeros : Nat) :
    Decimal (sign ++ padded zeros n.natAbs) n := by
  have hdigits := isDigits_padded zeros n.natAbs
  have hvalue := ofDigitChars_padded zeros n.natAbs
  cases h with
  | plain h =>
    have hdecimal := Decimal.plain hdigits
    rwa [hvalue, Int.natAbs_of_nonneg h] at hdecimal
  | plus h =>
    have hdecimal := Decimal.plus hdigits
    rwa [hvalue, Int.natAbs_of_nonneg h] at hdecimal
  | minus h =>
    have hdecimal := Decimal.minus hdigits
    rwa [hvalue, Int.ofNat_natAbs_of_nonpos h, Int.neg_neg] at hdecimal

/-- The decimals of a number are its digits behind zeros and one of its signs. -/
private theorem decimal_iff_signed :
    Decimal cs n ↔ ∃ sign zeros, SignOf n sign ∧ cs = sign ++ padded zeros n.natAbs := by
  constructor
  · rintro (h | h | h)
    · obtain ⟨zeros, hzeros⟩ := h.exists_eq_padded
      exact ⟨[], zeros, .plain (Int.natCast_nonneg _), hzeros⟩
    · obtain ⟨zeros, hzeros⟩ := h.exists_eq_padded
      exact ⟨['+'], zeros, .plus (Int.natCast_nonneg _), congrArg ('+' :: ·) hzeros⟩
    · obtain ⟨zeros, hzeros⟩ := h.exists_eq_padded
      refine ⟨['-'], zeros, .minus (by omega), ?_⟩
      rw [Int.natAbs_neg, Int.natAbs_natCast]
      exact congrArg ('-' :: ·) hzeros
  · rintro ⟨sign, zeros, hsign, rfl⟩
    exact decimal_signed hsign zeros

private theorem isBlank_of_mem_decimal (h : Decimal cs n) {c : Char} (hc : c ∈ cs) : isBlank c = false := by
  have hdigit : ∀ {ds : List Char}, IsDigits ds → c ∈ ds → isBlank c = false := by
    intro ds hds hc
    exact isBlank_of_isDigit (hds.2 c hc)
  rcases h with h | h | h
  · exact hdigit h hc
  · rcases List.mem_cons.1 hc with rfl | hc
    · decide
    · exact hdigit h hc
  · rcases List.mem_cons.1 hc with rfl | hc
    · decide
    · exact hdigit h hc

private theorem splitSign_signed {sign : List Char} (h : SignOf n sign) (hdigits : IsDigits cs) :
    (splitSign (sign ++ cs)).2 = cs := by
  cases h with
  | plain => rw [List.nil_append, splitSign_of_isDigit hdigits.2]
  | plus => rfl
  | minus => rfl

/-! ### Spellings -/

/-- A way to write a number: one of its signs, zeros and its digits, with blanks around them. -/
structure Spelling (n : Int) where
  before : List Char
  sign : List Char
  zeros : Nat
  after : List Char
  signOf : SignOf n sign
  blank_before : ∀ c ∈ before, isBlank c = true
  blank_after : ∀ c ∈ after, isBlank c = true

namespace Spelling

variable (w : Spelling n)

/-- The zeros and the digits of a spelling. -/
def digits : List Char :=
  padded w.zeros n.natAbs

/-- The text of a spelling. -/
def text : String :=
  String.ofList (w.before ++ (w.sign ++ w.digits) ++ w.after)

private theorem decimal : Decimal (w.sign ++ w.digits) n :=
  decimal_signed w.signOf w.zeros

private theorem trimChars_text : trimChars w.text.toList = w.sign ++ w.digits := by
  have hblank : ∀ c ∈ w.sign ++ w.digits, isBlank c = false := fun c hc => isBlank_of_mem_decimal w.decimal hc
  rw [text, String.toList_ofList, trimChars, trimWith_append w.blank_before w.blank_after, trimWith_eq_self hblank]

private theorem splitSign_trimChars_text : (splitSign (trimChars w.text.toList)).2 = w.digits := by
  have hdigits : IsDigits w.digits := isDigits_padded w.zeros n.natAbs
  rw [trimChars_text, splitSign_signed w.signOf hdigits]

end Spelling

/-- The texts that are decimals but for blanks around them are the spellings of numbers. -/
private theorem decimal_trim_iff {s : String} : Decimal (trim s).toList n ↔ ∃ w : Spelling n, w.text = s := by
  rw [toList_trim]
  constructor
  · intro h
    obtain ⟨sign, zeros, hsign, hcs⟩ := decimal_iff_signed.1 h
    obtain ⟨before, after, hbefore, hafter, hs⟩ := exists_eq_append_trimWith isBlank s.toList
    refine ⟨{ before, sign, zeros, after, signOf := hsign, blank_before := hbefore, blank_after := hafter }, ?_⟩
    rw [← String.toList_inj, Spelling.text, String.toList_ofList, hs]
    rw [trimChars] at hcs
    rw [hcs]
    rfl
  · rintro ⟨w, rfl⟩
    rw [w.trimChars_text]
    exact w.decimal

/-- The spelling of a number with as few characters as there are. -/
def Spelling.shortest (n : Int) : Spelling n where
  before := []
  sign := if n < 0 then ['-'] else []
  zeros := 0
  after := []
  signOf := by
    split
    · exact .minus (by omega)
    · exact .plain (by omega)
  blank_before := List.forall_mem_nil _
  blank_after := List.forall_mem_nil _

private theorem text_shortest (n : Int) : (Spelling.shortest n).text = toString n := by
  have htext : (Spelling.shortest n).text.toList = (if n < 0 then ['-'] else []) ++ Nat.toDigits 10 n.natAbs := by
    rw [Spelling.text, String.toList_ofList]
    exact List.append_nil _
  rw [← String.toList_inj, htext, toList_toString]
  by_cases h : n < 0
  · have habs : n.natAbs = (-n).toNat := by omega
    rw [if_pos h, if_neg (Int.not_le.2 h), habs]
    rfl
  · have habs : n.natAbs = n.toNat := by omega
    rw [if_neg h, if_pos (Int.not_lt.1 h), habs]
    rfl

/-- Different numbers have different decimals. -/
theorem eq_of_toString_eq {m n : Int} (h : toString m = toString n) : m = n := by
  have hm := decimal_trim_iff.2 ⟨_, text_shortest m⟩
  have hn := decimal_trim_iff.2 ⟨_, text_shortest n⟩
  rw [h] at hm
  exact hm.unique hn

end Text

namespace Filter

open Text (Spelling)

variable {n : Int}

/-- The texts that denote a number are its spellings, if it has 32 bits. -/
theorem denotes_iff {s : String} :
    Denotes s n ↔ (∃ w : Spelling n, w.text = s) ∧ -2147483648 ≤ n ∧ n ≤ 2147483647 := by
  rw [Denotes, Text.decimal_trim_iff]

/-- A spelling can be read exactly if it has not too many digits, however many blanks there are. -/
private theorem legible_text_iff (w : Spelling n) : Legible w.text ↔ w.digits.length ≤ Text.digitLimit := by
  have hdecimal : isDecimal (Text.trimChars w.text.toList) = true := by
    rw [isDecimal_iff, w.splitSign_trimChars_text]
    exact Text.isDigits_padded w.zeros n.natAbs
  rw [Legible, w.splitSign_trimChars_text]
  exact ⟨fun h => h hdecimal, fun h _ => h⟩

theorem denotes_toString (hleast : leastId ≤ n) (hgreatest : n ≤ greatestId) : Denotes (toString n) n :=
  denotes_iff.2 ⟨⟨_, Text.text_shortest n⟩, hleast, hgreatest⟩

theorem legible_toString (hleast : leastId ≤ n) (hgreatest : n ≤ greatestId) : Legible (toString n) := by
  have hdigits : (Nat.toDigits 10 n.natAbs).length ≤ 10 := by
    rw [Nat.length_toDigits_le_iff (by decide) (by decide)]
    rw [leastId] at hleast
    rw [greatestId] at hgreatest
    omega
  have hlimit : (10 : Nat) ≤ Text.digitLimit := by decide
  rw [← Text.text_shortest, legible_text_iff]
  exact hdigits.trans hlimit

private theorem isEntityNumber_eq_true_iff {s : String} (hs : Legible s) :
    isEntityNumber (.string s) = .ok true ↔ ∃ n, Denotes s n := by
  obtain ⟨found, hfound, hiff⟩ := entityNumber?_eq hs
  rw [isEntityNumber, textOf, ok_bind, hfound, ok_bind, pure_eq_ok, Except.ok.injEq, Option.isSome_iff_exists]
  exact exists_congr hiff

private theorem comparison_inj {kind member : String} {field v w : Value} :
    comparison kind field member v = comparison kind field member w ↔ v = w := by
  simp [comparison]

/-- A text of at most 4300 characters is compared with the number of 32 bits that it denotes, and that is when it is
taken for the number of an entity; a text that denotes none is compared, as it is, with slugs and titles.  Of a
number of 32 bits all spellings are compared with it but those of more than 4300 digits. -/
theorem valueClauses_compares (field : Value) :
    (∀ s : String, s.length ≤ 4300 → ∃ found, valueClauses field (.string s) = .ok found ∧
      (isEntityNumber (.string s) = .ok true ↔ ∃ n, Denotes s n) ∧
      (∀ v, found = [comparison "term" field "entity_id" v] ↔ ∃ n, v = .int n ∧ Denotes s n) ∧
      ((∀ n, ¬ Denotes s n) → found = [comparison "term" field "slug" (.string s),
        comparison "term" field "title.raw" (.string s), comparison "match" field "title" (.string s)])) ∧
    ∀ n : Int, -2147483648 ≤ n → n ≤ 2147483647 → ∀ w : Spelling n,
      (valueClauses field (.string w.text) = .ok [comparison "term" field "entity_id" (.int n)] ↔
        w.digits.length ≤ 4300) := by
  constructor
  · intro s hs
    have hlegible : Legible s := legible_of_length_le (String.length_toList ▸ hs)
    have hnumber := isEntityNumber_eq_true_iff hlegible
    by_cases h : ∃ n, Denotes s n
    · obtain ⟨n, hn⟩ := h
      refine ⟨_, valueClauses_of_denotes field hlegible hn, hnumber, ?_, ?_⟩
      · intro v
        rw [List.cons.injEq, and_iff_left rfl, comparison_inj]
        constructor
        · rintro rfl
          exact ⟨n, rfl, hn⟩
        · rintro ⟨m, rfl, hm⟩
          rw [hn.unique hm]
      · intro hnone
        exact absurd hn (hnone n)
    · rw [not_exists] at h
      refine ⟨_, valueClauses_of_not_denotes field hlegible h, hnumber, ?_, fun _ => rfl⟩
      intro v
      have hthree : ∀ a b c d : Value, [a, b, c] ≠ [d] := by simp
      refine iff_of_false (hthree _ _ _ _) ?_
      rintro ⟨n, -, hn⟩
      exact h n hn
  · intro n hleast hgreatest w
    have hdenotes : Denotes w.text n := denotes_iff.2 ⟨⟨w, rfl⟩, hleast, hgreatest⟩
    constructor
    · intro h
      exact (legible_text_iff w).1 (valueClauses_eq_ok_iff.1 ⟨_, h⟩)
    · intro h
      exact valueClauses_of_denotes field ((legible_text_iff w).2 h) hdenotes

/-- A spelling of the least number, with blanks that are no spaces. -/
def leastSpelled : Spelling (-2147483648) where
  before := ['\u2003', '\x1c']
  sign := ['-']
  zeros := 3
  after := ['\n']
  signOf := .minus (by decide)
  blank_before := List.all_eq_true.1 rfl
  blank_after := List.all_eq_true.1 rfl

/-- A spelling of the number behind the greatest one. -/
def tooGreatSpelled : Spelling 2147483648 where
  before := []
  sign := ['+']
  zeros := 0
  after := []
  signOf := .plus (by decide)
  blank_before := List.all_eq_true.1 rfl
  blank_after := List.all_eq_true.1 rfl

theorem valueClauses_compares_ends :
    leastSpelled.text = "\u2003\x1c-0002147483648\n" ∧ leastSpelled.digits.length ≤ 4300 ∧
      valueClauses (.string "related_sponsors_company") (.string "\u2003\x1c-0002147483648\n") =
        .ok [comparison "term" (.string "related_sponsors_company") "entity_id" (.int (-2147483648))] ∧
    tooGreatSpelled.text = "+2147483648" ∧ "+2147483648".length ≤ 4300 ∧
      valueClauses (.string "related_sponsors_company") (.string "+2147483648") =
        .ok [comparison "term" (.string "related_sponsors_company") "slug" (.string "+2147483648"),
          comparison "term" (.string "related_sponsors_company") "title.raw" (.string "+2147483648"),
          comparison "match" (.string "related_sponsors_company") "title" (.string "+2147483648")] := by
  have hleast : leastSpelled.text = "\u2003\x1c-0002147483648\n" := by decide
  have hgreat : tooGreatSpelled.text = "+2147483648" := by decide
  have hdigits : leastSpelled.digits.length ≤ 4300 := by decide
  have hlength : "+2147483648".length ≤ 4300 := by decide
  obtain ⟨htexts, hspellings⟩ := valueClauses_compares (.string "related_sponsors_company")
  refine ⟨hleast, hdigits, ?_, hgreat, hlength, ?_⟩
  · rw [← hleast]
    exact (hspellings _ (by decide) (by decide) leastSpelled).2 hdigits
  · have hnone : ∀ n, ¬ Denotes "+2147483648" n := by
      intro n hn
      have hsame := (Text.decimal_trim_iff.2 ⟨tooGreatSpelled, hgreat⟩).unique hn.1
      have hrange := hn.2
      omega
    obtain ⟨found, hfound, -, -, hother⟩ := htexts "+2147483648" hlength
    rw [hfound, hother hnone]

end Filter

end EdgeFields
