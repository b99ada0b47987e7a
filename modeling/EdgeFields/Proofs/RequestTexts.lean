import EdgeFields.Proofs.CleanTexts
import EdgeFields.Proofs.FilterClauses

/-!
# Texts of requests

A cleaned text has no blanks at its ends (`Text.trim_clean`).  Cleaning does not change the decimal of a number
(`Text.clean_toString`), so that numbers come through a request as they are.
-/

namespace EdgeFields

namespace Text

/-! ### Trimming -/

variable {p : Char → Bool} {cs : List Char}

theorem trimWith_trimWith : trimWith p (trimWith p cs) = trimWith p cs :=
  trimWith_eq_self_of_ends (fun _ => head_trimWith) (fun _ => last_trimWith)

theorem trimWith_eq_self (h : ∀ c ∈ cs, p c = false) : trimWith p cs = cs :=
  trimWith_eq_self_of_ends (fun c hc => h c (List.mem_of_mem_head? hc))
    (fun c hc => h c (List.mem_of_mem_getLast? hc))

/-- A cleaned text has no blanks at its ends. -/
theorem trim_clean (s : String) : trim (clean s) = clean s := by
  rw [trim, clean, String.toList_ofList, cleanChars, trimChars, trimChars, trimWith_trimWith]

/-! ### Texts that stay as they are -/

/-- Cleaning does not change a text without tags, blanks and control characters. -/
theorem clean_eq_self {s : String} (htag : '<' ∉ s.toList) (hblank : ∀ c ∈ s.toList, isBlank c = false)
    (hcontrol : ∀ c ∈ s.toList, isControl c = false) : clean s = s := by
  have hclean : IsClean s.toList := by
    constructor
    case untagged => exact List.pairwise_of_forall_mem_list fun c hc _ _ heq => absurd (heq ▸ hc) htag
    case plain => exact fun c hc h => absurd (isControl_iff.2 h) (by simp [hcontrol c hc])
    case spaces => exact fun c hc h => absurd h (by simp [hblank c hc])
    case single => exact List.Pairwise.isChain (List.pairwise_of_forall_mem_list fun _ _ d hd => fun _ => hblank d hd)
    case head => exact fun c hc => hblank c (List.mem_of_mem_head? hc)
    case last => exact fun c hc => hblank c (List.mem_of_mem_getLast? hc)
  rw [clean, cleanChars_eq_self hclean, String.ofList_toList]

/-! ### Decimals of numbers -/

theorem toList_toString (n : Int) :
    (toString n).toList = if 0 ≤ n then Nat.toDigits 10 n.toNat else '-' :: Nat.toDigits 10 (-n).toNat := by
  rw [Int.toString_eq_repr, Int.repr_eq_if]
  split <;> simp

theorem isDigit_of_mem_toDigits {m : Nat} {c : Char} (h : c ∈ Nat.toDigits 10 m) : c.isDigit = true :=
  Nat.isDigit_of_mem_toDigits (by decide) (by decide) h

/-- The characters of a decimal. -/
theorem isDigit_of_mem_toString {n : Int} {c : Char} (h : c ∈ (toString n).toList) : c = '-' ∨ c.isDigit = true := by
  rw [toList_toString] at h
  split at h
  · exact .inr (isDigit_of_mem_toDigits h)
  · exact (List.mem_cons.1 h).imp_right isDigit_of_mem_toDigits

theorem toNat_of_mem_toString {n : Int} {c : Char} (h : c ∈ (toString n).toList) :
    c.toNat = 45 ∨ (48 ≤ c.toNat ∧ c.toNat ≤ 57) := by
  rcases isDigit_of_mem_toString h with rfl | h
  · exact .inl rfl
  · exact .inr (toNat_of_isDigit h)

private theorem isBlank_of_mem_toString {n : Int} {c : Char} (h : c ∈ (toString n).toList) : isBlank c = false := by
  rcases isDigit_of_mem_toString h with rfl | h
  · decide
  · exact isBlank_of_isDigit h

/-- Cleaning does not change the decimal of a number. -/
theorem clean_toString (n : Int) : clean (toString n) = toString n := by
  refine clean_eq_self (fun h => ?_) (fun c hc => isBlank_of_mem_toString hc) fun c hc => ?_
  · have hc := toNat_of_mem_toString h
    simp at hc
  · have hc := toNat_of_mem_toString hc
    simp only [isControl, Bool.or_eq_false_iff, decide_eq_false_iff_not, beq_eq_false_iff_ne]
    omega

theorem splitSign_of_isDigit (h : ∀ c ∈ cs, c.isDigit = true) : splitSign cs = (false, cs) := by
  unfold splitSign
  split
  · exact absurd (h '-' (List.mem_cons_self ..)) (by decide)
  · exact absurd (h '+' (List.mem_cons_self ..)) (by decide)
  · rfl

end Text

end EdgeFields
