import EdgeFields.Filter.Clause
import EdgeFields.Proofs.Outcome
import Mathlib.Data.List.Basic
import Mathlib.Data.List.TakeWhile

/-!
# When filters have clauses

Filters have clauses exactly when all their values can be read: a value has to stand for texts, and none of them may
be a decimal with more digits than are read (`clausesOf_eq_ok_iff`).  There is a clause for every field with a text
that is not blank, so that there are none only if no field has one (`clauses_eq_ok`).
-/

namespace EdgeFields

/-! ### Decimals -/

namespace Text

theorem toNat_of_isDigit {c : Char} (h : c.isDigit = true) : 48 ≤ c.toNat ∧ c.toNat ≤ 57 := by
  simp only [Char.isDigit, Bool.and_eq_true, decide_eq_true_eq] at h
  exact ⟨UInt32.le_iff_toNat_le.1 h.1, UInt32.le_iff_toNat_le.1 h.2⟩

private theorem digitValue?_of_isDigit {c : Char} (h : c.isDigit = true) : digitValue? c = some (c.toNat - 48) := by
  have hc := toNat_of_isDigit h
  rw [digitValue?, digitZeros, List.find?_cons_of_pos]
  · rfl
  · simp only [Bool.and_eq_true, decide_eq_true_eq]
    omega

theorem isBlank_of_isDigit {c : Char} (h : c.isDigit = true) : isBlank c = false := by
  have hc := toNat_of_isDigit h
  simp only [isBlank, Bool.or_eq_false_iff, Bool.and_eq_false_iff, decide_eq_false_iff_not, beq_eq_false_iff_ne]
  omega

private theorem isIntegerBlank_of_isDigit {c : Char} (h : c.isDigit = true) : isIntegerBlank c = false := by
  rw [isIntegerBlank, isBlank_of_isDigit h, Bool.false_and]

private theorem isGrouped_of_all_isDigit {cs : List Char} (hne : cs ≠ []) (h : ∀ c ∈ cs, c.isDigit = true) :
    isGrouped cs = true := by
  have hbar : ∀ c ∈ cs, c ≠ '_' := by
    rintro c hc rfl
    exact absurd (h _ hc) (by decide)
  -- Only that there are no underscores matters to the grouping.
  clear h
  fun_induction isGrouped cs with
  | case1 => exact absurd rfl hne
  | case2 cs => exact absurd rfl (hbar _ (List.mem_cons_self ..))
  | case3 => rfl
  | case4 c cs => exact absurd rfl (hbar '_' (List.mem_cons_of_mem _ (List.mem_cons_self ..)))
  | case5 c cs h₁ h₂ h₃ ih =>
    refine ih ?_ fun c' hc' => hbar c' (List.mem_cons_of_mem _ hc')
    rintro rfl
    exact h₂ rfl

private theorem splitSign_cases (cs : List Char) :
    splitSign cs = (false, cs) ∨ ∃ c, cs = c :: (splitSign cs).2 ∧ isIntegerBlank c = false := by
  unfold splitSign
  split
  · exact .inr ⟨'-', rfl, by decide⟩
  · exact .inr ⟨'+', rfl, by decide⟩
  · exact .inl rfl

private theorem length_splitSign_le (cs : List Char) : (splitSign cs).2.length ≤ cs.length := by
  rcases splitSign_cases cs with hs | ⟨c, hcs, -⟩
  · rw [hs]
  · have h := congrArg List.length hcs
    rw [List.length_cons] at h
    omega

theorem length_trimChars_le (cs : List Char) : (trimChars cs).length ≤ cs.length := by
  rw [trimChars, trimWith, List.length_reverse]
  refine (List.dropWhile_sublist _).length_le.trans ?_
  rw [List.length_reverse]
  exact (List.dropWhile_sublist _).length_le

private theorem dropWhile_eq_self {cs : List Char} (hne : (splitSign cs).2 ≠ [])
    (h : ∀ c ∈ (splitSign cs).2, c.isDigit = true) : cs.dropWhile isIntegerBlank = cs := by
  have hhead : ∃ c ds, cs = c :: ds ∧ isIntegerBlank c = false := by
    rcases splitSign_cases cs with hs | ⟨c, hcs, hc⟩
    · rw [hs] at hne h
      obtain ⟨c, ds, rfl⟩ := List.exists_cons_of_ne_nil hne
      exact ⟨c, ds, rfl, isIntegerBlank_of_isDigit (h c (List.mem_cons_self ..))⟩
    · exact ⟨c, _, hcs, hc⟩
  obtain ⟨c, ds, rfl, hc⟩ := hhead
  rw [List.dropWhile_cons_of_neg (by simp [hc])]

/-- A decimal is read as the number that its digits denote, unless they are too many. -/
theorem readInteger_eq {cs : List Char} (hne : (splitSign cs).2 ≠ []) (h : ∀ c ∈ (splitSign cs).2, c.isDigit = true) :
    readInteger cs =
      if digitLimit < (splitSign cs).2.length then .error (.tooLong (splitSign cs).2.length)
      else .ok (if (splitSign cs).1 then -(ofDigits ((splitSign cs).2.map (·.toNat - 48)) : Int)
        else ofDigits ((splitSign cs).2.map (·.toNat - 48))) := by
  have hwritten : ∀ c ∈ (splitSign cs).2, isDigitOrUnderscore c = true := fun c hc => by
    simp [isDigitOrUnderscore, digitValue?_of_isDigit (h c hc)]
  have hdigits : (splitSign cs).2.filterMap digitValue? = (splitSign cs).2.map (·.toNat - 48) :=
    List.filterMap_eq_map_iff_forall_eq_some.2 fun c hc => digitValue?_of_isDigit (h c hc)
  simp only [readInteger, dropWhile_eq_self hne h, List.takeWhile_eq_self_iff.2 hwritten,
    List.dropWhile_eq_nil_iff.2 hwritten, isGrouped_of_all_isDigit hne h, hdigits, List.length_map]
  rfl

/-- A decimal is read unless it has too many digits. -/
private theorem readInteger_of_isDigit {cs : List Char} (hne : (splitSign cs).2 ≠ [])
    (h : ∀ c ∈ (splitSign cs).2, c.isDigit = true) :
    (∃ n, readInteger cs = .ok n) ↔ (splitSign cs).2.length ≤ digitLimit := by
  rw [readInteger_eq hne h, ← Nat.not_lt]
  split <;> simp_all

end Text

/-! ### Values that can be read -/

namespace Filter

/-- Texts that are no decimals, or decimals that are not too long. -/
def Legible (s : String) : Prop :=
  isDecimal (Text.trimChars s.toList) = true →
    (Text.splitSign (Text.trimChars s.toList)).2.length ≤ Text.digitLimit

/-- Values that stand for texts which can all be compared. -/
def Readable (v : Value) : Prop :=
  ∃ ts, textsOf v = .ok ts ∧ ∀ t ∈ ts, Legible t

theorem legible_of_length_le {s : String} (h : s.toList.length ≤ Text.digitLimit) : Legible s := by
  intro _
  have htrim := Text.length_trimChars_le s.toList
  have hsign := Text.length_splitSign_le (Text.trimChars s.toList)
  omega

/-- A text can be compared with numbers exactly if it is legible. -/
theorem entityNumber?_eq_ok_iff {s : String} : (∃ n, entityNumber? s = .ok n) ↔ Legible s := by
  unfold entityNumber? Legible
  by_cases h : isDecimal (Text.trimChars s.toList) = true
  · have hdigits := h
    simp only [isDecimal, Bool.and_eq_true, Bool.not_eq_true', List.isEmpty_eq_false_iff, List.all_eq_true] at hdigits
    simp only [h, true_implies]
    rw [← Text.readInteger_of_isDigit hdigits.1 hdigits.2]
    cases Text.readInteger (Text.trimChars s.toList) with
    | error e => simp [Except.mapError]
    | ok n => simp [Except.mapError]
  · simp [h]

/-! ### Clauses of fields -/

/-- The clause of one filter, if it has one. -/
def clauseOf? (f : Key × Value) : Except Fault (Option Value) := do
  clauseFor? f.1.toValue (.list ((← textsOf f.2).map Value.string))

theorem clausesOf_cons (f : Key × Value) (active : Record) :
    clausesOf (f :: active) = do
      let c ← clauseOf? f
      let cs ← clausesOf active
      return c.toList ++ cs := by
  -- `clausesOf` leaves out missing clauses at the end; here each is left out where it is made.
  change (List.mapM clauseOf? (f :: active) >>= fun cs => pure (cs.filterMap id)) =
    clauseOf? f >>= fun c => (List.mapM clauseOf? active >>= fun cs => pure (cs.filterMap id)) >>= fun cs =>
      pure (c.toList ++ cs)
  rw [List.mapM_cons]
  cases clauseOf? f with
  | error e => rfl
  | ok c =>
    cases List.mapM clauseOf? active with
    | error e => rfl
    | ok cs => cases c <;> rfl

theorem valueClauses_eq_ok_iff {field : Value} {s : String} :
    (∃ cs, valueClauses field (.string s) = .ok cs) ↔ Legible s := by
  rw [← entityNumber?_eq_ok_iff]
  simp only [valueClauses, textOf, ok_bind]
  cases entityNumber? s with
  | error e => simp
  | ok n => cases n <;> simp

/-- The comparisons of a text with the entries of a field; none if it cannot be read. -/
def comparisonsOf (k t : String) : List Value :=
  (valueClauses (.string k) (.string t)).toOption.getD []

private theorem valueClauses_eq_ok {k t : String} (h : Legible t) :
    valueClauses (.string k) (.string t) = .ok (comparisonsOf k t) := by
  obtain ⟨qs, hqs⟩ := valueClauses_eq_ok_iff.2 h
  rw [comparisonsOf, hqs]
  rfl

/-- The clause of a filter with a text holds the comparisons of its texts. -/
theorem clauseOf?_eq {k : String} {v : Value} {ts : List String} (hts : textsOf v = .ok ts) (hne : ts ≠ [])
    (h : ∀ t ∈ ts, Legible t) :
    clauseOf? (.string k, v) = .ok (some (nested (.string k) (ts.flatMap (comparisonsOf k)))) := by
  have hclauses : (ts.map Value.string).mapM (valueClauses (.string k)) = .ok (ts.map (comparisonsOf k)) := by
    rw [List.mapM_map]
    exact mapM_eq_ok fun t ht => valueClauses_eq_ok (h t ht)
  have htruthy : (!(Value.list (ts.map .string)).truthy) = false := by
    simp [Value.truthy, hne]
  rw [clauseOf?, hts, ok_bind, clauseFor?, htruthy, Value.elements, List.flatMap_def]
  change (List.mapM (valueClauses (.string k)) _ >>= fun qss => _) = _
  rw [hclauses]
  rfl

theorem clauseOf?_eq_ok_iff {f : Key × Value} : (∃ c, clauseOf? f = .ok c) ↔ Readable f.2 := by
  unfold clauseOf? Readable
  cases textsOf f.2 with
  | error e => simp
  | ok ts =>
    have hmap : (∃ cs, (ts.map Value.string).mapM (valueClauses f.1.toValue) = .ok cs) ↔ ∀ t ∈ ts, Legible t := by
      rw [exists_mapM_eq_ok_iff, List.forall_mem_map]
      exact forall₂_congr fun t _ => valueClauses_eq_ok_iff
    simp only [ok_bind, Except.ok.injEq, exists_eq_left', ← hmap, clauseFor?, Value.elements]
    cases ts with
    | nil => simp [Value.truthy]
    | cons t ts =>
      simp only [List.map_cons, Value.truthy]
      cases List.mapM (valueClauses f.1.toValue) (.string t :: ts.map Value.string) <;> simp

private theorem textsOf_eq_nil {f : Key × Value} (h : clauseOf? f = .ok none) : textsOf f.2 = .ok [] := by
  obtain ⟨ts, hts, h⟩ := exists_of_bind_eq_ok h
  cases ts with
  | nil => exact hts
  | cons t ts =>
    have htruthy : (!(Value.list ((t :: ts).map Value.string)).truthy) = false := rfl
    rw [clauseFor?, htruthy] at h
    obtain ⟨xs, -, h⟩ := exists_of_bind_eq_ok h
    obtain ⟨cs, -, h⟩ := exists_of_bind_eq_ok h
    cases h

private theorem eq_nested_of_clauseOf? {f : Key × Value} {c : Value} (h : clauseOf? f = .ok (some c)) :
    ∃ comparisons, c = nested f.1.toValue comparisons := by
  obtain ⟨ts, -, h⟩ := exists_of_bind_eq_ok h
  unfold clauseFor? at h
  split at h
  · cases h
  · obtain ⟨xs, -, h⟩ := exists_of_bind_eq_ok h
    obtain ⟨css, -, h⟩ := exists_of_bind_eq_ok h
    exact ⟨css.flatten, (Option.some.inj (Except.ok.inj h)).symm⟩

/-- There are clauses exactly if every value can be read. -/
theorem clausesOf_eq_ok_iff {active : Record} :
    (∃ cs, clausesOf active = .ok cs) ↔ ∀ f ∈ active, Readable f.2 := by
  induction active with
  | nil => exact iff_of_true ⟨[], rfl⟩ (List.forall_mem_nil _)
  | cons f active ih =>
    rw [List.forall_mem_cons, ← ih, ← clauseOf?_eq_ok_iff, clausesOf_cons]
    cases clauseOf? f with
    | error e => simp
    | ok c => cases clausesOf active <;> simp

/-- The clauses are those of the filters that have one. -/
theorem mem_clausesOf_iff {active : Record} {cs : List Value} (h : clausesOf active = .ok cs) {c : Value} :
    c ∈ cs ↔ ∃ f ∈ active, clauseOf? f = .ok (some c) := by
  induction active generalizing cs with
  | nil =>
    obtain rfl := Except.ok.inj h
    simp
  | cons f active ih =>
    rw [clausesOf_cons] at h
    obtain ⟨c', hc', h⟩ := exists_of_bind_eq_ok h
    obtain ⟨cs', hcs', h⟩ := exists_of_bind_eq_ok h
    obtain rfl := Except.ok.inj h
    rw [List.mem_append, Option.mem_toList, List.exists_mem_cons_iff, ih hcs', hc', Except.ok.injEq]

/-- Every clause asks for entries of the field of a filter. -/
theorem eq_nested_of_mem_clausesOf {active : Record} {cs : List Value} (h : clausesOf active = .ok cs) :
    ∀ c ∈ cs, ∃ f ∈ active, ∃ comparisons, c = nested f.1.toValue comparisons := by
  intro c hc
  obtain ⟨f, hf, hclause⟩ := (mem_clausesOf_iff h).1 hc
  exact ⟨f, hf, eq_nested_of_clauseOf? hclause⟩

/-- No clause is missing but those of filters without texts. -/
private theorem textsOf_eq_nil_of_clausesOf {active : Record} (h : clausesOf active = .ok []) :
    ∀ f ∈ active, textsOf f.2 = .ok [] := by
  induction active with
  | nil => exact List.forall_mem_nil _
  | cons f active ih =>
    rw [clausesOf_cons] at h
    obtain ⟨c, hc, h⟩ := exists_of_bind_eq_ok h
    obtain ⟨cs, hcs, h⟩ := exists_of_bind_eq_ok h
    obtain ⟨hc', rfl⟩ := List.append_eq_nil_iff.1 (Except.ok.inj h)
    rw [Option.toList_eq_nil_iff] at hc'
    exact List.forall_mem_cons.2 ⟨textsOf_eq_nil (hc' ▸ hc), ih hcs⟩

theorem clauses_eq_clausesOf {hooks : Hooks} (hhooks : hooks.filterQueries = none) (active : Record) :
    clauses hooks active = clausesOf active := by
  rw [clauses, hhooks]
  cases clausesOf active with
  | error e => rfl
  | ok cs => cases cs <;> rfl

/-- Filters that can be read have clauses, and some if one of them has a text. -/
theorem clauses_eq_ok {hooks : Hooks} (hhooks : hooks.filterQueries = none) {active : Record}
    (h : ∀ f ∈ active, Readable f.2) :
    ∃ cs, clauses hooks active = .ok cs ∧ ((∃ f ∈ active, textsOf f.2 ≠ .ok []) → cs ≠ []) := by
  obtain ⟨cs, hcs⟩ := clausesOf_eq_ok_iff.2 h
  refine ⟨cs, (clauses_eq_clausesOf hhooks active).trans hcs, ?_⟩
  rintro ⟨f, hf, htexts⟩ rfl
  exact htexts (textsOf_eq_nil_of_clausesOf hcs f hf)

end Filter

end EdgeFields
