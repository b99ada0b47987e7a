import EdgeFields.Filter.Active
import Mathlib.Data.List.Chain
import Mathlib.Data.List.DropRight

/-!
# Clean texts

A text is clean (`Text.IsClean`) when it has no tag and no control characters, and every blank in it is a single
space between two characters that are not blank.  Cleaning goes over a text once for tags, once for control
characters, once for blanks and once for its ends.  No pass brings back what an earlier one has removed, so that
what comes out is clean (`Text.isClean_cleanChars`), and a clean text goes through unchanged
(`Text.cleanChars_eq_self`).
-/

namespace EdgeFields

namespace Text

/-- Whether no `<` has a `>` somewhere behind it. -/
def Untagged (cs : List Char) : Prop :=
  cs.Pairwise fun c d => c = '<' → d ≠ '>'

/-- A text in which nothing is left to clean. -/
structure IsClean (cs : List Char) : Prop where
  untagged : Untagged cs
  plain : ∀ c ∈ cs, ¬ (c.toNat ≤ 0x1F ∨ c.toNat = 0x7F)
  spaces : ∀ c ∈ cs, isBlank c = true → c = ' '
  single : cs.IsChain fun c d => isBlank c = true → isBlank d = false
  head : ∀ c ∈ cs.head?, isBlank c = false
  last : ∀ c ∈ cs.getLast?, isBlank c = false

variable {p : Char → Bool} {cs : List Char}

/-! ### Tags -/

private theorem untagged_of_not_mem (h : '>' ∉ cs) : Untagged cs :=
  List.pairwise_of_forall_mem_list fun _ _ _ hd _ heq => h (heq ▸ hd)

private theorem Untagged.cons {c : Char} (h : Untagged cs) (hc : c ≠ '<') : Untagged (c :: cs) :=
  List.pairwise_cons.2 ⟨fun _ _ heq => absurd heq hc, h⟩

/-- Putting spaces in the place of characters makes no tag. -/
private theorem Untagged.toSpaces (h : Untagged cs) (q : Char → Bool) :
    Untagged (cs.map fun c => if q c then ' ' else c) := by
  have hkept : ∀ {c d : Char}, d ≠ ' ' → (if q c then ' ' else c) = d → c = d := by
    intro c d hd hc
    split at hc
    · exact absurd hc.symm hd
    · exact hc
  refine List.Pairwise.map _ (fun c d hcd hc hd => ?_) h
  exact hcd (hkept (by decide) hc) (hkept (by decide) hd)

/-- Without tags a text has none: what is held back is given up at the next `>`, or kept when there is none. -/
private theorem untagged_dropTagsFrom (held : Option (List Char)) (cs : List Char)
    (hheld : ∀ ds, held = some ds → '>' ∉ ds) : Untagged (dropTagsFrom held cs) := by
  fun_induction dropTagsFrom held cs with
  | case1 => exact List.Pairwise.nil
  | case2 ds => exact untagged_of_not_mem (by simpa using hheld ds rfl)
  | case3 cs ih => exact ih (by simp)
  | case4 c cs hc ih => exact (ih (by simp)).cons hc
  | case5 ds cs ih => exact ih (by simp)
  | case6 ds c cs hc ih =>
    refine ih fun ds' hds' => ?_
    rw [← Option.some.inj hds', List.mem_cons, not_or]
    exact ⟨Ne.symm hc, hheld ds rfl⟩

private theorem dropTagsFrom_some_of_not_mem (ds : List Char) (h : '>' ∉ cs) :
    dropTagsFrom (some ds) cs = ds.reverse ++ cs := by
  induction cs generalizing ds with
  | nil => simp [dropTagsFrom]
  | cons c cs ih =>
    rw [List.mem_cons, not_or] at h
    rw [dropTagsFrom, if_neg (Ne.symm h.1), ih (c :: ds) h.2, List.reverse_cons, List.append_assoc,
      List.singleton_append]

/-- Dropping tags does not change a text without any. -/
private theorem dropTags_eq_self (h : Untagged cs) : dropTags cs = cs := by
  rw [dropTags]
  induction cs with
  | nil => rfl
  | cons c cs ih =>
    obtain ⟨hc, hcs⟩ := List.pairwise_cons.1 h
    rw [dropTagsFrom]
    split
    · next heq => exact dropTagsFrom_some_of_not_mem [c] fun hmem => hc '>' hmem heq rfl
    · rw [ih hcs]

/-! ### Blanks -/

/-- Collapsing blanks turns some of them into spaces and drops the others. -/
private theorem collapseBlanks_sublist (cs : List Char) :
    (collapseBlanks cs).Sublist (cs.map fun c => if isBlank c then ' ' else c) := by
  fun_induction collapseBlanks cs with
  | case1 => exact List.Sublist.refl _
  | case2 c hc => simp [hc]
  | case3 c hc d cs hd ih => exact ih.cons _
  | case4 c hc d cs hd ih =>
    rw [List.map_cons, if_pos hc]
    exact ih.cons_cons ' '
  | case5 c cs hc ih =>
    rw [List.map_cons, if_neg hc]
    exact ih.cons_cons c

private theorem head?_collapseBlanks {c : Char} (hc : isBlank c = false) (cs : List Char) :
    (collapseBlanks (c :: cs)).head? = some c := by
  rw [collapseBlanks.eq_def]
  simp [hc]

/-- No two blanks are left side by side. -/
private theorem isChain_collapseBlanks (cs : List Char) :
    (collapseBlanks cs).IsChain fun c d => isBlank c = true → isBlank d = false := by
  fun_induction collapseBlanks cs with
  | case1 => exact List.IsChain.nil
  | case2 c hc => exact List.IsChain.singleton _
  | case3 c hc d cs hd ih => exact ih
  | case4 c hc d cs hd ih =>
    rw [Bool.not_eq_true] at hd
    refine List.isChain_cons.2 ⟨fun e he _ => ?_, ih⟩
    rw [head?_collapseBlanks hd, Option.mem_some_iff] at he
    exact he ▸ hd
  | case5 c cs hc ih => exact List.isChain_cons.2 ⟨fun _ _ h => absurd h hc, ih⟩

/-- Single spaces stay as they are. -/
private theorem collapseBlanks_eq_self (hspaces : ∀ c ∈ cs, isBlank c = true → c = ' ')
    (hsingle : cs.IsChain fun c d => isBlank c = true → isBlank d = false) : collapseBlanks cs = cs := by
  fun_induction collapseBlanks cs with
  | case1 => rfl
  | case2 c hc => rw [hspaces c (List.mem_cons_self ..) hc]
  | case3 c hc d cs hd ih =>
    have hnext := (List.isChain_cons_cons.1 hsingle).1 hc
    rw [hd] at hnext
    contradiction
  | case4 c hc d cs hd ih =>
    rw [ih (fun e he => hspaces e (List.mem_cons_of_mem _ he)) (List.isChain_cons_cons.1 hsingle).2,
      hspaces c (List.mem_cons_self ..) hc]
  | case5 c cs hc ih =>
    rw [ih (fun e he => hspaces e (List.mem_cons_of_mem _ he)) (List.isChain_cons.1 hsingle).2]

/-! ### Ends -/

private theorem trimWith_inside (p : Char → Bool) (cs : List Char) : trimWith p cs <:+: cs :=
  (List.rdropWhile_prefix p (cs.dropWhile p)).isInfix.trans (List.dropWhile_suffix p).isInfix

/-- A trimmed text does not begin with a character that was to be dropped. -/
theorem head_trimWith {c : Char} (hc : c ∈ (trimWith p cs).head?) : p c = false := by
  obtain ⟨more, hmore⟩ := List.rdropWhile_prefix p (cs.dropWhile p)
  obtain ⟨rest, hrest⟩ : ∃ rest, trimWith p cs = c :: rest := ⟨_, List.eq_cons_of_mem_head? hc⟩
  have hfront : cs.dropWhile p = c :: (rest ++ more) := by
    rw [← hmore]
    exact congrArg (· ++ more) hrest
  have hnot := List.head?_dropWhile_not p cs
  rw [hfront] at hnot
  simpa using hnot

theorem last_trimWith {c : Char} (hc : c ∈ (trimWith p cs).getLast?) : p c = false := by
  obtain ⟨hne, rfl⟩ := List.mem_getLast?_eq_getLast hc
  exact Bool.eq_false_iff.2 (List.rdropWhile_last_not p (cs.dropWhile p) hne)

/-- Trimming does not change a text with neither end to be dropped. -/
theorem trimWith_eq_self_of_ends (hhead : ∀ c ∈ cs.head?, p c = false) (hlast : ∀ c ∈ cs.getLast?, p c = false) :
    trimWith p cs = cs := by
  change (cs.dropWhile p).rdropWhile p = cs
  have hfront : cs.dropWhile p = cs := by
    cases cs with
    | nil => rfl
    | cons c cs => rw [List.dropWhile_cons_of_neg (by simp [hhead c rfl])]
  rw [hfront, List.rdropWhile_eq_self_iff]
  intro hne
  rw [hlast _ (List.getLast_mem_getLast? hne)]
  exact Bool.false_ne_true

/-! ### What is kept -/

private theorem filter_dropWhile (p : Char → Bool) (cs : List Char) :
    (cs.dropWhile p).filter (!p ·) = cs.filter (!p ·) := by
  induction cs with
  | nil => rfl
  | cons c cs ih => cases hc : p c <;> simp [hc, ih]

/-- Trimming drops nothing but characters that were to be dropped. -/
private theorem filter_trimWith (p : Char → Bool) (cs : List Char) :
    (trimWith p cs).filter (!p ·) = cs.filter (!p ·) := by
  rw [trimWith, List.filter_reverse, filter_dropWhile, List.filter_reverse, filter_dropWhile, List.reverse_reverse]

private theorem filter_collapseBlanks (cs : List Char) :
    (collapseBlanks cs).filter (!isBlank ·) = cs.filter (!isBlank ·) := by
  have hspace : isBlank ' ' = true := rfl
  fun_induction collapseBlanks cs with
  | case1 => rfl
  | case2 c hc => simp [hc, hspace]
  | case3 c hc d cs hd ih =>
    rw [ih]
    simp [hc]
  | case4 c hc d cs hd ih =>
    rw [List.filter_cons_of_neg (by simp [hspace]), ih]
    simp [hc]
  | case5 c cs hc ih => simp [hc, ih]

/-! ### Cleaning -/

private theorem mem_collapseBlanks {c : Char} (h : c ∈ collapseBlanks cs) :
    c = ' ' ∨ (c ∈ cs ∧ isBlank c = false) := by
  obtain ⟨d, hd, rfl⟩ := List.mem_map.1 ((collapseBlanks_sublist cs).subset h)
  split
  · exact .inl rfl
  · next hblank => exact .inr ⟨hd, Bool.eq_false_iff.2 hblank⟩

theorem isControl_iff {c : Char} : isControl c = true ↔ c.toNat ≤ 0x1F ∨ c.toNat = 0x7F := by
  simp [isControl]

/-- What cleaning gives is clean. -/
theorem isClean_cleanChars (cs : List Char) : IsClean (cleanChars cs) := by
  generalize hplain : ((dropTags cs).map fun c => if isControl c then ' ' else c) = plain
  have hclean : cleanChars cs = trimWith isBlank (collapseBlanks plain) := by rw [← hplain]; rfl
  have hinside : cleanChars cs <:+: collapseBlanks plain := hclean ▸ trimWith_inside isBlank _
  have hmem : ∀ c ∈ cleanChars cs, c = ' ' ∨ (c ∈ plain ∧ isBlank c = false) :=
    fun c hc => mem_collapseBlanks (hinside.subset hc)
  constructor
  case untagged =>
    have huntagged : Untagged plain := hplain ▸ (untagged_dropTagsFrom none cs (by simp)).toSpaces isControl
    exact (huntagged.toSpaces isBlank).sublist (hinside.sublist.trans (collapseBlanks_sublist plain))
  case plain =>
    intro c hc
    rw [← isControl_iff]
    rcases hmem c hc with rfl | ⟨hc, -⟩
    · decide
    · rw [← hplain] at hc
      obtain ⟨d, -, rfl⟩ := List.mem_map.1 hc
      split
      · decide
      · assumption
  case spaces => exact fun c hc hblank => (hmem c hc).resolve_right fun h => by simp [h.2] at hblank
  case single => exact List.IsChain.infix (isChain_collapseBlanks plain) hinside
  case head =>
    rw [hclean]
    exact fun c hc => head_trimWith hc
  case last =>
    rw [hclean]
    exact fun c hc => last_trimWith hc

/-- Cleaning does not change a clean text. -/
theorem cleanChars_eq_self (h : IsClean cs) : cleanChars cs = cs := by
  have hplain : (cs.map fun c => if isControl c then ' ' else c) = cs :=
    (List.map_congr_left fun c hc => if_neg (mt isControl_iff.1 (h.plain c hc))).trans (List.map_id' cs)
  rw [cleanChars, dropTags_eq_self h.untagged, hplain, collapseBlanks_eq_self h.spaces h.single, trimChars,
    trimWith_eq_self_of_ends h.head h.last]

/-- Cleaning takes away nothing but tags, control characters and blanks. -/
private theorem filter_cleanChars (cs : List Char) :
    (cleanChars cs).filter (!isBlank ·) = (dropTags cs).filter fun c => !isBlank c && !isControl c := by
  rw [cleanChars, trimChars, filter_trimWith, filter_collapseBlanks]
  have hspace : isBlank ' ' = true := rfl
  induction dropTags cs with
  | nil => rfl
  | cons c cs ih => cases hc : isControl c <;> cases hb : isBlank c <;> simp [hc, hb, ih, hspace]

end Text

namespace Filter.Resolver

open Text

/-- What cleaning a request value gives is clean, and cleaning it again changes nothing.  A text is left as it is
exactly if it is clean; any other one loses tags, control characters and blanks only. -/
theorem cleaned_isClean (v : Value) :
    IsClean (cleaned v).toList ∧ cleaned (.string (cleaned v)) = cleaned v ∧
      ∀ s : String, (cleaned (.string s) = s ↔ IsClean s.toList) ∧
        (cleaned (.string s)).toList.filter (!isBlank ·) =
          (dropTags s.toList).filter fun c => !isBlank c && !isControl c := by
  have hstring : ∀ s : String, cleaned (.string s) = String.ofList (cleanChars s.toList) := fun _ => rfl
  have hself : ∀ s : String, cleaned (.string s) = s ↔ IsClean s.toList := by
    intro s
    rw [hstring]
    constructor
    · intro h
      rw [← h, String.toList_ofList]
      exact isClean_cleanChars s.toList
    · intro h
      rw [cleanChars_eq_self h, String.ofList_toList]
  have hclean : IsClean (cleaned v).toList := by
    unfold cleaned clean
    split
    · exact ⟨List.Pairwise.nil, by simp, by simp, List.IsChain.nil, by simp, by simp⟩
    · rw [String.toList_ofList]
      exact isClean_cleanChars _
  refine ⟨hclean, (hself _).2 hclean, fun s => ⟨hself s, ?_⟩⟩
  rw [hstring, String.toList_ofList, filter_cleanChars]

end Filter.Resolver

end EdgeFields
