import EdgeFields.Definition
import Mathlib.Data.List.Induction

/-!
# Texts among values

A text is equal to nothing but itself, so that on texts the equality of values is equality: looking for a text in a
list is membership, and `union` and `dedup` give lists without repetitions (`mem_union`, `nodup_union`).  Where every
item of a list is such (`Discernible`), `List.eraseDups` has each of them once, in order of first appearance.
-/

namespace EdgeFields

/-! ### Lists without repetitions -/

/-- Adding each item unless one like it is there keeps, of items that are alike, the first. -/
theorem foldl_addUnlike_eq_eraseDupsBy {α : Type} (like : α → α → Bool) (xs : List α) :
    xs.foldl (fun kept y => if kept.any (like y) then kept else kept ++ [y]) [] = xs.eraseDupsBy like := by
  suffices ∀ kept : List α, xs.foldl (fun kept y => if kept.any (like y) then kept else kept ++ [y]) kept =
      List.eraseDupsBy.loop like xs kept.reverse by
    exact this []
  induction xs with
  | nil =>
    intro kept
    rw [List.foldl_nil, List.eraseDupsBy.loop, List.reverse_reverse]
  | cons x xs ih =>
    intro kept
    rw [List.foldl_cons, List.eraseDupsBy.loop, List.any_reverse]
    cases kept.any (like x) with
    | true => exact ih kept
    | false =>
      rw [if_neg Bool.false_ne_true, ih, List.reverse_append]
      rfl

section AddNew

variable {α : Type} [BEq α] {xs kept : List α}

/-- Adding the items of a list that are not there yet adds each of them that is equal to itself only. -/
theorem mem_foldl_addNew {x : α} (hx : x ∈ xs → ∀ y, (x == y) = true → y = x) :
    x ∈ xs.foldl (fun kept y => if kept.contains y then kept else kept ++ [y]) kept ↔ x ∈ kept ∨ x ∈ xs := by
  induction xs generalizing kept with
  | nil => simp
  | cons y ys ih =>
    rw [List.foldl_cons, ih fun h => hx (List.mem_cons_of_mem _ h), List.mem_cons, ← or_assoc]
    apply or_congr_left
    split
    · next h =>
      refine ⟨.inl, fun h' => h'.elim (fun h => h) ?_⟩
      rintro rfl
      obtain ⟨z, hz, hxz⟩ := List.contains_iff_exists_mem_beq.1 h
      exact hx (List.mem_cons_self ..) z hxz ▸ hz
    · simp

private theorem subset_foldl_addNew (xs kept : List α) :
    kept ⊆ xs.foldl (fun kept y => if kept.contains y then kept else kept ++ [y]) kept := by
  induction xs generalizing kept with
  | nil => exact List.Subset.refl _
  | cons y ys ih =>
    rw [List.foldl_cons]
    split
    · exact ih kept
    · exact List.Subset.trans (List.subset_append_left _ _) (ih (kept ++ [y]))

private theorem mem_of_mem_foldl_addNew {x : α}
    (h : x ∈ xs.foldl (fun kept y => if kept.contains y then kept else kept ++ [y]) kept) : x ∈ kept ∨ x ∈ xs := by
  induction xs generalizing kept with
  | nil => exact .inl h
  | cons y ys ih =>
    rw [List.foldl_cons] at h
    rw [List.mem_cons, ← or_assoc]
    rcases ih h with h | h
    · refine .inl ?_
      split at h
      · exact .inl h
      · simpa using h
    · exact .inr h

private theorem exists_mem_foldl_addNew (kept : List α) {x : α} (h : x ∈ xs) :
    ∃ y ∈ xs.foldl (fun kept y => if kept.contains y then kept else kept ++ [y]) kept, y = x ∨ (x == y) = true := by
  induction xs generalizing kept with
  | nil => cases h
  | cons z zs ih =>
    rw [List.foldl_cons]
    rcases List.mem_cons.1 h with rfl | h
    · split
      · next hfound =>
        obtain ⟨y, hy, heq⟩ := List.contains_iff_exists_mem_beq.1 hfound
        exact ⟨y, subset_foldl_addNew zs kept hy, .inr heq⟩
      · exact ⟨x, subset_foldl_addNew zs (kept ++ [x]) (by simp), .inl rfl⟩
    · exact ih _ h

theorem nodup_foldl_addNew (hxs : ∀ x ∈ xs, (x == x) = true) (hk : kept.Nodup) :
    (xs.foldl (fun kept y => if kept.contains y then kept else kept ++ [y]) kept).Nodup := by
  induction xs generalizing kept with
  | nil => exact hk
  | cons y ys ih =>
    rw [List.foldl_cons]
    apply ih fun x hx => hxs x (List.mem_cons_of_mem _ hx)
    split
    · exact hk
    · next h =>
      rw [List.nodup_append]
      refine ⟨hk, List.pairwise_singleton _ y, ?_⟩
      rintro a ha b hb rfl
      refine h (List.contains_iff_exists_mem_beq.2 ⟨a, ha, ?_⟩)
      rw [← List.mem_singleton.1 hb]
      exact hxs a (List.mem_singleton.1 hb ▸ List.mem_cons_self ..)

/-- Items that all differ are all added. -/
theorem foldl_addNew_eq_append (h : (kept ++ xs).Pairwise fun x y => (y == x) = false) :
    xs.foldl (fun kept y => if kept.contains y then kept else kept ++ [y]) kept = kept ++ xs := by
  induction xs generalizing kept with
  | nil => simp
  | cons y ys ih =>
    have hnew : ¬ kept.contains y = true := by
      rw [List.contains_iff_exists_mem_beq]
      rintro ⟨x, hx, hyx⟩
      have hne := (List.pairwise_append.1 h).2.2 x hx y (List.mem_cons_self ..)
      rw [hyx] at hne
      exact Bool.noConfusion hne
    rw [List.foldl_cons, if_neg hnew, ih (by simpa using h), List.append_assoc, List.singleton_append]

theorem foldl_addNew_of_nodup [LawfulBEq α] (h : xs.Nodup) :
    xs.foldl (fun kept y => if kept.contains y then kept else kept ++ [y]) [] = xs :=
  foldl_addNew_eq_append (List.Pairwise.imp (fun hne => beq_eq_false_iff_ne.2 (Ne.symm hne)) h)

theorem foldl_addNew_eq_eraseDups (xs : List α) :
    xs.foldl (fun kept y => if kept.contains y then kept else kept ++ [y]) [] = xs.eraseDups := by
  rw [List.eraseDups, ← foldl_addUnlike_eq_eraseDupsBy]
  simp only [List.any_beq]

/-- Looking for something that is equal to itself and to nothing else is membership. -/
theorem contains_iff_of_beq_iff {x : α} (hx : ∀ y, (x == y) = true ↔ x = y) : xs.contains x = true ↔ x ∈ xs := by
  rw [List.contains_iff_exists_mem_beq]
  constructor
  · rintro ⟨y, hy, heq⟩
    exact (hx y).1 heq ▸ hy
  · intro hmem
    exact ⟨x, hmem, (hx x).2 rfl⟩

/-- Whether each item of a list is equal to itself and to nothing else, so that looking for one is membership. -/
def Discernible (xs : List α) : Prop := ∀ x ∈ xs, ∀ y, (x == y) = true ↔ x = y

theorem discernible_of_lawful [LawfulBEq α] (xs : List α) : Discernible xs := fun _ _ _ => beq_iff_eq

theorem Discernible.subset {ys : List α} (h : Discernible xs) (hsub : ys ⊆ xs) : Discernible ys :=
  fun x hx => h x (hsub hx)

theorem Discernible.mem_eraseDups (h : Discernible xs) {x : α} : x ∈ xs.eraseDups ↔ x ∈ xs := by
  rw [← foldl_addNew_eq_eraseDups, mem_foldl_addNew fun hx y hy => ((h x hx y).1 hy).symm]
  simp

theorem Discernible.nodup_eraseDups (h : Discernible xs) : xs.eraseDups.Nodup := by
  rw [← foldl_addNew_eq_eraseDups]
  exact nodup_foldl_addNew (fun x hx => (h x hx x).2 rfl) List.nodup_nil

theorem Discernible.eraseDups_eq_self (h : Discernible xs) (hxs : xs.Nodup) : xs.eraseDups = xs := by
  rw [← foldl_addNew_eq_eraseDups]
  refine foldl_addNew_eq_append (hxs.imp_of_mem fun {x y} _ hy hne => ?_)
  exact Bool.eq_false_iff.2 fun heq => hne ((h y hy x).1 heq).symm

theorem eraseDups_concat (xs : List α) (x : α) :
    (xs ++ [x]).eraseDups = if xs.eraseDups.contains x then xs.eraseDups else xs.eraseDups ++ [x] := by
  rw [← foldl_addNew_eq_eraseDups, ← foldl_addNew_eq_eraseDups, List.foldl_append]
  rfl

theorem Discernible.contains_eraseDups_iff {x : α} (h : Discernible (xs ++ [x])) :
    xs.eraseDups.contains x = true ↔ x ∈ xs := by
  rw [contains_iff_of_beq_iff (h x (by simp)), (h.subset (List.subset_append_left ..)).mem_eraseDups]

/-- Repetitions among items make no difference to which of their images are new. -/
theorem foldl_addNew_map_eraseDups {β : Type} [BEq β] {f : α → β} (h : Discernible xs) (hf : Discernible (xs.map f))
    (kept : List β) :
    (xs.eraseDups.map f).foldl (fun kept y => if kept.contains y then kept else kept ++ [y]) kept =
      (xs.map f).foldl (fun kept y => if kept.contains y then kept else kept ++ [y]) kept := by
  induction xs using List.reverseRecOn with
  | nil => rfl
  | append_singleton xs x ih =>
    rw [List.map_append] at hf
    have hfx := hf (f x) (by simp)
    have ih := ih (h.subset (List.subset_append_left ..)) (hf.subset (List.subset_append_left ..))
    rw [eraseDups_concat, List.map_append, List.foldl_append, List.map_singleton, List.foldl_cons, List.foldl_nil]
    split
    · next hx =>
      -- The image of a repeated item has been added with the first one.
      have hmem : f x ∈ (xs.map f).foldl (fun kept y => if kept.contains y then kept else kept ++ [y]) kept := by
        refine (mem_foldl_addNew fun _ y hy => ((hfx y).1 hy).symm).2 (.inr ?_)
        exact List.mem_map_of_mem (h.contains_eraseDups_iff.1 hx)
      rw [ih, if_pos ((contains_iff_of_beq_iff hfx).2 hmem)]
    · rw [List.map_append, List.foldl_append, ih]
      rfl

end AddNew

namespace Value

/-- Whether a value is a text. -/
def IsText (v : Value) : Prop := ∃ s, v = string s

theorem isText_string (s : String) : (string s).IsText := ⟨s, rfl⟩

/-- A text is equal to itself only. -/
theorem beq_string_left {s : String} {v : Value} : (string s == v) = true ↔ v = string s := by
  change same (string s) v = true ↔ _
  rw [eq_comm (a := v)]
  cases v <;> simp [same, quantity?]

theorem IsText.beq_iff {x y : Value} (hx : x.IsText) : (x == y) = true ↔ x = y := by
  obtain ⟨s, rfl⟩ := hx
  rw [beq_string_left, eq_comm]

theorem beq_string_right {s : String} {v : Value} : (v == string s) = true ↔ v = string s := by
  change same v (string s) = true ↔ _
  cases v <;> simp [same, quantity?]

theorem IsText.contains_iff {x : Value} (hx : x.IsText) {xs : List Value} : xs.contains x = true ↔ x ∈ xs :=
  contains_iff_of_beq_iff fun _ => hx.beq_iff

theorem IsText.beq_of_ne {x y : Value} (hx : x.IsText) (h : x ≠ y) : (x == y) = false :=
  Bool.eq_false_iff.2 fun h' => h (hx.beq_iff.1 h')

theorem mem_union {xs ys : List Value} (hys : ∀ y ∈ ys, y.IsText) {z : Value} :
    z ∈ union xs ys ↔ z ∈ xs ∨ z ∈ ys :=
  mem_foldl_addNew fun hz _ h => ((hys z hz).beq_iff.1 h).symm

theorem nodup_union {xs ys : List Value} (hys : ∀ y ∈ ys, y.IsText) (hxs : xs.Nodup) : (union xs ys).Nodup :=
  nodup_foldl_addNew (fun y hy => (hys y hy).beq_iff.2 rfl) hxs

theorem mem_dedup {xs : List Value} (hxs : ∀ x ∈ xs, x.IsText) {z : Value} : z ∈ dedup xs ↔ z ∈ xs := by
  rw [dedup, mem_union hxs]
  simp

theorem nodup_dedup {xs : List Value} (hxs : ∀ x ∈ xs, x.IsText) : (dedup xs).Nodup :=
  nodup_union hxs List.nodup_nil

theorem mem_of_mem_dedup {xs : List Value} {x : Value} (h : x ∈ dedup xs) : x ∈ xs :=
  (mem_of_mem_foldl_addNew h).resolve_left List.not_mem_nil

/-- Of every item there is an equal one left without repetitions. -/
theorem exists_mem_dedup {xs : List Value} {x : Value} (h : x ∈ xs) : ∃ y ∈ dedup xs, y = x ∨ (x == y) = true :=
  exists_mem_foldl_addNew [] h

theorem isEmpty_dedup (xs : List Value) : (dedup xs).isEmpty = xs.isEmpty := by
  cases xs with
  | nil => rfl
  | cons x xs =>
    obtain ⟨y, hy, -⟩ := exists_mem_dedup (List.mem_cons_self (a := x) (l := xs))
    rw [List.isEmpty_cons, List.isEmpty_eq_false_iff]
    exact List.ne_nil_of_mem hy

/-- Without repetitions all items are texts only if they were before. -/
theorem forall_isText_dedup {xs : List Value} : (∀ x ∈ dedup xs, x.IsText) ↔ ∀ x ∈ xs, x.IsText := by
  constructor
  · intro h x hx
    obtain ⟨y, hy, heq⟩ := exists_mem_dedup hx
    rcases heq with rfl | heq
    · exact h y hy
    · obtain ⟨s, rfl⟩ := h y hy
      exact ⟨s, beq_string_right.1 heq⟩
  · exact fun h x hx => h x (mem_of_mem_dedup hx)

end Value

namespace Key

theorem beq_string_left {s : String} {k : Key} : (string s == k) = true ↔ k = string s := by
  rw [beq_iff]
  cases k <;> simp [meaning, eq_comm]

theorem string_beq_of_ne {s : String} {k : Key} (h : k ≠ string s) : (string s == k) = false :=
  Bool.eq_false_iff.2 fun h' => h (beq_string_left.1 h')

end Key

namespace Assoc

variable {κ α β : Type} [BEq κ]

/-- What is found stands among the pairs, under an equal key. -/
theorem mem_of_lookup {k : κ} {a : α} {m : List (κ × α)} (h : m.lookup k = some a) :
    ∃ k', (k == k') = true ∧ (k', a) ∈ m := by
  induction m with
  | nil => simp at h
  | cons p r ih =>
    obtain ⟨k', a'⟩ := p
    cases hk : k == k' with
    | true =>
      simp only [List.lookup_cons, hk, Option.some.injEq] at h
      exact ⟨k', hk, h ▸ List.mem_cons_self ..⟩
    | false =>
      rw [lookup_cons_of_ne hk] at h
      obtain ⟨l, hl, hm⟩ := ih h
      exact ⟨l, hl, List.mem_cons_of_mem _ hm⟩

theorem insert_of_lookup_eq_none {k : κ} {a : α} {m : List (κ × α)} (h : m.lookup k = none) :
    insert k a m = m ++ [(k, a)] := by
  induction m with
  | nil => rfl
  | cons p r ih =>
    obtain ⟨k', a'⟩ := p
    cases hk : k == k' with
    | true => simp [List.lookup_cons, hk] at h
    | false =>
      rw [lookup_cons_of_ne hk] at h
      rw [insert, hk, if_neg Bool.false_ne_true, ih h, List.cons_append]

theorem lookup_eq_of_beq [EquivBEq κ] {k l : κ} (h : (l == k) = true) (m : List (κ × α)) :
    m.lookup l = m.lookup k := by
  induction m with
  | nil => rfl
  | cons p r ih =>
    obtain ⟨k', a⟩ := p
    rw [List.lookup_cons, List.lookup_cons, ih, BEq.congr_left h]

/-- Where the keys differ from each other, every pair is the one found under its key. -/
theorem lookup_of_mem [LawfulBEq κ] {k : κ} {a : α} {m : List (κ × α)} (hm : (keys m).Nodup) (h : (k, a) ∈ m) :
    m.lookup k = some a := by
  induction m with
  | nil => cases h
  | cons p r ih =>
    obtain ⟨k', a'⟩ := p
    rw [keys, List.map_cons, List.nodup_cons] at hm
    rcases List.mem_cons.1 h with e | h
    · obtain ⟨rfl, rfl⟩ := Prod.mk.inj e
      simp
    · have hne : k ≠ k' := fun e => hm.1 (List.mem_map.2 ⟨(k, a), h, e⟩)
      rw [lookup_cons_of_ne (beq_eq_false_iff_ne.2 hne)]
      exact ih hm.2 h

/-! ### Maps under texts -/

variable {m : List (Value × α)} {k : Value}

theorem mem_iff_lookup (hm : (keys m).Nodup) (hk : k.IsText) {a : α} : (k, a) ∈ m ↔ m.lookup k = some a := by
  constructor
  · intro h
    induction m with
    | nil => cases h
    | cons p r ih =>
      rw [keys, List.map_cons, List.nodup_cons] at hm
      rcases List.mem_cons.1 h with rfl | h
      · simp [List.lookup_cons, hk.beq_iff.2 rfl]
      · have hne : k ≠ p.1 := fun e => hm.1 (List.mem_map.2 ⟨(k, a), h, e⟩)
        rw [lookup_cons_of_ne (hk.beq_of_ne hne)]
        exact ih hm.2 h
  · intro h
    obtain ⟨k', hk', hmem⟩ := mem_of_lookup h
    rwa [hk.beq_iff.1 hk']

/-- What a list under a text holds, nothing if there is none. -/
theorem mem_getD_lookup {m : List (Value × List β)} (hm : (keys m).Nodup) (hk : k.IsText) {b : β} :
    b ∈ (m.lookup k).getD [] ↔ ∃ e ∈ m, e.1 = k ∧ b ∈ e.2 := by
  constructor
  · intro hb
    cases hl : m.lookup k with
    | none => simp [hl] at hb
    | some bs => exact ⟨(k, bs), (mem_iff_lookup hm hk).2 hl, rfl, by simpa [hl] using hb⟩
  · rintro ⟨⟨k', bs⟩, he, rfl, hb⟩
    rw [(mem_iff_lookup hm hk).1 he]
    exact hb

/-- Setting the value of a text replaces what stood under it and keeps all else. -/
theorem mem_insert_text (hm : (keys m).Nodup) (hk : k.IsText) {a : α} {e : Value × α} :
    e ∈ insert k a m ↔ e = (k, a) ∨ (e ∈ m ∧ e.1 ≠ k) := by
  induction m with
  | nil => simp [insert]
  | cons p r ih =>
    rw [keys, List.map_cons, List.nodup_cons] at hm
    obtain ⟨k', a'⟩ := p
    unfold insert
    by_cases h : k = k'
    · subst h
      have hr : ∀ e ∈ r, e.1 ≠ k := fun e he heq => hm.1 (List.mem_map.2 ⟨e, he, heq⟩)
      rw [if_pos (hk.beq_iff.2 rfl), List.mem_cons, List.mem_cons]
      constructor
      · exact Or.imp_right fun he => ⟨.inr he, hr e he⟩
      · rintro (he | ⟨rfl | he, hne⟩)
        · exact .inl he
        · exact absurd rfl hne
        · exact .inr he
    · rw [if_neg (mt hk.beq_iff.1 h), List.mem_cons, List.mem_cons, ih hm.2]
      constructor
      · rintro (rfl | he | he)
        · exact .inr ⟨.inl rfl, fun e => h e.symm⟩
        · exact .inl he
        · exact .inr ⟨.inr he.1, he.2⟩
      · rintro (he | ⟨rfl | he, hne⟩)
        · exact .inr (.inl he)
        · exact .inl rfl
        · exact .inr (.inr ⟨he, hne⟩)

theorem nodup_keys_insert_text (hm : (keys m).Nodup) (hk : k.IsText) (a : α) : (keys (insert k a m)).Nodup := by
  induction m with
  | nil => exact List.pairwise_singleton _ k
  | cons p r ih =>
    obtain ⟨k', a'⟩ := p
    have hm' := hm
    rw [keys, List.map_cons, List.nodup_cons] at hm'
    unfold insert
    by_cases h : k = k'
    · rw [if_pos (hk.beq_iff.2 h)]
      exact hm
    · rw [if_neg (mt hk.beq_iff.1 h), keys, List.map_cons, List.nodup_cons]
      refine ⟨fun hmem => ?_, ih hm'.2⟩
      obtain ⟨e, he, hk'⟩ := List.mem_map.1 hmem
      rcases (mem_insert_text hm'.2 hk).1 he with rfl | ⟨he, -⟩
      · exact h hk'
      · exact hm'.1 (List.mem_map.2 ⟨e, he, hk'⟩)

end Assoc

end EdgeFields
