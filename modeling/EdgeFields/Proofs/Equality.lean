import EdgeFields.Proofs.Texts
import Mathlib.Data.List.Forall2
import Mathlib.Data.Option.Basic

/-!
# Equality of proper values

A value is proper if no object inside it has two members with equal keys.  On proper values equality is what its
name says: it is reflexive (`Proper.beq_self`) and symmetric (`Proper.beq_symm`), also where a value holds what is
no number, and two objects are equal exactly if look-ups in them find equal values (`object_beq_iff`).
-/

namespace EdgeFields

/-! ### Maps with different keys -/

namespace Assoc

variable {κ α : Type} [BEq κ]

/-- Whether the keys of a map all differ. -/
def Distinct (m : List (κ × α)) : Prop :=
  (keys m).Pairwise fun k l => (k == l) = false

theorem distinct_nil : Distinct ([] : List (κ × α)) := List.Pairwise.nil

private theorem distinct_cons {p : κ × α} {m : List (κ × α)} :
    Distinct (p :: m) ↔ (∀ q ∈ m, (p.1 == q.1) = false) ∧ Distinct m := by
  rw [Distinct, keys, List.map_cons, List.pairwise_cons, List.forall_mem_map]
  rfl

/-- Setting the value of a key adds no other key and no other value. -/
private theorem mem_insert {k : κ} {a : α} {m : List (κ × α)} {q : κ × α} (h : q ∈ insert k a m) :
    q ∈ m ∨ (q.2 = a ∧ (q.1 = k ∨ ∃ p ∈ m, q.1 = p.1)) := by
  induction m with
  | nil =>
    obtain rfl := List.mem_singleton.1 h
    exact .inr ⟨rfl, .inl rfl⟩
  | cons p r ih =>
    unfold insert at h
    split at h
    · rcases List.mem_cons.1 h with rfl | h
      · exact .inr ⟨rfl, .inr ⟨p, List.mem_cons_self .., rfl⟩⟩
      · exact .inl (List.mem_cons_of_mem _ h)
    · rcases List.mem_cons.1 h with rfl | h
      · exact .inl (List.mem_cons_self ..)
      · rcases ih h with h | ⟨ha, hk | ⟨p', hp', hq⟩⟩
        · exact .inl (List.mem_cons_of_mem _ h)
        · exact .inr ⟨ha, .inl hk⟩
        · exact .inr ⟨ha, .inr ⟨p', List.mem_cons_of_mem _ hp', hq⟩⟩

theorem forall_mem_insert {P : α → Prop} {k : κ} {a : α} {m : List (κ × α)} (h : ∀ q ∈ m, P q.2) (ha : P a) :
    ∀ q ∈ insert k a m, P q.2 := by
  intro q hq
  rcases mem_insert hq with hq | ⟨hq, -⟩
  · exact h q hq
  · exact hq ▸ ha

/-- Taking away a key that is there makes a map shorter. -/
theorem length_erase_lt {k : κ} {m : List (κ × α)} (h : contains k m = true) : (erase k m).length < m.length := by
  obtain ⟨a, ha⟩ := Option.isSome_iff_exists.1 h
  obtain ⟨k', hk, hmem⟩ := mem_of_lookup ha
  exact List.length_filter_lt_length_iff_exists.2 ⟨_, hmem, by simp [hk]⟩

theorem length_insert_of_not_contains {k : κ} {a : α} {m : List (κ × α)} (h : contains k m = false) :
    (insert k a m).length = m.length + 1 := by
  induction m with
  | nil => rfl
  | cons p r ih =>
    rw [contains, List.lookup_cons] at h
    cases hk : k == p.1 with
    | true =>
      rw [hk] at h
      cases h
    | false =>
      rw [hk] at h
      simp [insert, hk, ih h]

variable [EquivBEq κ] {m xs ys : List (κ × α)}

/-- Where the keys all differ, every pair is the one found under its key. -/
private theorem Distinct.lookup_of_mem (hm : Distinct m) {p : κ × α} (hp : p ∈ m) : m.lookup p.1 = some p.2 := by
  induction m with
  | nil => cases hp
  | cons q r ih =>
    obtain ⟨hq, hr⟩ := distinct_cons.1 hm
    rcases List.mem_cons.1 hp with rfl | hp
    · exact List.lookup_cons_self
    · rw [lookup_cons_of_ne (BEq.symm_false (hq p hp)), ih hr hp]

theorem distinct_insert (hm : Distinct m) (k : κ) (a : α) : Distinct (insert k a m) := by
  induction m with
  | nil => exact List.pairwise_singleton _ k
  | cons p r ih =>
    obtain ⟨hp, hr⟩ := distinct_cons.1 hm
    unfold insert
    cases hk : k == p.1 with
    | true => exact distinct_cons.2 ⟨hp, hr⟩
    | false =>
      refine distinct_cons.2 ⟨fun q hq => ?_, ih hr⟩
      rcases mem_insert hq with hq | ⟨-, hq | ⟨p', hp', hq⟩⟩
      · exact hp q hq
      · rw [hq]
        exact BEq.symm_false hk
      · rw [hq]
        exact hp p' hp'

/-- Setting the pairs of a map with other keys puts them behind. -/
theorem update_eq_append {m' : List (κ × α)} (h : Distinct (m ++ m')) : update m m' = m ++ m' := by
  induction m' generalizing m with
  | nil => rw [update, List.foldl_nil, List.append_nil]
  | cons p r ih =>
    have hnew : m.lookup p.1 = none := by
      rw [List.lookup_eq_none_iff]
      intro q hq
      rw [Distinct, keys, List.map_append, List.pairwise_append] at h
      have hne := h.2.2 q.1 (List.mem_map_of_mem hq) p.1 (List.mem_map_of_mem (List.mem_cons_self ..))
      rw [bne, BEq.symm_false hne, Bool.not_false]
    calc update m (p :: r) = update (insert p.1 p.2 m) r := rfl
      _ = update (m ++ [p]) r := by rw [insert_of_lookup_eq_none hnew]
      _ = m ++ [p] ++ r := ih (by rwa [List.append_assoc])
      _ = m ++ p :: r := List.append_assoc ..

omit [EquivBEq κ] in
theorem distinct_erase (hm : Distinct m) (k : κ) : Distinct (erase k m) :=
  hm.sublist (List.filter_sublist.map _)

/-- A map with different keys is no longer than one that has all its keys. -/
private theorem Distinct.length_le (hx : Distinct xs) (h : ∀ p ∈ xs, contains p.1 ys = true) :
    xs.length ≤ ys.length := by
  induction xs generalizing ys with
  | nil => exact Nat.zero_le _
  | cons p r ih =>
    obtain ⟨hp, hr⟩ := distinct_cons.1 hx
    rw [List.forall_mem_cons] at h
    have hrest : r.length ≤ (erase p.1 ys).length := ih hr fun q hq => by
      rw [contains, lookup_erase_of_ne (BEq.symm_false (hp q hq))]
      exact h.2 q hq
    have hlt := length_erase_lt h.1
    rw [List.length_cons]
    omega

/-- Two maps of one length, the first of which has different keys that the second has too, have the same keys. -/
private theorem Distinct.contains_of_length_eq (hx : Distinct xs) (h : ∀ p ∈ xs, contains p.1 ys = true)
    (hlength : xs.length = ys.length) {k : κ} (hk : contains k ys = true) : contains k xs = true := by
  by_contra hnot
  rw [Bool.not_eq_true] at hnot
  have hle : xs.length ≤ (erase k ys).length := hx.length_le fun p hp => by
    have hne : (p.1 == k) = false := by
      rw [← Bool.not_eq_true]
      intro heq
      rw [contains, lookup_eq_of_beq (BEq.symm heq), hx.lookup_of_mem hp] at hnot
      cases hnot
    rw [contains, lookup_erase_of_ne hne]
    exact h p hp
  have hlt := length_erase_lt hk
  omega

end Assoc

namespace Value

/-! ### Equality by kind -/

/-- A number is equal to all that denotes the same quantity. -/
private theorem number_beq_iff {v w : Value} {q : Quantity} (hv : v.quantity? = some q) :
    (v == w) = true ↔ w.quantity? = some q := by
  change same v w = true ↔ _
  rw [eq_comm (a := w.quantity?)]
  cases v <;> cases hv <;> cases w <;> simp [same, quantity?]

private theorem beq_number_iff {v w : Value} {q : Quantity} (hw : w.quantity? = some q) :
    (v == w) = true ↔ v.quantity? = some q := by
  change same v w = true ↔ _
  cases w <;> cases hw <;> cases v <;> simp [same, quantity?]

/-- Whether two maps have the same keys and equal values under them. -/
def Agree {κ : Type} [BEq κ] (xs ys : List (κ × Value)) : Prop :=
  xs.length = ys.length ∧ ∀ m ∈ xs, ∃ y, ys.lookup m.1 = some y ∧ (m.2 == y) = true

/-- What is no number is equal to values of its own kind only. -/
private theorem ctorIdx_eq_of_beq {v w : Value} (hv : v.quantity? = none) (h : (v == w) = true) :
    v.ctorIdx = w.ctorIdx := by
  change same v w = true at h
  cases v <;> cases hv <;> cases w <;> first | rfl | simp [same, quantity?] at h

private theorem sameItems_iff {xs ys : List Value} :
    sameItems xs ys = true ↔ List.Forall₂ (fun x y => (x == y) = true) xs ys := by
  induction xs generalizing ys with
  | nil => cases ys <;> simp [sameItems]
  | cons x xs ih =>
    cases ys with
    | nil => simp [sameItems]
    | cons y ys =>
      rw [sameItems, Bool.and_eq_true, List.forall₂_cons, ih]
      rfl

private theorem sameMembers_iff {xs ys : Record} :
    sameMembers xs ys = true ↔ ∀ m ∈ xs, ∃ y, ys.lookup m.1 = some y ∧ (m.2 == y) = true := by
  induction xs with
  | nil => simp [sameMembers]
  | cons m xs ih =>
    rw [sameMembers, Bool.and_eq_true, ih, List.forall_mem_cons]
    apply and_congr_left'
    cases ys.lookup m.1 with
    | none => simp
    | some y => simp [BEq.beq]

private theorem sameAttributes_iff {xs ys : List (String × Value)} :
    sameAttributes xs ys = true ↔ ∀ m ∈ xs, ∃ y, ys.lookup m.1 = some y ∧ (m.2 == y) = true := by
  induction xs with
  | nil => simp [sameAttributes]
  | cons m xs ih =>
    rw [sameAttributes, Bool.and_eq_true, ih, List.forall_mem_cons]
    apply and_congr_left'
    cases ys.lookup m.1 with
    | none => simp
    | some y => simp [BEq.beq]

theorem list_beq_iff {xs ys : List Value} :
    (list xs == list ys) = true ↔ List.Forall₂ (fun x y => (x == y) = true) xs ys := by
  change same _ _ = true ↔ _
  rw [same, sameItems_iff]

/-- What is equal to a list is a list of the same length. -/
theorem exists_of_beq_list {v : Value} {ys : List Value} (h : (v == list ys) = true) :
    ∃ xs, v = list xs ∧ xs.length = ys.length := by
  cases v with
  | list xs => exact ⟨xs, rfl, (list_beq_iff.1 h).length_eq⟩
  | bool | int | float => cases (number_beq_iff rfl).1 h
  | _ => cases ctorIdx_eq_of_beq rfl h

private theorem tuple_beq_iff {xs ys : List Value} :
    (tuple xs == tuple ys) = true ↔ List.Forall₂ (fun x y => (x == y) = true) xs ys := by
  change same _ _ = true ↔ _
  rw [same, sameItems_iff]

theorem object_beq_iff_agree {xs ys : Record} : (object xs == object ys) = true ↔ Agree xs ys := by
  change same _ _ = true ↔ _
  rw [same, Bool.and_eq_true, sameMembers_iff, beq_iff_eq]
  rfl

private theorem thing_beq_iff {k l : String} {xs ys : List (String × Value)} :
    (thing k xs == thing l ys) = true ↔ k = l ∧ Agree xs ys := by
  change same _ _ = true ↔ _
  rw [same, Bool.and_eq_true, Bool.and_eq_true, sameAttributes_iff, beq_iff_eq, beq_iff_eq, and_assoc]
  rfl

private theorem bundle_beq_iff {xs ys : List (String × Value)} : (bundle xs == bundle ys) = true ↔ Agree xs ys := by
  change same _ _ = true ↔ _
  rw [same, Bool.and_eq_true, sameAttributes_iff, beq_iff_eq]
  rfl

section Agree

variable {κ : Type} [BEq κ] [EquivBEq κ] {xs ys : List (κ × Value)}

private theorem agree_self (hx : Assoc.Distinct xs) (h : ∀ m ∈ xs, (m.2 == m.2) = true) : Agree xs xs :=
  ⟨rfl, fun m hm => ⟨m.2, hx.lookup_of_mem hm, h m hm⟩⟩

omit [EquivBEq κ] in
private theorem Agree.contains (h : Agree xs ys) : ∀ m ∈ xs, Assoc.contains m.1 ys = true := by
  intro m hm
  obtain ⟨y, hy, -⟩ := h.2 m hm
  rw [Assoc.contains, hy]
  rfl

private theorem Agree.symm (hx : Assoc.Distinct xs) (hy : Assoc.Distinct ys) (h : Agree xs ys)
    (hsymm : ∀ m ∈ xs, ∀ n ∈ ys, (m.2 == n.2) = true → (n.2 == m.2) = true) : Agree ys xs := by
  refine ⟨h.1.symm, fun n hn => ?_⟩
  have hfound : Assoc.contains n.1 ys = true := by
    rw [Assoc.contains, hy.lookup_of_mem hn]
    rfl
  obtain ⟨x, hx'⟩ := Option.isSome_iff_exists.1 (hx.contains_of_length_eq h.contains h.1 hfound)
  obtain ⟨k, hk, hmem⟩ := Assoc.mem_of_lookup hx'
  obtain ⟨y, hlookup, hequal⟩ := h.2 _ hmem
  -- What stands under the key in the second map is the pair that it was looked up for.
  rw [Assoc.lookup_eq_of_beq (BEq.symm hk), hy.lookup_of_mem hn] at hlookup
  obtain rfl := Option.some.inj hlookup
  exact ⟨x, hx', hsymm _ hmem n hn hequal⟩

private theorem agree_iff (hx : Assoc.Distinct xs) (hy : Assoc.Distinct ys) :
    Agree xs ys ↔ ∀ k, Option.Rel (fun x y => (x == y) = true) (xs.lookup k) (ys.lookup k) := by
  constructor
  · intro h k
    cases hfound : xs.lookup k with
    | some x =>
      obtain ⟨k', hk, hmem⟩ := Assoc.mem_of_lookup hfound
      obtain ⟨y, hlookup, hequal⟩ := h.2 _ hmem
      rw [Assoc.lookup_eq_of_beq hk, hlookup]
      exact .some hequal
    | none =>
      cases hfound' : ys.lookup k with
      | none => exact .none
      | some y =>
        have hcontained := hx.contains_of_length_eq h.contains h.1 (k := k) (by rw [Assoc.contains, hfound']; rfl)
        rw [Assoc.contains, hfound] at hcontained
        cases hcontained
  · intro h
    have hfound : ∀ m ∈ xs, ∃ y, ys.lookup m.1 = some y ∧ (m.2 == y) = true := by
      intro m hm
      have hrel := h m.1
      rw [hx.lookup_of_mem hm] at hrel
      cases hlookup : ys.lookup m.1 with
      | none => rw [hlookup] at hrel; cases hrel
      | some y =>
        rw [hlookup] at hrel
        cases hrel with
        | some hequal => exact ⟨y, rfl, hequal⟩
    have hfound' : ∀ n ∈ ys, Assoc.contains n.1 xs = true := by
      intro n hn
      have hrel := h n.1
      rw [hy.lookup_of_mem hn] at hrel
      rw [Assoc.contains]
      cases hlookup : xs.lookup n.1 with
      | none => rw [hlookup] at hrel; cases hrel
      | some x => rfl
    refine ⟨Nat.le_antisymm (hx.length_le fun m hm => ?_) (hy.length_le hfound'), hfound⟩
    obtain ⟨y, hlookup, -⟩ := hfound m hm
    rw [Assoc.contains, hlookup]
    rfl

end Agree

/-- Objects with different keys are equal exactly if look-ups in them find equal values. -/
theorem object_beq_iff {xs ys : Record} (hx : Assoc.Distinct xs) (hy : Assoc.Distinct ys) :
    (object xs == object ys) = true ↔
      ∀ k, Option.Rel (fun x y => (x == y) = true) (xs.lookup k) (ys.lookup k) :=
  object_beq_iff_agree.trans (agree_iff hx hy)

/-! ### Proper values -/

/-- Whether the keys of every object in a value all differ, and the names of the attributes of every thing. -/
inductive Proper : Value → Prop
  | null : Proper null
  | bool (b : Bool) : Proper (bool b)
  | int (n : Int) : Proper (int n)
  | float (x : Binary64) : Proper (float x)
  | string (s : String) : Proper (string s)
  | constant (kind name word : String) : Proper (constant kind name word)
  | list {xs : List Value} (h : ∀ x ∈ xs, Proper x) : Proper (list xs)
  | tuple {xs : List Value} (h : ∀ x ∈ xs, Proper x) : Proper (tuple xs)
  | object {ms : Record} (hk : Assoc.Distinct ms) (h : ∀ m ∈ ms, Proper m.2) : Proper (object ms)
  | thing {kind : String} {ms : List (String × Value)} (hk : Assoc.Distinct ms) (h : ∀ m ∈ ms, Proper m.2) :
    Proper (thing kind ms)
  | bundle {ms : List (String × Value)} (hk : Assoc.Distinct ms) (h : ∀ m ∈ ms, Proper m.2) : Proper (bundle ms)

theorem proper_object_iff {ms : Record} : (object ms).Proper ↔ Assoc.Distinct ms ∧ ∀ m ∈ ms, m.2.Proper :=
  ⟨fun | .object hk h => ⟨hk, h⟩, fun h => .object h.1 h.2⟩

/-- What is found in a proper object is proper. -/
theorem Proper.lookup {ms : Record} (h : Proper (.object ms)) {k : Key} {v : Value} (hv : ms.lookup k = some v) :
    v.Proper := by
  obtain ⟨k', -, hmem⟩ := Assoc.mem_of_lookup hv
  exact (proper_object_iff.1 h).2 _ hmem

/-- Lists that are equal item by item are so the other way round, if their items are. -/
private theorem forall₂_symm {xs ys : List Value}
    (h : ∀ x ∈ xs, ∀ {y : Value}, y.Proper → (x == y) = true → (y == x) = true) (hys : ∀ y ∈ ys, y.Proper)
    (hequal : List.Forall₂ (fun x y => (x == y) = true) xs ys) : List.Forall₂ (fun x y => (x == y) = true) ys xs := by
  induction hequal with
  | nil => exact .nil
  | cons hxy _ ih =>
    rw [List.forall_mem_cons] at h hys
    exact .cons (h.1 hys.1 hxy) (ih h.2 hys.2)

/-- A proper value is equal to itself, also where it is no number. -/
theorem Proper.beq_self {v : Value} (h : v.Proper) : (v == v) = true := by
  induction h with
  | null =>
    change same _ _ = true
    rw [same]
  | bool | int | float => exact (number_beq_iff rfl).2 rfl
  | string s => rw [beq_string, beq_self_eq_true]
  | constant kind name word =>
    change same _ _ = true
    simp [same]
  | list _ ih => exact list_beq_iff.2 (List.forall₂_same.2 ih)
  | tuple _ ih => exact tuple_beq_iff.2 (List.forall₂_same.2 ih)
  | object hk _ ih => exact object_beq_iff_agree.2 (agree_self hk ih)
  | thing hk _ ih => exact thing_beq_iff.2 ⟨rfl, agree_self hk ih⟩
  | bundle hk _ ih => exact bundle_beq_iff.2 (agree_self hk ih)

/-- Equality of proper values is symmetric. -/
theorem Proper.beq_symm {v w : Value} (hv : v.Proper) (hw : w.Proper) (h : (v == w) = true) : (w == v) = true := by
  induction hv generalizing w with
  | bool | int | float => exact (beq_number_iff rfl).2 ((number_beq_iff rfl).1 h)
  | string s =>
    obtain rfl := beq_string_left.1 h
    exact h
  | null =>
    cases hw with
    | null => exact h
    | _ => cases ctorIdx_eq_of_beq rfl h
  | constant kind name word =>
    cases hw with
    | constant kind' name' word' =>
      change same _ _ = true at h ⊢
      simp only [same, Bool.and_eq_true, beq_iff_eq] at h ⊢
      exact ⟨h.1.symm, h.2.symm⟩
    | _ => cases ctorIdx_eq_of_beq rfl h
  | list _ ih =>
    cases hw with
    | list hw => exact list_beq_iff.2 (forall₂_symm ih hw (list_beq_iff.1 h))
    | _ => cases ctorIdx_eq_of_beq rfl h
  | tuple _ ih =>
    cases hw with
    | tuple hw => exact tuple_beq_iff.2 (forall₂_symm ih hw (tuple_beq_iff.1 h))
    | _ => cases ctorIdx_eq_of_beq rfl h
  | object hk _ ih =>
    cases hw with
    | object hk' hw =>
      exact object_beq_iff_agree.2 ((object_beq_iff_agree.1 h).symm hk hk' fun m hm n hn => ih m hm (hw n hn))
    | _ => cases ctorIdx_eq_of_beq rfl h
  | thing hk _ ih =>
    cases hw with
    | thing hk' hw =>
      obtain ⟨hkind, h⟩ := thing_beq_iff.1 h
      exact thing_beq_iff.2 ⟨hkind.symm, h.symm hk hk' fun m hm n hn => ih m hm (hw n hn)⟩
    | _ => cases ctorIdx_eq_of_beq rfl h
  | bundle hk _ ih =>
    cases hw with
    | bundle hk' hw =>
      exact bundle_beq_iff.2 ((bundle_beq_iff.1 h).symm hk hk' fun m hm n hn => ih m hm (hw n hn))
    | _ => cases ctorIdx_eq_of_beq rfl h

end Value

end EdgeFields
