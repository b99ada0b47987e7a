/-!
# Ordered maps

Maps whose order shows are lists of pairs.  A new key goes last and an old one keeps its place and its form, for
keys may be equal without being the same; looking up is `List.lookup`.  Main statements: what `insert` and `erase`
do to every look-up.
-/

namespace EdgeFields.Assoc

variable {κ α β : Type} [BEq κ]

/-- Sets the value of a key, in its place if the key is there and at the end otherwise. -/
def insert (k : κ) (a : α) : List (κ × α) → List (κ × α)
  | [] => [(k, a)]
  | (k', a') :: r => if k == k' then (k', a) :: r else (k', a') :: insert k a r

/-- Takes away a key. -/
def erase (k : κ) (m : List (κ × α)) : List (κ × α) :=
  m.filter fun p => !(k == p.1)

/-- Whether the key is there. -/
def contains (k : κ) (m : List (κ × α)) : Bool :=
  (m.lookup k).isSome

/-- Sets every pair of the second map in the first, in order. -/
def update (m m' : List (κ × α)) : List (κ × α) :=
  m'.foldl (fun m p => insert p.1 p.2 m) m

/-- The keys, in order. -/
def keys (m : List (κ × α)) : List κ :=
  m.map (·.1)

/-- Appends to the list kept under a key, which is empty at first. -/
def push (k : κ) (a : α) : List (κ × List α) → List (κ × List α)
  | [] => [(k, [a])]
  | (k', as) :: r => if k == k' then (k', as ++ [a]) :: r else (k', as) :: push k a r

theorem lookup_cons_of_ne {k l : κ} (h : (l == k) = false) (a : α) (m : List (κ × α)) :
    ((k, a) :: m).lookup l = m.lookup l := by
  simp [List.lookup_cons, h]

@[simp] theorem lookup_insert_self [ReflBEq κ] (k : κ) (a : α) (m : List (κ × α)) :
    (insert k a m).lookup k = some a := by
  induction m with
  | nil => simp [insert]
  | cons p r ih =>
    obtain ⟨k', a'⟩ := p
    unfold insert
    cases h : k == k'
    · simp [lookup_cons_of_ne h, ih]
    · simp [List.lookup_cons, h]

/-- A key equal to `k` is different from every key that `k` is different from. -/
theorem beq_eq_false_of_beq [PartialEquivBEq κ] {k k' l : κ} (h : (l == k) = false) (hk : (k == k') = true) :
    (l == k') = false := by
  cases hl : l == k'
  · rfl
  · rw [PartialEquivBEq.trans hl (PartialEquivBEq.symm hk)] at h
    exact h

theorem lookup_insert_of_ne [PartialEquivBEq κ] {k l : κ} (h : (l == k) = false) (a : α) (m : List (κ × α)) :
    (insert k a m).lookup l = m.lookup l := by
  induction m with
  | nil => simp [insert, lookup_cons_of_ne h]
  | cons p r ih =>
    obtain ⟨k', a'⟩ := p
    unfold insert
    cases hk : k == k'
    · simp [List.lookup_cons, ih]
    · simp [List.lookup_cons, beq_eq_false_of_beq h hk]

@[simp] theorem lookup_erase_self (k : κ) (m : List (κ × α)) :
    (erase k m).lookup k = none := by
  induction m with
  | nil => rfl
  | cons p r ih =>
    obtain ⟨k', a'⟩ := p
    cases h : k == k'
    · have e : erase k ((k', a') :: r) = (k', a') :: erase k r := by simp [erase, h]
      rw [e, lookup_cons_of_ne h, ih]
    · have e : erase k ((k', a') :: r) = erase k r := by simp [erase, h]
      rw [e, ih]

theorem lookup_erase_of_ne [PartialEquivBEq κ] {k l : κ} (h : (l == k) = false) (m : List (κ × α)) :
    (erase k m).lookup l = m.lookup l := by
  induction m with
  | nil => rfl
  | cons p r ih =>
    obtain ⟨k', a'⟩ := p
    cases hk : k == k'
    · have e : erase k ((k', a') :: r) = (k', a') :: erase k r := by simp [erase, hk]
      simp [e, List.lookup_cons, ih]
    · have e : erase k ((k', a') :: r) = erase k r := by simp [erase, hk]
      rw [e, ih, lookup_cons_of_ne (beq_eq_false_of_beq h hk)]

end EdgeFields.Assoc
