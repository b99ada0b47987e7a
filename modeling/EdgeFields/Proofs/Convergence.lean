import EdgeFields.Proofs.Incremental
import Mathlib.Data.List.DropRight

/-!
# Convergence

Updates add the projection of an entity to a field of a document or take it away.  They may come in any order and
any number of times: what a field holds in the end depends only on what became of each entity by itself
(`Update.run_converges`).  The entries that were there at first and whose entity was never taken away come first;
behind them stands every other entity that was added last, as it was embedded when it came to stay, in the order of
arrival.

What every update preserves is that closed form (`Holds`, `Followed`); a run follows by induction, one more update at
its end.
-/

namespace EdgeFields

/-- Whether a value is an object that embeds the entity of this number. -/
def Value.Embeds (v : Value) (x : Int) : Prop :=
  ∃ ms, v = .object ms ∧ ms.lookup (Key.string "entity_id") = some (.int x)

/-- Whether a field is absent or a list of embedded entities which is not empty. -/
def Document.Lists (doc : Document) (k : Key) (items : List Value) : Prop :=
  doc.Keeps k items ∧ ∀ v ∈ items, ∃ x, v.Embeds x

/-- A field of the document of an entity. -/
structure Slot where
  owner : Int
  field : String
  deriving DecidableEq, Repr

/-- An operation that adds the projection of an entity to a field, or takes it away. -/
structure Update where
  operation : Operation
  slot : Slot
  entity : Int
  added : Bool
  owner_eq : operation.owner = .int slot.owner
  field_eq : operation.field = .string slot.field
  action_eq : operation.action = .known (if added then .upsert else .remove)
  embeds : operation.projection.Embeds entity

namespace Update

/-- Whether an update is about an entity in a field. -/
def isAbout (s : Slot) (x : Int) (u : Update) : Bool := u.slot = s && u.entity = x

/-- Whether an update adds an entity to a field. -/
def adds (s : Slot) (x : Int) (u : Update) : Bool := u.isAbout s x && u.added

/-- Whether an update takes an entity from a field. -/
def removes (s : Slot) (x : Int) (u : Update) : Bool := u.isAbout s x && !u.added

/-- The updates after the last one that takes an entity from a field; all of them if none does. -/
def sinceRemoval (s : Slot) (x : Int) (us : List Update) : List Update :=
  us.rtakeWhile fun u => !u.removes s x

/-- The update that an entity came to stay in a field with: the first that adds it after it was taken away last. -/
def arrival? (s : Slot) (x : Int) (us : List Update) : Option Update :=
  (sinceRemoval s x us).find? (adds s x)

/-- The position of that update among all updates. -/
def arrivalAt (s : Slot) (x : Int) (us : List Update) : Nat :=
  us.length - (sinceRemoval s x us).length + (sinceRemoval s x us).findIdx (adds s x)

/-- Whether the last update about an entity in a field adds it. -/
def LastAdds (s : Slot) (x : Int) (us : List Update) : Prop :=
  ∃ u, (us.filter (isAbout s x)).getLast? = some u ∧ u.added = true

/-- The entries of a field whose entity no update takes away. -/
def remaining (s : Slot) (us : List Update) (items : List Value) : List Value :=
  items.filter fun v => !us.any fun u => u.slot = s && !u.added && v.subject == .int u.entity

/-- The entities that came to stay in a field besides the remaining entries, in the order of arrival. -/
structure Arrived (s : Slot) (us : List Update) (items : List Value) (xs : List Int) : Prop where
  mem : ∀ x, x ∈ xs ↔ (∀ v ∈ remaining s us items, v.subject ≠ .int x) ∧ LastAdds s x us
  order : xs.Pairwise fun x y => arrivalAt s x us < arrivalAt s y us

/-- The entities as they were embedded when they came to stay in a field. -/
def brought (s : Slot) (us : List Update) (xs : List Int) : List Value :=
  xs.filterMap fun x => (arrival? s x us).map fun u => u.operation.projection

/-- Carries out updates on documents, one after another. -/
def run (documents : Int → Document) (us : List Update) : Except Fault (Int → Document) :=
  (us.map fun u => BatchItem.operation u.operation).foldlM World.carry documents

variable {s : Slot} {x : Int} {us : List Update} {u : Update}

/-! ### One more update -/

private theorem adds_eq_false_of_removes (h : u.removes s x = true) : u.adds s x = false := by
  rw [removes, Bool.and_eq_true, Bool.not_eq_true'] at h
  rw [adds, h.2, Bool.and_false]

private theorem sinceRemoval_concat (h : u.removes s x = false) :
    sinceRemoval s x (us ++ [u]) = sinceRemoval s x us ++ [u] :=
  List.rtakeWhile_concat_pos _ _ _ (by rw [h]; rfl)

private theorem arrival?_concat_of_removes (h : u.removes s x = true) : arrival? s x (us ++ [u]) = none := by
  have hnil : sinceRemoval s x (us ++ [u]) = [] := List.rtakeWhile_concat_neg _ _ _ (by simp [h])
  rw [arrival?, hnil]
  rfl

private theorem arrival?_concat (h : u.removes s x = false) :
    arrival? s x (us ++ [u]) = (arrival? s x us).or (if u.adds s x then some u else none) := by
  rw [arrival?, sinceRemoval_concat h, List.find?_append, arrival?]
  congr 1
  cases hu : u.adds s x <;> simp [hu]

private theorem arrivalAt_concat_of_isSome (h : u.removes s x = false) (hs : (arrival? s x us).isSome = true) :
    arrivalAt s x (us ++ [u]) = arrivalAt s x us := by
  have hfound : (sinceRemoval s x us).findIdx (adds s x) < (sinceRemoval s x us).length := by
    rw [List.findIdx_lt_length]
    exact List.find?_isSome.1 hs
  rw [arrivalAt, sinceRemoval_concat h, List.findIdx_append, if_pos hfound, arrivalAt]
  simp

private theorem arrivalAt_concat_of_none (hs : arrival? s x us = none) (h : u.adds s x = true) :
    arrivalAt s x (us ++ [u]) = us.length := by
  have hkept : u.removes s x = false := by
    by_contra hr
    rw [Bool.not_eq_false] at hr
    rw [adds_eq_false_of_removes hr] at h
    exact Bool.false_ne_true h
  have hmissing : (sinceRemoval s x us).findIdx (adds s x) = (sinceRemoval s x us).length := by
    rw [List.findIdx_eq_length]
    exact by simpa [arrival?] using hs
  have hle : (sinceRemoval s x us).length ≤ us.length := (List.rtakeWhile_suffix _ _).length_le
  rw [arrivalAt, sinceRemoval_concat hkept, List.findIdx_append, hmissing]
  simp [h]
  omega

theorem getElem?_arrivalAt : us[arrivalAt s x us]? = arrival? s x us := by
  have hsplit : us.rdropWhile (fun u => !u.removes s x) ++ sinceRemoval s x us = us :=
    List.rdropWhile_append_rtakeWhile
  have hlen : us.length - (sinceRemoval s x us).length = (us.rdropWhile fun u => !u.removes s x).length := by
    have := congrArg List.length hsplit
    rw [List.length_append] at this
    omega
  have hat : ∀ i, (us.rdropWhile (fun u => !u.removes s x) ++ sinceRemoval s x us)[
      (us.rdropWhile fun u => !u.removes s x).length + i]? = (sinceRemoval s x us)[i]? := by
    intro i
    rw [List.getElem?_append_right (Nat.le_add_right _ i), Nat.add_sub_cancel_left]
  rw [hsplit] at hat
  rw [arrivalAt, hlen, hat, arrival?, List.find?_eq_getElem?_findIdx]

private theorem arrivalAt_lt (hs : (arrival? s x us).isSome = true) : arrivalAt s x us < us.length := by
  rw [← getElem?_arrivalAt] at hs
  simpa using hs

theorem lastAdds_concat_of_not_about (hu : u.isAbout s x = false) : LastAdds s x (us ++ [u]) ↔ LastAdds s x us := by
  rw [LastAdds, List.filter_append, List.filter_singleton, hu]
  simp [LastAdds]

theorem lastAdds_concat_of_about (hu : u.isAbout s x = true) : LastAdds s x (us ++ [u]) ↔ u.added = true := by
  rw [LastAdds, List.filter_append, List.filter_singleton, hu]
  simp

theorem lastAdds_iff : LastAdds s x us ↔ (arrival? s x us).isSome = true := by
  induction us using List.reverseRecOn with
  | nil => simp [LastAdds, arrival?, sinceRemoval]
  | append_singleton us u ih =>
    cases hu : u.isAbout s x with
    | true =>
      rw [lastAdds_concat_of_about hu]
      cases ha : u.added with
      | true =>
        have hkept : u.removes s x = false := by simp [removes, ha]
        have hadds : u.adds s x = true := by simp [adds, hu, ha]
        rw [arrival?_concat hkept, if_pos hadds]
        cases arrival? s x us <;> simp
      | false =>
        have hremoves : u.removes s x = true := by simp [removes, hu, ha]
        rw [arrival?_concat_of_removes hremoves]
        simp
    | false =>
      have hkept : u.removes s x = false := by simp [removes, hu]
      have hadds : u.adds s x = false := by simp [adds, hu]
      rw [lastAdds_concat_of_not_about hu, ih, arrival?_concat hkept, hadds]
      simp

private theorem remaining_concat (items : List Value) :
    remaining s (us ++ [u]) items = (remaining s us items).filter fun v =>
      !(u.slot = s && !u.added && v.subject == .int u.entity) := by
  rw [remaining, remaining, List.filter_filter]
  apply List.filter_congr
  intro v _
  simp [Bool.and_comm]

/-! ### What a field holds -/

theorem subject_eq_of_embeds {v : Value} (h : v.Embeds x) : v.subject = .int x := by
  obtain ⟨ms, rfl, hms⟩ := h
  rw [Value.subject, hms]
  rfl

private theorem embeds_of_arrival? (h : arrival? s x us = some u) : u.operation.projection.Embeds x := by
  have hadds : u.adds s x = true := List.find?_some h
  have habout : u.entity = x := by
    simp only [adds, isAbout, Bool.and_eq_true, decide_eq_true_eq] at hadds
    exact hadds.1.2
  exact habout ▸ u.embeds

private theorem brought_congr {us' : List Update} {xs : List Int} (h : ∀ x ∈ xs, arrival? s x us' = arrival? s x us) :
    brought s us' xs = brought s us xs :=
  List.filterMap_congr fun x hx => by rw [h x hx]

/-- What a field holds after some updates, if it held `items` at first: the remaining entries, and behind them the
entities that came to stay besides. -/
def Holds (s : Slot) (us : List Update) (items vs : List Value) : Prop :=
  ∃ xs, Arrived s us items xs ∧ vs = remaining s us items ++ brought s us xs

variable {items vs : List Value} {xs : List Int}

private theorem Arrived.isSome (h : Arrived s us items xs) (hx : x ∈ xs) : (arrival? s x us).isSome = true :=
  lastAdds_iff.1 ((h.mem x).1 hx).2

private theorem Arrived.nodup (h : Arrived s us items xs) : xs.Nodup :=
  h.order.imp fun hlt heq => by
    rw [heq] at hlt
    exact Nat.lt_irrefl _ hlt

/-- An update keeps the order of the entities that it does not take away. -/
private theorem Arrived.order_concat (h : Arrived s us items xs) {xs' : List Int} (hsub : xs'.Sublist xs)
    (hu : ∀ x ∈ xs', u.removes s x = false) :
    xs'.Pairwise fun x y => arrivalAt s x (us ++ [u]) < arrivalAt s y (us ++ [u]) := by
  refine (h.order.sublist hsub).imp_of_mem fun {x y} hx hy hlt => ?_
  rw [arrivalAt_concat_of_isSome (hu x hx) (h.isSome (hsub.mem hx)),
    arrivalAt_concat_of_isSome (hu y hy) (h.isSome (hsub.mem hy))]
  exact hlt

private theorem Arrived.arrival?_concat (h : Arrived s us items xs) (hx : x ∈ xs) (hu : u.removes s x = false) :
    arrival? s x (us ++ [u]) = arrival? s x us := by
  rw [Update.arrival?_concat hu]
  obtain ⟨w, hw⟩ := Option.isSome_iff_exists.1 (h.isSome hx)
  rw [hw, Option.some_or]

/-- The entities of the entries that a field holds: those of the remaining entries, and those that arrived. -/
private theorem Arrived.exists_subject_iff (h : Arrived s us items xs) :
    (∃ v ∈ remaining s us items ++ brought s us xs, v.subject = .int x) ↔
      (∃ v ∈ remaining s us items, v.subject = .int x) ∨ x ∈ xs := by
  constructor
  · rintro ⟨v, hv, hsubject⟩
    rcases List.mem_append.1 hv with hv | hv
    · exact .inl ⟨v, hv, hsubject⟩
    · obtain ⟨y, hy, hv⟩ := List.mem_filterMap.1 hv
      obtain ⟨w, hw, rfl⟩ := Option.map_eq_some_iff.1 hv
      rw [subject_eq_of_embeds (embeds_of_arrival? hw)] at hsubject
      exact .inr (Value.int.inj hsubject ▸ hy)
  · rintro (⟨v, hv, hsubject⟩ | hx)
    · exact ⟨v, List.mem_append_left _ hv, hsubject⟩
    · obtain ⟨w, hw⟩ := Option.isSome_iff_exists.1 (h.isSome hx)
      refine ⟨w.operation.projection, List.mem_append_right _ ?_, subject_eq_of_embeds (embeds_of_arrival? hw)⟩
      exact List.mem_filterMap.2 ⟨x, hx, by rw [hw, Option.map_some]⟩

/-- Updates of other fields do not matter to a field. -/
private theorem Holds.concat_other (h : Holds s us items vs) (hu : u.slot ≠ s) : Holds s (us ++ [u]) items vs := by
  obtain ⟨xs, hx, rfl⟩ := h
  have habout : ∀ x, u.isAbout s x = false := fun x => by simp [isAbout, hu]
  have hkept : ∀ x, u.removes s x = false := fun x => by simp [removes, habout x]
  have hremaining : remaining s (us ++ [u]) items = remaining s us items := by simp [remaining_concat, hu]
  refine ⟨xs, ⟨fun x => ?_, hx.order_concat (List.Sublist.refl xs) fun x _ => hkept x⟩, ?_⟩
  · rw [hremaining, lastAdds_concat_of_not_about (habout x)]
    exact hx.mem x
  · rw [hremaining, brought_congr fun x hx' => hx.arrival?_concat hx' (hkept x)]

private theorem isAbout_of_ne (hx : x ≠ u.entity) : u.isAbout s x = false := by simp [isAbout, hx.symm]

section Own

variable (hs : u.slot = s)
include hs

private theorem isAbout_entity : u.isAbout s u.entity = true := by simp [isAbout, hs]

/-- An update that adds an entity leaves a field that has an entry of it as it is. -/
private theorem Holds.concat_present (h : Holds s us items vs) (ha : u.added = true)
    (hv : ∃ v ∈ vs, v.subject = .int u.entity) : Holds s (us ++ [u]) items vs := by
  obtain ⟨xs, hx, rfl⟩ := h
  rw [hx.exists_subject_iff] at hv
  have hkept : ∀ x, u.removes s x = false := fun x => by simp [removes, ha]
  have hremaining : remaining s (us ++ [u]) items = remaining s us items := by simp [remaining_concat, ha]
  refine ⟨xs, ⟨fun x => ?_, hx.order_concat (List.Sublist.refl xs) fun x _ => hkept x⟩, ?_⟩
  · rw [hremaining]
    by_cases hxu : x = u.entity
    · -- The entity is added last now, so it only matters whether one of its entries remains.
      subst hxu
      rw [lastAdds_concat_of_about (isAbout_entity hs)]
      constructor
      · intro hmem
        exact ⟨((hx.mem _).1 hmem).1, ha⟩
      · rintro ⟨hne, -⟩
        refine hv.resolve_left ?_
        rintro ⟨v, hv, hsubject⟩
        exact hne v hv hsubject
    · rw [lastAdds_concat_of_not_about (isAbout_of_ne hxu)]
      exact hx.mem x
  · rw [hremaining, brought_congr fun x hx' => hx.arrival?_concat hx' (hkept x)]

/-- An update that adds an entity puts it last in a field that has no entry of it. -/
private theorem Holds.concat_absent (h : Holds s us items vs) (ha : u.added = true)
    (hv : ¬ ∃ v ∈ vs, v.subject = .int u.entity) : Holds s (us ++ [u]) items (vs ++ [u.operation.projection]) := by
  obtain ⟨xs, hx, rfl⟩ := h
  rw [hx.exists_subject_iff, not_or] at hv
  obtain ⟨hstay, hnew⟩ := hv
  have hkept : ∀ x, u.removes s x = false := fun x => by simp [removes, ha]
  have hadds : u.adds s u.entity = true := by simp [adds, isAbout_entity hs, ha]
  have hremaining : remaining s (us ++ [u]) items = remaining s us items := by simp [remaining_concat, ha]
  have hnone : arrival? s u.entity us = none := by
    rw [← Option.not_isSome_iff_eq_none, ← lastAdds_iff]
    intro hlast
    refine hnew ((hx.mem _).2 ⟨fun v hv hsubject => hstay ⟨v, hv, hsubject⟩, hlast⟩)
  have hlast : arrivalAt s u.entity (us ++ [u]) = us.length := arrivalAt_concat_of_none hnone hadds
  refine ⟨xs ++ [u.entity], ⟨fun x => ?_, ?_⟩, ?_⟩
  · rw [List.mem_append, List.mem_singleton, hremaining]
    by_cases hxu : x = u.entity
    · subst hxu
      rw [lastAdds_concat_of_about (isAbout_entity hs)]
      exact iff_of_true (.inr rfl) ⟨fun v hv hsubject => hstay ⟨v, hv, hsubject⟩, ha⟩
    · rw [lastAdds_concat_of_not_about (isAbout_of_ne hxu), or_iff_left hxu]
      exact hx.mem x
  · rw [List.pairwise_append]
    refine ⟨hx.order_concat (List.Sublist.refl xs) fun x _ => hkept x, List.pairwise_singleton _ _, ?_⟩
    intro x hx' y hy
    rw [List.mem_singleton.1 hy, hlast, arrivalAt_concat_of_isSome (hkept x) (hx.isSome hx')]
    exact arrivalAt_lt (hx.isSome hx')
  · have hnew : arrival? s u.entity (us ++ [u]) = some u := by
      rw [Update.arrival?_concat (hkept _), hnone, if_pos hadds, Option.none_or]
    have hbrought : brought s (us ++ [u]) (xs ++ [u.entity]) = brought s us xs ++ [u.operation.projection] := by
      rw [← brought_congr fun x hx' => hx.arrival?_concat hx' (hkept x)]
      simp [brought, hnew]
    rw [hremaining, hbrought, List.append_assoc]

/-- An update that takes an entity away takes all its entries from a field. -/
private theorem Holds.concat_removed (h : Holds s us items vs) (ha : u.added = false) :
    Holds s (us ++ [u]) items (vs.filter fun v => !(v.subject == .int u.entity)) := by
  obtain ⟨xs, hx, rfl⟩ := h
  have hkept : ∀ x, x ≠ u.entity → u.removes s x = false := fun x hxu => by
    simp [removes, isAbout_of_ne hxu]
  have hremaining : remaining s (us ++ [u]) items =
      (remaining s us items).filter fun v => !(v.subject == .int u.entity) := by
    simp [remaining_concat, hs, ha]
  refine ⟨xs.filter (· ≠ u.entity), ⟨fun x => ?_, ?_⟩, ?_⟩
  · rw [List.mem_filter, decide_eq_true_eq, hremaining]
    by_cases hxu : x = u.entity
    · subst hxu
      rw [lastAdds_concat_of_about (isAbout_entity hs), ha]
      simp
    · rw [lastAdds_concat_of_not_about (isAbout_of_ne hxu), and_iff_left hxu, hx.mem x]
      -- Entries of `x` are not among those that go.
      refine and_congr_left fun _ => ⟨fun hne v hv => hne v (List.mem_filter.1 hv).1, fun hne v hv hsubject => ?_⟩
      refine hne v (List.mem_filter.2 ⟨hv, ?_⟩) hsubject
      rw [hsubject, Value.beq_int]
      simpa using hxu
  · exact hx.order_concat List.filter_sublist fun x hx' => hkept x (by simpa using (List.mem_filter.1 hx').2)
  · rw [hremaining, List.filter_append]
    congr 1
    rw [brought, brought, List.filter_filterMap, List.filterMap_filter]
    refine List.filterMap_congr fun x hx' => ?_
    obtain ⟨w, hw⟩ := Option.isSome_iff_exists.1 (hx.isSome hx')
    have hsubject := subject_eq_of_embeds (embeds_of_arrival? hw)
    by_cases hxu : x = u.entity
    · subst hxu
      simp [hw, hsubject]
    · rw [hx.arrival?_concat hx' (hkept x hxu)]
      simp [hw, hxu, hsubject]

end Own

/-! ### Whole runs -/

variable {documents documents₀ : Int → Document}

theorem isObject_of_embeds {v : Value} (h : v.Embeds x) : v.IsObject := h.imp fun _ hms => hms.1

private theorem plain (u : Update) :
    u.operation.Plain (.string u.slot.field) (if u.added then .upsert else .remove) where
  field := by rw [u.field_eq, Value.toKey_string]
  action := u.action_eq
  projection _ := isObject_of_embeds u.embeds
  projections h := by split at h <;> contradiction

/-- What every update preserves: each field that was a list of embedded entities holds what the updates so far leave
there, and fields that no update is for are as they were. -/
structure Followed (documents₀ : Int → Document) (us : List Update) (documents : Int → Document) : Prop where
  holds : ∀ s items, (documents₀ s.owner).Lists (.string s.field) items →
    ∃ vs, Holds s us items vs ∧ (documents s.owner).Lists (.string s.field) vs
  frame : ∀ d k, (∀ u ∈ us, u.slot.owner = d → k ≠ .string u.slot.field) →
    (documents d).lookup k = (documents₀ d).lookup k

private theorem Followed.start (documents : Int → Document) : Followed documents [] documents where
  holds s items h := by
    refine ⟨items, ⟨[], ⟨fun x => ?_, List.Pairwise.nil⟩, ?_⟩, h⟩
    · simp [LastAdds]
    · simp [remaining, brought]
  frame _ _ _ := rfl

/-- An update changes its own field as the history asks for. -/
private theorem Holds.after (h : Holds u.slot us items vs) {doc : Document}
    (hd : doc.Lists (.string u.slot.field) vs) :
    ∃ vs', Holds u.slot (us ++ [u]) items vs' ∧
      (Document.after doc u.operation).Lists (.string u.slot.field) vs' := by
  obtain ⟨hkeeps, hembeds⟩ := hd
  have hobj : ∀ v ∈ vs, v.IsObject := fun v hv => by
    obtain ⟨x, hx⟩ := hembeds v hv
    exact isObject_of_embeds hx
  have hsubject : u.operation.projection.subject = .int u.entity := subject_eq_of_embeds u.embeds
  have hequal : ∀ v ∈ vs, v.subject.equal u.operation.projection.subject = (v.subject == .int u.entity) := by
    intro v hv
    obtain ⟨x, hx⟩ := hembeds v hv
    rw [subject_eq_of_embeds hx, hsubject, Value.equal_int, Value.beq_int]
  have hplain := u.plain
  cases ha : u.added with
  | true =>
    rw [ha, if_pos rfl] at hplain
    have hafter := Document.keeps_upsert hplain hkeeps hobj
    by_cases hv : ∃ v ∈ vs, v.subject = .int u.entity
    · refine ⟨vs, h.concat_present rfl ha hv, ?_, hembeds⟩
      rwa [if_pos] at hafter
      obtain ⟨v, hv, hvu⟩ := hv
      exact List.any_eq_true.2 ⟨v, hv, by rw [hequal v hv, hvu, Value.beq_int, beq_self_eq_true]⟩
    · refine ⟨_, h.concat_absent rfl ha hv, ?_, ?_⟩
      · rwa [if_neg] at hafter
        rw [List.any_eq_true]
        rintro ⟨v, hv', hvu⟩
        obtain ⟨x, hx⟩ := hembeds v hv'
        rw [hequal v hv', subject_eq_of_embeds hx, Value.beq_int, beq_iff_eq] at hvu
        exact hv ⟨v, hv', by rw [subject_eq_of_embeds hx, hvu]⟩
      · intro v hv
        rcases List.mem_append.1 hv with hv | hv
        · exact hembeds v hv
        · exact ⟨u.entity, List.mem_singleton.1 hv ▸ u.embeds⟩
  | false =>
    rw [ha, if_neg (by simp)] at hplain
    have hafter := Document.keeps_remove hplain hkeeps hobj
    have hfilter : vs.filter (fun v => !v.subject.equal u.operation.projection.subject) =
        vs.filter fun v => !(v.subject == .int u.entity) :=
      List.filter_congr fun v hv => by rw [hequal v hv]
    rw [hfilter] at hafter
    exact ⟨_, h.concat_removed rfl ha, hafter, fun v hv => hembeds v (List.mem_filter.1 hv).1⟩

private theorem carry_followed (h : Followed documents₀ us documents) {items : List Value}
    (hitems : (documents₀ u.slot.owner).Lists (.string u.slot.field) items) :
    ∃ documents', World.carry documents (.operation u.operation) = .ok documents' ∧
      Followed documents₀ (us ++ [u]) documents' := by
  obtain ⟨vs, hvs, hlists⟩ := h.holds u.slot items hitems
  have hfield : (documents u.slot.owner).PlainField (.string u.slot.field) :=
    hlists.1.plainField fun v hv => by
      obtain ⟨x, hx⟩ := hlists.2 v hv
      exact isObject_of_embeds hx
  refine ⟨_, World.carry_operation u.plain u.owner_eq hfield, ?_⟩
  have hother : ∀ d (k : Key), (d = u.slot.owner → k ≠ .string u.slot.field) →
      (if d = u.slot.owner then (documents u.slot.owner).after u.operation else documents d).lookup k =
        (documents d).lookup k := by
    intro d k hk
    split
    · next hd =>
      have hne : (k == Key.string u.slot.field) = false := by
        rw [Bool.eq_false_iff]
        exact fun hbeq => hk hd (Key.beq_string_left.1 (BEq.symm hbeq))
      rw [Document.lookup_after_of_ne u.plain hfield hne, hd]
    · rfl
  constructor
  · intro s items' hitems'
    obtain ⟨ws, hws, hlists'⟩ := h.holds s items' hitems'
    by_cases hs : u.slot = s
    · subst hs
      rw [if_pos rfl]
      exact hws.after hlists'
    · refine ⟨ws, hws.concat_other hs, ?_, hlists'.2⟩
      have hsame := hother s.owner (.string s.field) fun hd hk => by
        refine hs ?_
        cases s
        simp_all
      exact hsame.trans hlists'.1
  · intro d k hk
    rw [hother d k, h.frame d k]
    · exact fun u' hu' => hk u' (List.mem_append_left _ hu')
    · exact fun hd => hk u (by simp) hd.symm

theorem run_followed (h : ∀ u ∈ us, ∃ items, (documents u.slot.owner).Lists (.string u.slot.field) items) :
    ∃ documents', run documents us = .ok documents' ∧ Followed documents us documents' := by
  induction us using List.reverseRecOn with
  | nil => exact ⟨documents, rfl, .start documents⟩
  | append_singleton us u ih =>
    obtain ⟨documents₁, hrun, h₁⟩ := ih fun u' hu' => h u' (List.mem_append_left _ hu')
    obtain ⟨items, hitems⟩ := h u (by simp)
    obtain ⟨documents₂, hcarry, h₂⟩ := carry_followed h₁ hitems
    refine ⟨documents₂, ?_, h₂⟩
    rw [run] at hrun ⊢
    rw [List.map_append, List.foldlM_append, hrun, ok_bind, List.map_singleton, List.foldlM_cons, hcarry]
    rfl

/-! ### Runs with the same histories -/

private theorem arrival?_filter (s : Slot) (x : Int) (us : List Update) :
    arrival? s x (us.filter (isAbout s x)) = arrival? s x us := by
  induction us using List.reverseRecOn with
  | nil => rfl
  | append_singleton us u ih =>
    rw [List.filter_append]
    cases hu : u.isAbout s x with
    | false =>
      have hkept : u.removes s x = false := by simp [removes, hu]
      have hadds : u.adds s x = false := by simp [adds, hu]
      rw [arrival?_concat hkept, hadds, List.filter_singleton, hu]
      simpa using ih
    | true =>
      rw [List.filter_singleton, hu, cond_true]
      cases hr : u.removes s x with
      | true => rw [arrival?_concat_of_removes hr, arrival?_concat_of_removes hr]
      | false => rw [arrival?_concat hr, arrival?_concat hr, ih]

/-- Whether an entry remains depends on the updates about its entity only. -/
private theorem any_removes_eq {v : Value} (hv : v.Embeds x) :
    (us.any fun u => u.slot = s && !u.added && v.subject == .int u.entity) =
      (us.filter (isAbout s x)).any fun u => !u.added := by
  rw [List.any_filter]
  congr 1
  funext u
  rw [subject_eq_of_embeds hv, Value.beq_int, isAbout, Bool.eq_iff_iff]
  simp only [Bool.and_eq_true, decide_eq_true_eq, beq_iff_eq]
  constructor
  · rintro ⟨⟨hs, ha⟩, hx⟩
    exact ⟨⟨hs, hx.symm⟩, ha⟩
  · rintro ⟨⟨hs, hx⟩, ha⟩
    exact ⟨⟨hs, ha⟩, hx.symm⟩

/-- Updates that tell the same of every entity leave the same entries in a field, up to their order. -/
private theorem Holds.perm {us' : List Update} {vs' : List Value} (h : Holds s us items vs)
    (h' : Holds s us' items vs')
    (hi : ∀ v ∈ items, ∃ x, v.Embeds x) (hsame : ∀ x, us'.filter (isAbout s x) = us.filter (isAbout s x)) :
    vs.Perm vs' := by
  obtain ⟨xs, hx, rfl⟩ := h
  obtain ⟨xs', hx', rfl⟩ := h'
  have hremaining : remaining s us' items = remaining s us items := by
    refine List.filter_congr fun v hv => ?_
    obtain ⟨x, hvx⟩ := hi v hv
    rw [any_removes_eq hvx, any_removes_eq hvx, hsame]
  have hperm : xs.Perm xs' := by
    rw [List.perm_ext_iff_of_nodup hx.nodup hx'.nodup]
    intro x
    rw [hx.mem, hx'.mem, hremaining, LastAdds, LastAdds, hsame]
  have hbrought : brought s us xs' = brought s us' xs' :=
    brought_congr fun x _ => by rw [← arrival?_filter s x us, ← hsame, arrival?_filter]
  rw [hremaining, ← hbrought]
  exact (hperm.filterMap _).append_left _

end Update

/-- Whether two fields hold the same up to the order of their entries. -/
def Value.SameEntries : Option Value → Option Value → Prop
  | some (.list vs), some (.list ws) => vs.Perm ws
  | v, w => v = w

namespace Update

private theorem sameEntries_refl (v : Option Value) : Value.SameEntries v v := by
  unfold Value.SameEntries
  split
  · exact List.Perm.refl _
  · rfl

private theorem sameEntries_of_perm {doc doc' : Document} {k : Key} {vs vs' : List Value} (h : doc.Keeps k vs)
    (h' : doc'.Keeps k vs') (hperm : vs.Perm vs') : Value.SameEntries (doc.lookup k) (doc'.lookup k) := by
  rw [Document.Keeps] at h h'
  rw [h, h']
  cases vs with
  | nil =>
    rw [hperm.nil_eq.symm]
    exact sameEntries_refl none
  | cons v vs =>
    cases vs' with
    | nil => exact absurd hperm.symm.nil_eq (by simp)
    | cons v' vs' => exact hperm

/-- Updates in any order and with any repetitions can always be carried out.  A field that was a list of embedded
entities holds the remaining entries and then the entities that arrived, each as it came to stay, and is absent if
there are none; no other field changes.  Updates that tell the same of every entity in every field leave the same
documents, up to the order of the entries. -/
theorem run_converges {documents : Int → Document} {us : List Update}
    (h : ∀ u ∈ us, ∃ items, (documents u.slot.owner).Lists (.string u.slot.field) items) :
    ∃ documents', run documents us = .ok documents' ∧
      (∀ s items, (documents s.owner).Lists (.string s.field) items → ∃ xs, Arrived s us items xs ∧
        (documents' s.owner).Keeps (.string s.field) (remaining s us items ++ brought s us xs)) ∧
      (∀ d k, (∀ u ∈ us, u.slot.owner = d → k ≠ .string u.slot.field) →
        (documents' d).lookup k = (documents d).lookup k) ∧
      ∀ us' : List Update, (∀ s x, us'.filter (isAbout s x) = us.filter (isAbout s x)) →
        ∃ documents'', run documents us' = .ok documents'' ∧
          ∀ d k, Value.SameEntries ((documents' d).lookup k) ((documents'' d).lookup k) := by
  obtain ⟨documents', hrun, hf⟩ := run_followed h
  refine ⟨documents', hrun, ?_, hf.frame, ?_⟩
  · intro s items hitems
    obtain ⟨vs, ⟨xs, hxs, rfl⟩, hlists⟩ := hf.holds s items hitems
    exact ⟨xs, hxs, hlists.1⟩
  · intro us' hsame
    -- Both runs have the same updates, only in another order.
    have hmem : ∀ u, u ∈ us' ↔ u ∈ us := by
      intro u
      have habout : u.isAbout u.slot u.entity = true := isAbout_entity rfl
      have := hsame u.slot u.entity
      constructor
      · intro hu
        exact (List.mem_filter.1 (this ▸ List.mem_filter.2 ⟨hu, habout⟩)).1
      · intro hu
        exact (List.mem_filter.1 (this.symm ▸ List.mem_filter.2 ⟨hu, habout⟩)).1
    obtain ⟨documents'', hrun', hf'⟩ := run_followed fun u hu => h u ((hmem u).1 hu)
    refine ⟨documents'', hrun', fun d k => ?_⟩
    by_cases hk : ∃ u ∈ us, u.slot.owner = d ∧ k = .string u.slot.field
    · obtain ⟨u, hu, rfl, rfl⟩ := hk
      obtain ⟨items, hitems⟩ := h u hu
      obtain ⟨vs, hvs, hlists⟩ := hf.holds u.slot items hitems
      obtain ⟨vs', hvs', hlists'⟩ := hf'.holds u.slot items hitems
      exact sameEntries_of_perm hlists.1 hlists'.1 (hvs.perm hvs' hitems.2 (hsame u.slot))
    · have hnone : ∀ u ∈ us, u.slot.owner = d → k ≠ .string u.slot.field :=
        fun u hu hd hk' => hk ⟨u, hu, hd, hk'⟩
      rw [hf.frame d k hnone, hf'.frame d k fun u hu => hnone u ((hmem u).1 hu)]
      exact sameEntries_refl _

/-- The update that puts the summary of an entity into a field, or takes the entity from it. -/
def ofSummary (s : Slot) (e : Entity) (added : Bool) : Update where
  operation := {
    owner := .int s.owner
    field := .string s.field
    action := .known (if added then .upsert else .remove)
    projection := .object e.summary }
  slot := s
  entity := e.id
  added := added
  owner_eq := rfl
  field_eq := rfl
  action_eq := rfl
  embeds := ⟨e.summary, rfl, rfl⟩

/-- A company that is added to the sponsors of an event, taken away and added once more under another title. -/
def sponsorAgain : List Update :=
  let sponsors : Slot := ⟨10, "related_sponsors_company"⟩
  let acme : Entity := { id := 20, type := .string "company", title := .string "Acme" }
  [ofSummary sponsors acme true, ofSummary sponsors acme false,
    ofSummary sponsors { acme with title := .string "Acme Ltd" } true, ofSummary sponsors acme true]

theorem run_converges_sponsorAgain :
    (∀ u ∈ sponsorAgain, Document.Lists [] (.string u.slot.field) []) ∧
    ∃ documents', run (fun _ => []) sponsorAgain = .ok documents' ∧
      (documents' 10).lookup (.string "related_sponsors_company") =
        some (.list [.object [("entity_id", .int 20), ("title", .string "Acme Ltd"), ("slug", .string ""),
          ("type", .string "company")]]) := by
  have habsent : ∀ k, Document.Lists [] k [] := fun k => ⟨rfl, List.forall_mem_nil _⟩
  obtain ⟨documents', hrun, hfields, -⟩ := @run_converges (fun _ => []) sponsorAgain fun u _ => ⟨[], habsent _⟩
  obtain ⟨xs, hxs, hkeeps⟩ := hfields ⟨10, "related_sponsors_company"⟩ [] (habsent _)
  refine ⟨fun u _ => habsent _, documents', hrun, ?_⟩
  have hone : xs = [20] := by
    rw [← List.perm_singleton, List.perm_ext_iff_of_nodup hxs.nodup (List.pairwise_singleton _ _)]
    intro x
    rw [hxs.mem, List.mem_singleton]
    by_cases hx : x = 20
    · subst hx
      exact iff_of_true ⟨List.forall_mem_nil _, lastAdds_iff.2 rfl⟩ rfl
    · have hnever : sponsorAgain.filter (isAbout ⟨10, "related_sponsors_company"⟩ x) = [] := by
        simp [sponsorAgain, isAbout, ofSummary, Ne.symm hx]
      refine iff_of_false (fun h => ?_) hx
      rw [LastAdds, hnever] at h
      simp at h
  subst hone
  exact hkeeps

end Update

end EdgeFields
