import EdgeFields.Proofs.Equality
import EdgeFields.Proofs.FieldChange

/-!
# Idempotence

An operation that goes well on a document, whatever its field holds, leaves the other members as they are, tells
exactly whether the document changed, and does nothing when it is carried out again (`Document.apply_idempotent`).

What it can do is said once (`Change`, `change_of_apply`): nothing, drop the field, or set the field to a list that it
did not hold.  That a second turn does nothing is shown action by action (`settled_upsert`, `settled_remove`,
`settled_replace`).
-/

namespace EdgeFields

namespace Assoc

variable {κ α : Type} [BEq κ]

/-- Setting the value of a key leaves the other members as they are, in order. -/
theorem erase_insert [PartialEquivBEq κ] [ReflBEq κ] (k : κ) (a : α) (m : List (κ × α)) :
    erase k (insert k a m) = erase k m := by
  induction m with
  | nil => simp [insert, erase]
  | cons p r ih =>
    unfold insert
    cases hk : k == p.1 with
    | true => simp [erase, hk]
    | false =>
      have hcons : ∀ r, erase k (p :: r) = p :: erase k r := fun r => by simp [erase, hk]
      rw [if_neg Bool.false_ne_true, hcons, hcons, ih]

private theorem erase_erase (k : κ) (m : List (κ × α)) : erase k (erase k m) = erase k m := by
  rw [erase, erase, List.filter_filter]
  simp

end Assoc

/-- The value that a proper object names its entity by is proper. -/
private theorem Value.Proper.subject {v : Value} (h : v.Proper) : v.subject.Proper := by
  cases h with
  | @object ms hk h =>
    rw [Value.subject]
    cases hfound : ms.lookup (Key.string "entity_id") with
    | none => exact .null
    | some x => exact (Proper.object hk h).lookup hfound
  | _ => exact .null

/-- An operation of a known action with what that action puts into a document: a projection that is an object and
names its entity by a value that is equal to itself, or a list of objects. -/
structure Operation.Carries (op : Operation) (a : Action) : Prop where
  action : op.action = .known a
  projection : a ≠ .replace → op.projection.IsObject ∧ op.projection.Proper
  subject : a ≠ .replace → op.projection.subject.isUnknown = false
  projections : a = .replace → ∀ p ∈ op.projections, p.IsObject ∧ p.Proper

private theorem Operation.Carries.plain {op : Operation} {a : Action} (h : op.Carries a) {k : Key}
    (hk : op.field.toKey = .ok k) : op.Plain k a where
  field := hk
  action := h.action
  projection ha := (h.projection ha).1
  projections ha p hp := (h.projections ha p hp).1

namespace Document

/-- What can become of the field `k` of a document: it stays, it goes, or it holds another list than before. -/
inductive Change (k : Key) (doc : Document) : Document → Bool → Prop
  | kept : Change k doc doc false
  | dropped (h : Assoc.contains k doc = true) : Change k doc (Assoc.erase k doc) true
  | set {items : List Value} (h : ((doc.lookup k).getD .null == .list items) = false) :
    Change k doc (Assoc.insert k (.list items) doc) true

section Change

variable {k : Key} {doc doc' : Document} {changed : Bool}

theorem Change.eq_of_unchanged (h : Change k doc doc' false) : doc' = doc := by
  cases h
  rfl

private theorem Change.erase_eq (h : Change k doc doc' changed) : Assoc.erase k doc' = Assoc.erase k doc := by
  cases h with
  | kept => rfl
  | dropped _ => exact Assoc.erase_erase k doc
  | set _ => exact Assoc.erase_insert k _ doc

theorem Change.lookup_of_ne (h : Change k doc doc' changed) {l : Key} (hl : (l == k) = false) :
    doc'.lookup l = doc.lookup l := by
  cases h with
  | kept => rfl
  | dropped _ => exact Assoc.lookup_erase_of_ne hl doc
  | set _ => exact Assoc.lookup_insert_of_ne hl _ doc

/-- A document that is reported as changed is not equal to what it was. -/
private theorem Change.beq_eq_false (h : Change k doc doc' true) :
    (Value.object doc == Value.object doc') = false := by
  rw [← Bool.not_eq_true, Value.object_beq_iff_agree]
  rintro ⟨hlength, hequal⟩
  cases h with
  | dropped h => exact absurd (Assoc.length_erase_lt h) (by omega)
  | @set items h =>
    cases hfound : doc.lookup k with
    | none =>
      have hnew := Assoc.length_insert_of_not_contains (a := Value.list items) (k := k) (m := doc)
        (by rw [Assoc.contains, hfound]; rfl)
      omega
    | some v =>
      obtain ⟨k', hk, hmem⟩ := Assoc.mem_of_lookup hfound
      obtain ⟨w, hw, hvw⟩ := hequal _ hmem
      rw [Assoc.lookup_eq_of_beq (BEq.symm hk), Assoc.lookup_insert_self] at hw
      obtain rfl := Option.some.inj hw
      rw [hfound, Option.getD_some, hvw] at h
      exact Bool.noConfusion h

/-- A document is reported as changed exactly if it is not equal to what it was. -/
private theorem Change.eq_false_iff (h : Change k doc doc' changed) (hdoc : (Value.object doc).Proper) :
    changed = false ↔ (Value.object doc == Value.object doc') = true := by
  cases changed with
  | true => simp [h.beq_eq_false]
  | false => simp [h.eq_of_unchanged, hdoc.beq_self]

end Change

/-! ### What each action can do -/

section Actions

variable {op : Operation} {k : Key} {doc doc' : Document} {changed : Bool}

/-- Adding either does nothing or puts the projection behind items none of which is about its entity. -/
private theorem upsert_cases (hp : op.projection.IsObject) (h : (upsert k op).outcome doc = (doc', .ok changed)) :
    (doc' = doc ∧ changed = false) ∨ ∃ items,
      ((doc.lookup k).getD .null == .list (items ++ [op.projection])) = false ∧
      holds op items = .ok false ∧ doc' = Assoc.insert k (.list (items ++ [op.projection])) doc ∧ changed = true := by
  obtain ⟨ms, hms⟩ := hp
  simp only [upsert, Session.outcome_bind, outcome_current, Session.continueWith_ok] at h
  generalize (doc.lookup k).getD .null = v at h ⊢
  cases v with
  | null =>
    simp only [hms, Value.toRecord_object, Session.outcome_bind, Session.outcome_lift, Session.continueWith_ok,
      outcome_put, Session.outcome_pure, Prod.mk.injEq, Except.ok.injEq] at h
    refine .inr ⟨[], ?_, rfl, by rw [hms]; exact h.1.symm, h.2.symm⟩
    exact Bool.eq_false_iff.2 fun heq => by cases Value.exists_of_beq_list heq with | intro _ h => cases h.1
  | list items =>
    obtain ⟨there, hthere, h⟩ := Session.exists_of_outcome_lift_bind h
    cases there with
    | true =>
      obtain ⟨rfl, hchanged⟩ := Prod.mk.inj h
      exact .inl ⟨rfl, (Except.ok.inj hchanged).symm⟩
    | false =>
      simp only [Bool.false_eq_true, if_false, hms, Value.toRecord_object, Session.outcome_bind, Session.outcome_lift,
        Session.continueWith_ok, outcome_put, Session.outcome_pure, Prod.mk.injEq, Except.ok.injEq] at h
      refine .inr ⟨items, ?_, hthere, by rw [hms]; exact h.1.symm, h.2.symm⟩
      refine Bool.eq_false_iff.2 fun heq => ?_
      have hlength := (Value.list_beq_iff.1 heq).length_eq
      simp at hlength
  | tuple items =>
    obtain ⟨there, -, h⟩ := Session.exists_of_outcome_lift_bind h
    cases there with
    | true =>
      obtain ⟨rfl, hchanged⟩ := Prod.mk.inj h
      exact .inl ⟨rfl, (Except.ok.inj hchanged).symm⟩
    | false => cases h
  | _ => cases h

/-- Taking away either does nothing, drops the field, or leaves a part of its items. -/
private theorem remove_cases (h : (remove k op).outcome doc = (doc', .ok changed)) :
    (doc' = doc ∧ changed = false) ∨
      (Assoc.contains k doc = true ∧ doc' = Assoc.erase k doc ∧ changed = true) ∨
      ∃ items kept, ((doc.lookup k).getD .null == .list kept) = false ∧ without op items = .ok kept ∧
        kept.isEmpty = false ∧ doc' = Assoc.insert k (.list kept) doc ∧ changed = true := by
  simp only [remove, Session.outcome_bind, outcome_current, Session.continueWith_ok] at h
  generalize hcurrent : (doc.lookup k).getD .null = v at h ⊢
  split at h
  · obtain ⟨rfl, hchanged⟩ := Prod.mk.inj h
    exact .inl ⟨rfl, (Except.ok.inj hchanged).symm⟩
  · next v hnull =>
    obtain ⟨items, hitems, h⟩ := Session.exists_of_outcome_lift_bind h
    obtain ⟨kept, hkept, h⟩ := Session.exists_of_outcome_lift_bind h
    cases hempty : kept.isEmpty with
    | true =>
      simp only [hempty, if_true, Session.outcome_bind, outcome_drop, Session.continueWith_ok, Session.outcome_pure,
        Prod.mk.injEq, Except.ok.injEq] at h
      refine .inr (.inl ⟨?_, h.1.symm, h.2.symm⟩)
      cases hfound : doc.lookup k with
      | none => exact absurd (by rw [← hcurrent, hfound]; rfl) hnull
      | some w => rw [Assoc.contains, hfound]; rfl
    | false =>
      by_cases hlength : kept.length = items.length
      · simp only [hempty, hlength, Bool.false_eq_true, if_false, if_true, Session.outcome_pure, Prod.mk.injEq,
          Except.ok.injEq] at h
        exact .inl ⟨h.1.symm, h.2.symm⟩
      · simp only [hempty, hlength, Bool.false_eq_true, if_false, Session.outcome_bind, outcome_put,
          Session.continueWith_ok, Session.outcome_pure, Prod.mk.injEq, Except.ok.injEq] at h
        refine .inr (.inr ⟨items, kept, Bool.eq_false_iff.2 fun heq => ?_, hkept, hempty, h.1.symm, h.2.symm⟩)
        obtain ⟨xs, rfl, hxs⟩ := Value.exists_of_beq_list heq
        obtain rfl := Except.ok.inj hitems
        exact hlength hxs.symm

private theorem change_of_upsert (hp : op.projection.IsObject) (h : (upsert k op).outcome doc = (doc', .ok changed)) :
    Change k doc doc' changed := by
  rcases upsert_cases hp h with ⟨rfl, rfl⟩ | ⟨items, hne, -, rfl, rfl⟩
  · exact .kept
  · exact .set hne

private theorem change_of_remove (h : (remove k op).outcome doc = (doc', .ok changed)) :
    Change k doc doc' changed := by
  rcases remove_cases h with ⟨rfl, rfl⟩ | ⟨hthere, rfl, rfl⟩ | ⟨items, kept, hne, -, -, rfl, rfl⟩
  · exact .kept
  · exact .dropped hthere
  · exact .set hne

theorem change_of_replace (hop : op.Plain k .replace) (h : (apply op).outcome doc = (doc', .ok changed)) :
    Change k doc doc' changed := by
  rw [outcome_replace hop] at h
  split at h
  · split at h
    · next hthere =>
      cases h
      exact .dropped hthere
    · cases h
      exact .kept
  · split at h
    · cases h
      exact .kept
    · next hne =>
      cases h
      exact .set (Bool.eq_false_iff.2 hne)

/-! ### A second turn -/

private theorem isSubject_projection (hp : op.projection.IsObject) (hproper : op.projection.Proper)
    (hs : op.projection.subject.isUnknown = false) : isSubject op op.projection = .ok true := by
  rw [isSubject_eq_ok hp hp, Value.equal, hs, hproper.subject.beq_self]
  rfl

private theorem holds_append {items items' : List Value} (h : holds op items = .ok false) :
    holds op (items ++ items') = holds op items' := by
  induction items with
  | nil => rfl
  | cons v items ih =>
    rw [holds] at h
    obtain ⟨about, habout, h⟩ := exists_of_bind_eq_ok h
    rw [List.cons_append, holds, habout, ok_bind]
    cases about with
    | true => cases h
    | false => exact ih h

theorem settled_upsert (hp : op.projection.IsObject) (hthere : isSubject op op.projection = .ok true)
    (h : (upsert k op).outcome doc = (doc', .ok changed)) : (upsert k op).outcome doc' = (doc', .ok false) := by
  rcases upsert_cases hp h with ⟨rfl, rfl⟩ | ⟨items, -, hitems, rfl, -⟩
  · exact h
  · have hholds : holds op (items ++ [op.projection]) = .ok true := by
      rw [holds_append hitems, holds, hthere]
      rfl
    simp only [upsert, Session.outcome_bind, outcome_current, Session.continueWith_ok, Assoc.lookup_insert_self,
      Option.getD_some, Session.outcome_lift, hholds, if_true, Session.outcome_pure]

/-- What is left after taking away is left when it is taken away again. -/
private theorem without_without {items kept : List Value} (h : without op items = .ok kept) :
    without op kept = .ok kept := by
  obtain ⟨q, hq, rfl⟩ := exists_of_filterM_eq_ok h
  have hagain : without op (items.filter q) = .ok ((items.filter q).filter q) :=
    filterM_eq_ok fun v hv => hq v (List.mem_filter.1 hv).1
  rwa [List.filter_filter, funext fun v => Bool.and_self (q v)] at hagain

theorem settled_remove (h : (remove k op).outcome doc = (doc', .ok changed)) :
    (remove k op).outcome doc' = (doc', .ok false) := by
  rcases remove_cases h with ⟨rfl, rfl⟩ | ⟨-, rfl, -⟩ | ⟨items, kept, -, hkept, hempty, rfl, -⟩
  · exact h
  · simp only [remove, Session.outcome_bind, outcome_current, Session.continueWith_ok, Assoc.lookup_erase_self,
      Option.getD_none, Session.outcome_pure]
  · simp only [remove, Session.outcome_bind, outcome_current, Session.continueWith_ok, Assoc.lookup_insert_self,
      Option.getD_some, Value.elements, Session.outcome_lift, without_without hkept, hempty, Bool.false_eq_true,
      if_false, if_true, Session.outcome_pure]

theorem settled_replace (hop : op.Plain k .replace) (hps : ∀ p ∈ op.projections, p.Proper)
    (h : (apply op).outcome doc = (doc', .ok changed)) : (apply op).outcome doc' = (doc', .ok false) := by
  have hself : (Value.list op.projections == Value.list op.projections) = true := (Value.Proper.list hps).beq_self
  rw [outcome_replace hop] at h ⊢
  split at h
  · next hnone =>
    rw [if_pos hnone]
    split at h
    · cases h
      rw [Assoc.contains, Assoc.lookup_erase_self]
      rfl
    · next hthere =>
      cases h
      rw [if_neg hthere]
  · next hsome =>
    rw [if_neg hsome]
    split at h
    · next heq =>
      cases h
      rw [if_pos heq]
    · cases h
      rw [Assoc.lookup_insert_self, Option.getD_some, if_pos hself]

/-- What an operation does is what its action does to its field. -/
private theorem outcome_apply_known {a : Action} (hk : op.field.toKey = .ok k) (ha : op.action = .known a)
    (doc : Document) :
    (apply op).outcome doc = (match a with
      | .upsert => upsert k op
      | .remove => remove k op
      | .replace => replace k op).outcome doc := by
  rw [apply, Session.outcome_bind, Session.outcome_lift, hk, Session.continueWith_ok, ha]
  cases a <;> rfl

variable {a : Action}

/-- An operation that goes well changes its field in one of the known ways, and does nothing in a second turn. -/
theorem change_of_apply (hop : op.Carries a) (h : (apply op).outcome doc = (doc', .ok changed)) :
    ∃ k, op.field.toKey = .ok k ∧ Change k doc doc' changed ∧ (apply op).outcome doc' = (doc', .ok false) := by
  obtain ⟨k, hk, -⟩ := Session.exists_of_outcome_lift_bind h
  refine ⟨k, hk, ?_⟩
  cases a with
  | upsert =>
    obtain ⟨hp, hproper⟩ := hop.projection (by simp)
    have hthere := isSubject_projection hp hproper (hop.subject (by simp))
    rw [outcome_apply_known hk hop.action] at h ⊢
    exact ⟨change_of_upsert hp h, settled_upsert hp hthere h⟩
  | remove =>
    rw [outcome_apply_known hk hop.action] at h ⊢
    exact ⟨change_of_remove h, settled_remove h⟩
  | replace =>
    have hplain := hop.plain hk
    exact ⟨change_of_replace hplain h, settled_replace hplain (fun p hp => (hop.projections rfl p hp).2) h⟩

/-- A replacement by the empty list leaves no field, and one by a list equal to the one that is there does nothing. -/
private theorem replaced_eq (hop : op.Plain k .replace) (h : (apply op).outcome doc = (doc', .ok changed)) :
    if op.projections = [] then doc'.lookup k = none
    else ∀ v, doc.lookup k = some v → (v == .list op.projections) = true → doc' = doc := by
  rw [outcome_replace hop] at h
  split
  · next hnone =>
    rw [hnone, List.isEmpty_nil, if_pos rfl] at h
    cases hfound : doc.lookup k with
    | none =>
      rw [Assoc.contains, hfound] at h
      cases h
      exact hfound
    | some v =>
      rw [Assoc.contains, hfound] at h
      cases h
      exact Assoc.lookup_erase_self k doc
  · next hsome =>
    intro v hv hequal
    rw [if_neg (by simpa using hsome), hv, Option.getD_some, if_pos hequal] at h
    cases h
    rfl

/-- An operation that goes well tells exactly whether the document is another one than it was, leaves all of the
document but its field as it is, and does nothing in a second turn.  A replacement by a list equal to the one that is
there does nothing either, unless it is the empty one: an empty list is never kept. -/
theorem apply_idempotent (hop : op.Carries a) (hdoc : (Value.object doc).Proper)
    (h : (apply op).outcome doc = (doc', .ok changed)) :
    (changed = false ↔ (Value.object doc == Value.object doc') = true) ∧ (changed = false → doc' = doc) ∧
    (∃ k, op.field.toKey = .ok k ∧ Assoc.erase k doc' = Assoc.erase k doc ∧
      (a = .replace → if op.projections = [] then doc'.lookup k = none
        else ∀ v, doc.lookup k = some v → (v == .list op.projections) = true → doc' = doc)) ∧
    (apply op).outcome doc' = (doc', .ok false) := by
  obtain ⟨k, hk, hchange, hsettled⟩ := change_of_apply hop h
  refine ⟨hchange.eq_false_iff hdoc, ?_, ⟨k, hk, hchange.erase_eq, ?_⟩, hsettled⟩
  · rintro rfl
    exact hchange.eq_of_unchanged
  · rintro rfl
    exact replaced_eq (hop.plain hk) h

end Actions

/-- A document that lists one sponsor twice and another one between. -/
def twiceSponsored : Document :=
  [("related_sponsors_company", .list [.object [("entity_id", .int 20)], .object [("entity_id", .int 21)],
    .object [("entity_id", .int 20), ("title", .string "Acme")]]), ("title", .string "Fair")]

/-- The operation that takes a sponsor from a document. -/
def withdrawSponsor : Operation where
  owner := .int 10
  field := .string "related_sponsors_company"
  action := .known .remove
  projection := .object [("entity_id", .int 20), ("title", .string "Acme")]

theorem apply_idempotent_withdrawSponsor : ∃ doc', (apply withdrawSponsor).outcome twiceSponsored = (doc', .ok true) ∧
    (Value.object twiceSponsored == Value.object doc') = false ∧
    (apply withdrawSponsor).outcome doc' = (doc', .ok false) := by
  have hproper : withdrawSponsor.projection.Proper :=
    .object (by simp [Assoc.Distinct, Assoc.keys]) (by simp [Value.Proper.int, Value.Proper.string])
  have hop : withdrawSponsor.Carries .remove :=
    ⟨rfl, fun _ => ⟨⟨_, rfl⟩, hproper⟩, fun _ => rfl, fun h => absurd h (by decide)⟩
  have hid : ∀ n : Int, (Value.object [("entity_id", .int n)]).Proper := fun n =>
    .object (List.pairwise_singleton _ _) (by simp [Value.Proper.int])
  have hitems : (Value.list [.object [("entity_id", .int 20)], .object [("entity_id", .int 21)],
      withdrawSponsor.projection]).Proper := .list (by simp [hid, hproper])
  have hdoc : (Value.object twiceSponsored).Proper :=
    .object (by simp [twiceSponsored, Assoc.Distinct, Assoc.keys])
      (List.forall_mem_cons.2 ⟨hitems, by simp [Value.Proper.string]⟩)
  have happly : (apply withdrawSponsor).outcome twiceSponsored = (([("related_sponsors_company",
      .list [.object [("entity_id", .int 21)]]), ("title", .string "Fair")] : Document), .ok true) := by
    rw [outcome_remove (hop.plain rfl) (.inr (.inr ⟨_, rfl, by simp [Value.IsObject]⟩))]
    simp [twiceSponsored, withdrawSponsor, itemsAt, Value.subject, Value.isNull, Assoc.insert]
  obtain ⟨hiff, -, -, hagain⟩ := apply_idempotent hop hdoc happly
  exact ⟨_, happly, Bool.eq_false_iff.2 fun hequal => Bool.noConfusion (hiff.2 hequal), hagain⟩

/-- A document whose list of sponsors is empty. -/
def unsponsored : Document := [("related_sponsors_company", .list [])]

/-- The replacement of the sponsors of a document by none. -/
def replaceSponsors : Operation where
  owner := .int 10
  field := .string "related_sponsors_company"
  action := .known .replace

/-- The empty list is equal to the one that is there, and yet the field goes. -/
theorem replaceSponsors_unsponsored : replaceSponsors.Carries .replace ∧ (Value.object unsponsored).Proper ∧
    unsponsored.lookup (.string "related_sponsors_company") = some (.list []) ∧
    (Value.list [] == .list replaceSponsors.projections) = true ∧
    (apply replaceSponsors).outcome unsponsored = ([], .ok true) := by
  refine ⟨⟨rfl, fun h => absurd rfl h, fun h => absurd rfl h, fun _ => List.forall_mem_nil _⟩, ?_, rfl,
    Value.list_beq_iff.2 .nil, rfl⟩
  exact .object (List.pairwise_singleton _ _) (by simp [unsponsored, Value.Proper.list])

end Document

end EdgeFields
