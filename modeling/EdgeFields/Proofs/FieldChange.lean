import EdgeFields.Document
import EdgeFields.Proofs.Outcome
import EdgeFields.Proofs.Texts

/-!
# What an operation does to a document

The exact outcome of each action on a field that is absent, null or a list of objects (`outcome_upsert`,
`outcome_remove`, `outcome_replace`).  In every case an operation touches its own field only, and a document that it
does not report as changed stays as it is.
-/

namespace EdgeFields

/-! ### Objects and their subjects -/

namespace Value

/-- Whether a value is an object. -/
def IsObject (v : Value) : Prop := ∃ ms, v = object ms

/-- The entity that an item of a field is about, by its number; null if it names none. -/
def subject : Value → Value
  | object ms => (ms.lookup (Key.string "entity_id")).getD null
  | _ => null

private theorem IsObject.member_eq {v : Value} (hv : v.IsObject) :
    v.member (Key.string "entity_id") = .ok v.subject := by
  obtain ⟨ms, rfl⟩ := hv
  rfl

end Value

/-- An operation of a known action whose field is fit for a key and whose projections are objects. -/
structure Operation.Plain (op : Operation) (k : Key) (a : Action) : Prop where
  field : op.field.toKey = .ok k
  action : op.action = .known a
  projection : a ≠ .replace → op.projection.IsObject
  projections : a = .replace → ∀ p ∈ op.projections, p.IsObject

namespace Document

/-- What a field holds as a list: nothing unless it holds one. -/
def itemsAt (doc : Document) (k : Key) : List Value :=
  match doc.lookup k with
  | some (.list items) => items
  | _ => []

/-- A field that is absent, null or a list of objects. -/
def PlainField (doc : Document) (k : Key) : Prop :=
  doc.lookup k = none ∨ doc.lookup k = some .null ∨
    ∃ items, doc.lookup k = some (.list items) ∧ ∀ v ∈ items, v.IsObject

private theorem PlainField.objects {doc : Document} {k : Key} (h : doc.PlainField k) :
    ∀ v ∈ doc.itemsAt k, v.IsObject := by
  rcases h with h | h | ⟨items, h, hi⟩
  · simp [itemsAt, h]
  · simp [itemsAt, h]
  · simpa [itemsAt, h] using hi

@[simp] theorem outcome_current (k : Key) (doc : Document) :
    (current k).outcome doc = (doc, .ok ((doc.lookup k).getD .null)) := by
  simp [current]

@[simp] theorem outcome_put (k : Key) (items : List Value) (doc : Document) :
    (put k items).outcome doc = (Assoc.insert k (.list items) doc, .ok ()) := rfl

@[simp] theorem outcome_drop (k : Key) (doc : Document) : (drop k).outcome doc = (Assoc.erase k doc, .ok ()) := rfl

theorem after_eq (doc : Document) (op : Operation) : after doc op = ((apply op).outcome doc).1 := rfl

/-! ### Looking through the items -/

section Items

variable {op : Operation} (hp : op.projection.IsObject)
include hp

theorem entityId_eq_ok : op.entityId = .ok op.projection.subject := by
  obtain ⟨ms, hp⟩ := hp
  rw [Operation.entityId, hp]
  rfl

theorem isSubject_eq_ok {v : Value} (hv : v.IsObject) :
    isSubject op v = .ok (v.subject.equal op.projection.subject) := by
  rw [isSubject, hv.member_eq, entityId_eq_ok hp]
  rfl

private theorem holds_eq_ok {items : List Value} (hi : ∀ v ∈ items, v.IsObject) :
    holds op items = .ok (items.any fun v => v.subject.equal op.projection.subject) := by
  induction items with
  | nil => rfl
  | cons v items ih =>
    rw [holds, isSubject_eq_ok hp (hi v (List.mem_cons_self ..)), ok_bind,
      ih fun w hw => hi w (List.mem_cons_of_mem _ hw), List.any_cons]
    cases v.subject.equal op.projection.subject <;> rfl

private theorem without_eq_ok {items : List Value} (hi : ∀ v ∈ items, v.IsObject) :
    without op items = .ok (items.filter fun v => !v.subject.equal op.projection.subject) := by
  apply filterM_eq_ok
  intro v hv
  rw [isSubject_eq_ok hp (hi v hv)]
  rfl

end Items

theorem values_eq_ok {op : Operation} (h : ∀ v ∈ op.projections, v.IsObject) : op.values = .ok op.projections := by
  have hmap : op.projections.mapM (fun v => do return Value.object (← v.toRecord)) = .ok (op.projections.map id) := by
    apply mapM_eq_ok
    intro v hv
    obtain ⟨ms, rfl⟩ := h v hv
    rfl
  rw [Operation.values, hmap, List.map_id]

/-! ### The three actions -/

section Actions

variable {op : Operation} {k : Key} {doc : Document}

/-- Adding: nothing changes if an item of the same entity is there, and the projection goes last otherwise. -/
theorem outcome_upsert (h : op.Plain k .upsert) (hf : doc.PlainField k) :
    (apply op).outcome doc =
      if (doc.itemsAt k).any fun v => v.subject.equal op.projection.subject then (doc, .ok false)
      else (Assoc.insert k (.list (doc.itemsAt k ++ [op.projection])) doc, .ok true) := by
  have hp := h.projection (by simp)
  have hobj := hf.objects
  obtain ⟨ms, hms⟩ := id hp
  simp only [apply, Session.outcome_bind, Session.outcome_lift, h.field, Session.continueWith_ok, h.action, upsert,
    outcome_current]
  rcases hf with hf | hf | ⟨items, hf, hi⟩
  · simp [hf, itemsAt, hms]
  · simp [hf, itemsAt, hms]
  · have hitems : doc.itemsAt k = items := by simp [itemsAt, hf]
    simp only [hf, Option.getD_some, hitems, Session.outcome_bind, Session.outcome_lift, holds_eq_ok hp hi,
      Session.continueWith_ok]
    split
    · rfl
    · simp [hms]

/-- Taking away: the items of the entity go, and the field with the last item. -/
theorem outcome_remove (h : op.Plain k .remove) (hf : doc.PlainField k) :
    (apply op).outcome doc =
      if ((doc.lookup k).getD .null).isNull then (doc, .ok false)
      else if ((doc.itemsAt k).filter fun v => !v.subject.equal op.projection.subject).isEmpty then
        (Assoc.erase k doc, .ok true)
      else if ((doc.itemsAt k).filter fun v => !v.subject.equal op.projection.subject).length =
          (doc.itemsAt k).length then (doc, .ok false)
      else (Assoc.insert k (.list ((doc.itemsAt k).filter fun v => !v.subject.equal op.projection.subject)) doc,
        .ok true) := by
  have hp := h.projection (by simp)
  simp only [apply, Session.outcome_bind, Session.outcome_lift, h.field, Session.continueWith_ok, h.action, remove,
    outcome_current]
  rcases hf with hf | hf | ⟨items, hf, hi⟩
  · simp [hf, Value.isNull]
  · simp [hf, Value.isNull]
  · have hitems : doc.itemsAt k = items := by simp [itemsAt, hf]
    simp only [hf, Option.getD_some, hitems, Value.elements, Session.outcome_bind, Session.outcome_lift,
      without_eq_ok hp hi, Session.continueWith_ok, Value.isNull, Bool.false_eq_true, if_false]
    split
    · simp
    · split <;> simp

/-- Replacing: the field becomes the list of projections, and goes for an empty one. -/
theorem outcome_replace (h : op.Plain k .replace) :
    (apply op).outcome doc =
      if op.projections.isEmpty then
        if Assoc.contains k doc then (Assoc.erase k doc, .ok true) else (doc, .ok false)
      else if (doc.lookup k).getD .null == .list op.projections then (doc, .ok false)
      else (Assoc.insert k (.list op.projections) doc, .ok true) := by
  simp only [apply, Session.outcome_bind, Session.outcome_lift, h.field, Session.continueWith_ok, h.action, replace]
  split
  · simp only [Session.outcome_bind, Session.outcome_get, Session.continueWith_ok]
    split <;> simp
  · simp only [Session.outcome_bind, Session.outcome_lift, values_eq_ok (h.projections rfl),
      Session.continueWith_ok, outcome_current]
    split <;> simp

variable {a : Action}

/-- All that an operation can do: nothing, drop its field, or set it to a list of objects. -/
private theorem apply_cases (h : op.Plain k a) (hf : doc.PlainField k) :
    (apply op).outcome doc = (doc, .ok false) ∨ (apply op).outcome doc = (Assoc.erase k doc, .ok true) ∨
      ∃ items, (∀ v ∈ items, v.IsObject) ∧ (apply op).outcome doc = (Assoc.insert k (.list items) doc, .ok true) := by
  cases a with
  | upsert =>
    rw [outcome_upsert h hf]
    split
    · exact .inl rfl
    · refine .inr (.inr ⟨_, fun v hv => ?_, rfl⟩)
      rcases List.mem_append.1 hv with hv | hv
      · exact hf.objects v hv
      · rw [List.mem_singleton.1 hv]
        exact h.projection (by simp)
  | remove =>
    rw [outcome_remove h hf]
    split
    · exact .inl rfl
    · split
      · exact .inr (.inl rfl)
      · split
        · exact .inl rfl
        · exact .inr (.inr ⟨_, fun v hv => hf.objects v (List.mem_filter.1 hv).1, rfl⟩)
  | replace =>
    rw [outcome_replace h]
    split
    · split
      · exact .inr (.inl rfl)
      · exact .inl rfl
    · split
      · exact .inl rfl
      · exact .inr (.inr ⟨_, h.projections rfl, rfl⟩)

/-- An operation never fails, and a document that it does not report as changed stays as it is. -/
theorem outcome_apply (h : op.Plain k a) (hf : doc.PlainField k) :
    ∃ changed, (apply op).outcome doc = (after doc op, .ok changed) ∧ (changed = false → after doc op = doc) := by
  rw [after_eq]
  rcases apply_cases h hf with he | he | ⟨items, -, he⟩
  · exact ⟨false, by simp [he], fun _ => by rw [he]⟩
  · exact ⟨true, by simp [he], by simp⟩
  · exact ⟨true, by simp [he], by simp⟩

/-- An operation touches no other field. -/
theorem lookup_after_of_ne (h : op.Plain k a) (hf : doc.PlainField k) {l : Key} (hl : (l == k) = false) :
    (after doc op).lookup l = doc.lookup l := by
  rw [after_eq]
  rcases apply_cases h hf with he | he | ⟨items, -, he⟩
  · rw [he]
  · rw [he, Assoc.lookup_erase_of_ne hl]
  · rw [he, Assoc.lookup_insert_of_ne hl]

private theorem plainField_after (h : op.Plain k a) (hf : doc.PlainField k) : (after doc op).PlainField k := by
  rw [after_eq]
  rcases apply_cases h hf with he | he | ⟨items, hi, he⟩
  · rwa [he]
  · exact .inl (by rw [he, Assoc.lookup_erase_self])
  · exact .inr (.inr ⟨items, by rw [he, Assoc.lookup_insert_self], hi⟩)

theorem PlainField.after {l : Key} (hl : doc.PlainField l) (h : op.Plain k a) (hf : doc.PlainField k) :
    (after doc op).PlainField l := by
  cases hlk : l == k with
  | false =>
    rw [PlainField, lookup_after_of_ne h hf hlk]
    exact hl
  | true =>
    rw [PlainField, Assoc.lookup_eq_of_beq hlk]
    exact plainField_after h hf

/-- What an operation does depends on its field, its action and what it adds, takes away or puts there. -/
theorem outcome_apply_congr {op' : Operation} (h : op.Plain k a) (h' : op'.Plain k a)
    (hp : a ≠ .replace → op'.projection = op.projection) (hps : a = .replace → op'.projections = op.projections)
    (hf : doc.PlainField k) : (apply op').outcome doc = (apply op).outcome doc := by
  cases a with
  | upsert => rw [outcome_upsert h hf, outcome_upsert h' hf, hp (by simp)]
  | remove => rw [outcome_remove h hf, outcome_remove h' hf, hp (by simp)]
  | replace => rw [outcome_replace h, outcome_replace h', hps rfl]

/-! ### Fields that are never empty -/

/-- The field holds these items, and is absent when there are none. -/
def Keeps (doc : Document) (k : Key) (items : List Value) : Prop :=
  doc.lookup k = if items.isEmpty then none else some (.list items)

variable {items : List Value}

theorem Keeps.itemsAt_eq (hk : doc.Keeps k items) : doc.itemsAt k = items := by
  rw [itemsAt, hk]
  cases items <;> rfl

theorem Keeps.plainField (hk : doc.Keeps k items) (hi : ∀ v ∈ items, v.IsObject) : doc.PlainField k := by
  cases items with
  | nil => exact .inl hk
  | cons v items => exact .inr (.inr ⟨_, hk, hi⟩)

theorem keeps_upsert (h : op.Plain k .upsert) (hk : doc.Keeps k items) (hi : ∀ v ∈ items, v.IsObject) :
    (after doc op).Keeps k
      (if items.any fun v => v.subject.equal op.projection.subject then items else items ++ [op.projection]) := by
  rw [after_eq, outcome_upsert h (hk.plainField hi), hk.itemsAt_eq]
  split
  · exact hk
  · simp [Keeps]

theorem keeps_remove (h : op.Plain k .remove) (hk : doc.Keeps k items) (hi : ∀ v ∈ items, v.IsObject) :
    (after doc op).Keeps k (items.filter fun v => !v.subject.equal op.projection.subject) := by
  rw [after_eq, outcome_remove h (hk.plainField hi), hk.itemsAt_eq]
  cases items with
  | nil =>
    have habsent : doc.lookup k = none := hk
    simp [habsent, Keeps, Value.isNull]
  | cons v items =>
    have hnull : ((doc.lookup k).getD .null).isNull = false := by rw [hk]; rfl
    generalize hkept : (v :: items).filter (fun v => !v.subject.equal op.projection.subject) = kept
    rw [hnull, if_neg (by simp)]
    split
    · next he => simp [Keeps, he]
    · next he =>
      split
      · next hlen =>
        -- Nothing was about the entity, so the field is left as it is.
        have hsame : kept = v :: items := by
          rw [← hkept]
          exact List.filter_sublist.eq_of_length (by rw [hkept, hlen])
        rw [hsame]
        exact hk
      · simp [Keeps, he]

end Actions

end Document

end EdgeFields
