import EdgeFields.Proofs.Dispatch
import EdgeFields.Proofs.Idempotence

/-!
# Replacements

A replacement can be carried out on any document, and does nothing exactly if the field displays its list already
(`Document.outcome_eq_self_iff`).  After some replacements, which agree where they are for the same field, every one
of their fields displays its list, and the other fields are as they were (`displays_foldl_after`,
`lookup_foldl_after_of_ne`).  A batch of replacements does that to each document with the replacements that are for
it (`Operation.outcome_mapM_perform`), and nothing at all where they are idle
(`Operation.outcome_mapM_perform_idle`).
-/

namespace EdgeFields

/-- The key of the field that an operation is for; null if it is fit for none. -/
def Operation.key (op : Operation) : Key := op.field.key?.getD .null

/-- An operation that replaces the list of a field by other objects. -/
structure Operation.Replaces (op : Operation) : Prop where
  plain : op.Plain op.key .replace
  proper : ∀ v ∈ op.projections, v.Proper
  field : op.field.truthy = true

/-- Whether replacements agree where they are for the same field. -/
def Operation.Agreeing (ops : List Operation) : Prop :=
  ∀ op ∈ ops, ∀ op' ∈ ops, (op.key == op'.key) = true → op'.projections = op.projections

namespace Document

/-- Whether a field holds a list equal to this one, or is absent if this one is empty. -/
def Displays (doc : Document) (k : Key) (items : List Value) : Prop :=
  Option.Rel (fun v w => (v == w) = true) (doc.lookup k) (if items.isEmpty then none else some (.list items))

variable {op : Operation} {ops : List Operation} {k : Key} {doc : Document} {items : List Value}

private theorem displays_congr {l : Key} (h : (l == k) = true) : doc.Displays l items ↔ doc.Displays k items := by
  rw [Displays, Displays, Assoc.lookup_eq_of_beq h]

/-! ### One replacement -/

/-- A replacement does nothing exactly if the field displays its list. -/
theorem outcome_eq_self_iff (h : op.Plain k .replace) :
    (apply op).outcome doc = (doc, .ok false) ↔ doc.Displays k op.projections := by
  rw [outcome_replace h, Displays]
  have hnull : (Value.null == Value.list op.projections) = false :=
    Bool.eq_false_iff.2 fun h => by cases (Value.exists_of_beq_list h).choose_spec.1
  cases hempty : op.projections.isEmpty <;> cases hfound : doc.lookup k <;> simp [Assoc.contains, hfound, hnull]

private theorem outcome_replaced (doc : Document) (h : op.Replaces) :
    ∃ changed, (apply op).outcome doc = (doc.after op, .ok changed) := by
  rw [after_eq, outcome_replace h.plain]
  split
  · split <;> exact ⟨_, rfl⟩
  · split <;> exact ⟨_, rfl⟩

private theorem change_after (doc : Document) (h : op.Replaces) :
    ∃ changed, (apply op).outcome doc = (doc.after op, .ok changed) ∧ Change op.key doc (doc.after op) changed := by
  obtain ⟨changed, happly⟩ := outcome_replaced doc h
  exact ⟨changed, happly, change_of_replace h.plain happly⟩

/-- After a replacement its field displays its list. -/
private theorem displays_after (h : op.Replaces) : (doc.after op).Displays op.key op.projections := by
  obtain ⟨changed, happly⟩ := outcome_replaced doc h
  exact (outcome_eq_self_iff h.plain).1 (settled_replace h.plain h.proper happly)

private theorem lookup_after_replaced_of_ne (h : op.Replaces) (hk : (k == op.key) = false) :
    (doc.after op).lookup k = doc.lookup k := by
  obtain ⟨changed, -, hchange⟩ := change_after doc h
  exact hchange.lookup_of_ne hk

/-- What a field displays it displays after a replacement of another field, or by the same list. -/
private theorem Displays.after (hd : doc.Displays k items) (h : op.Replaces)
    (hsame : (k == op.key) = true → op.projections = items) : (doc.after op).Displays k items := by
  cases hk : k == op.key with
  | true =>
    rw [displays_congr hk, ← hsame hk]
    exact displays_after h
  | false =>
    rw [Displays, lookup_after_replaced_of_ne h hk]
    exact hd

/-! ### One replacement after another -/

theorem lookup_foldl_after_of_ne (h : ∀ op ∈ ops, op.Replaces) (hk : ∀ op ∈ ops, (k == op.key) = false) :
    (ops.foldl after doc).lookup k = doc.lookup k := by
  induction ops generalizing doc with
  | nil => rfl
  | cons op ops ih =>
    rw [List.forall_mem_cons] at h hk
    rw [List.foldl_cons, ih h.2 hk.2, lookup_after_replaced_of_ne h.1 hk.1]

private theorem Displays.foldl_after (hd : doc.Displays k items) (h : ∀ op ∈ ops, op.Replaces)
    (hsame : ∀ op ∈ ops, (k == op.key) = true → op.projections = items) :
    (ops.foldl Document.after doc).Displays k items := by
  induction ops generalizing doc with
  | nil => exact hd
  | cons op ops ih =>
    rw [List.forall_mem_cons] at h hsame
    exact ih (hd.after h.1 hsame.1) h.2 hsame.2

/-- After replacements that agree every one of their fields displays its list. -/
theorem displays_foldl_after (h : ∀ op ∈ ops, op.Replaces) (hsame : Operation.Agreeing ops) :
    ∀ op ∈ ops, (ops.foldl after doc).Displays op.key op.projections := by
  induction ops generalizing doc with
  | nil => exact List.forall_mem_nil _
  | cons op ops ih =>
    rw [List.forall_mem_cons] at h ⊢
    refine ⟨(displays_after h.1).foldl_after h.2 fun op' hop' => ?_, ih h.2 fun op₁ h₁ op₂ h₂ => ?_⟩
    · exact hsame op (List.mem_cons_self ..) op' (List.mem_cons_of_mem _ hop')
    · exact hsame op₁ (List.mem_cons_of_mem _ h₁) op₂ (List.mem_cons_of_mem _ h₂)

/-- Replacements can be carried out on any document, one after another. -/
theorem outcome_mapM_apply (doc : Document) (h : ∀ op ∈ ops, op.Replaces) :
    ∃ changes, (ops.mapM apply).outcome doc = (ops.foldl after doc, .ok changes) := by
  induction ops generalizing doc with
  | nil => exact ⟨[], rfl⟩
  | cons op ops ih =>
    rw [List.forall_mem_cons] at h
    obtain ⟨changed, happly⟩ := outcome_replaced doc h.1
    obtain ⟨changes, hrest⟩ := ih (doc.after op) h.2
    refine ⟨changed :: changes, ?_⟩
    simp only [List.mapM_cons, Session.outcome_bind, happly, Session.continueWith_ok, hrest, Session.outcome_pure,
      List.foldl_cons]

private theorem proper_after (hdoc : (Value.object doc).Proper) (h : op.Replaces) :
    (Value.object (doc.after op)).Proper := by
  obtain ⟨hkeys, hvalues⟩ := Value.proper_object_iff.1 hdoc
  rw [after_eq, outcome_replace h.plain]
  split
  · split
    · exact .object (Assoc.distinct_erase hkeys _) fun m hm => hvalues m (List.mem_filter.1 hm).1
    · exact hdoc
  · split
    · exact hdoc
    · exact .object (Assoc.distinct_insert hkeys _ _) (Assoc.forall_mem_insert hvalues (.list h.proper))

theorem proper_foldl_after (hdoc : (Value.object doc).Proper) (h : ∀ op ∈ ops, op.Replaces) :
    (Value.object (ops.foldl after doc)).Proper := by
  induction ops generalizing doc with
  | nil => exact hdoc
  | cons op ops ih =>
    rw [List.forall_mem_cons] at h
    exact ih (proper_after hdoc h.1) h.2

end Document

/-! ### A batch of replacements -/

namespace Operation

/-- The documents after some operations, each of them with those that are for it carried out in order. -/
def documentsAfter (ops : List Operation) (docs : Documents) : Documents := fun id =>
  (docs id).map fun doc => (ops.filter fun op => op.owner.toText = id).foldl Document.after doc

variable {docs : Documents} {ops : List Operation}

theorem documentsAfter_nil : documentsAfter [] docs = docs :=
  funext fun id => by simp [documentsAfter]

/-- A batch of replacements can always be carried out. -/
theorem outcome_mapM_perform (docs : Documents) (h : ∀ op ∈ ops, op.Replaces) :
    ∃ results, (ops.mapM perform).outcome docs = (documentsAfter ops docs, .ok results) := by
  induction ops generalizing docs with
  | nil => exact ⟨[], Prod.ext documentsAfter_nil.symm rfl⟩
  | cons op ops ih =>
    rw [List.forall_mem_cons] at h
    cases hid : docs op.owner.toText with
    | none =>
      obtain ⟨results, hrest⟩ := ih docs h.2
      refine ⟨.missing op :: results, ?_⟩
      simp only [List.mapM_cons, Session.outcome_bind, outcome_perform_missing hid, Session.continueWith_ok, hrest,
        Session.outcome_pure]
      refine Prod.ext (funext fun id => ?_) rfl
      by_cases howner : op.owner.toText = id
      · subst howner
        simp [documentsAfter, hid]
      · simp [documentsAfter, howner]
    | some doc =>
      obtain ⟨changed, happly⟩ := Document.outcome_replaced doc h.1
      obtain ⟨results, hrest⟩ := ih (Function.update docs op.owner.toText (some (doc.after op))) h.2
      refine ⟨.done op changed :: results, ?_⟩
      simp only [List.mapM_cons, Session.outcome_bind, outcome_perform hid happly, Session.continueWith_ok, hrest,
        Session.outcome_pure]
      refine Prod.ext (funext fun id => ?_) rfl
      by_cases howner : op.owner.toText = id
      · subst howner
        simp [documentsAfter, hid]
      · simp [documentsAfter, howner, Function.update_of_ne (Ne.symm howner)]

/-- After a batch of replacements that agree on each document every one of their fields displays its list. -/
theorem displays_documentsAfter (docs : Documents) (h : ∀ op ∈ ops, op.Replaces)
    (hsame : ∀ id, Agreeing (ops.filter fun op => op.owner.toText = id)) :
    ∀ op ∈ ops, ∀ doc, documentsAfter ops docs op.owner.toText = some doc → doc.Displays op.key op.projections := by
  intro op hop doc hdoc
  obtain ⟨doc₀, -, rfl⟩ := Option.map_eq_some_iff.1 hdoc
  exact Document.displays_foldl_after (fun op' hop' => h op' (List.mem_filter.1 hop').1) (hsame _) op
    (List.mem_filter.2 ⟨hop, decide_eq_true rfl⟩)

/-- Replacements whose fields display their lists do nothing, and tell so. -/
theorem outcome_mapM_perform_idle (h : ∀ op ∈ ops, op.Replaces)
    (hd : ∀ op ∈ ops, ∀ doc, docs op.owner.toText = some doc → doc.Displays op.key op.projections) :
    (ops.mapM perform).outcome docs =
      (docs, .ok (ops.map fun op => if (docs op.owner.toText).isSome then .done op false else .missing op)) := by
  induction ops with
  | nil => rfl
  | cons op ops ih =>
    rw [List.forall_mem_cons] at h hd
    have hop : op.perform.outcome docs =
        (docs, .ok (if (docs op.owner.toText).isSome then .done op false else .missing op)) := by
      cases hid : docs op.owner.toText with
      | none => exact outcome_perform_missing hid
      | some doc =>
        rw [outcome_perform hid ((Document.outcome_eq_self_iff h.1.plain).2 (hd.1 doc hid)), ← hid,
          Function.update_eq_self, hid]
        rfl
    simp only [List.mapM_cons, Session.outcome_bind, hop, Session.continueWith_ok, ih h.2 hd.2, Session.outcome_pure,
      List.map_cons]

end Operation

namespace Batch

variable {b : Batch} {docs : Documents} {ix : MemoryIndex} {ops : List Operation}

/-- The index reads a replacement from its lines, whatever the field of the document holds. -/
private theorem faithful_replaces : Faithful fun _ op a => op.Replaces ∧ a = .replace where
  read {docs op a} h := by
    obtain ⟨h, rfl⟩ := h
    refine ⟨_, _, body_replace h.plain, decode_replace (Script.action?_source _) _, fun doc _ => ?_⟩
    obtain ⟨changed, happly, hchange⟩ := Document.change_after doc h
    refine ⟨changed, happly, fun hkept => (hkept ▸ hchange).eq_of_unchanged, ?_⟩
    rw [Document.outcome_replace h.plain]
    exact Document.outcome_replace ⟨h.plain.field, rfl, fun hne => absurd rfl hne, h.plain.projections⟩
  frame _ _ h' := h'

private theorem check_replaces {op : Operation} (h : op.Replaces) (position : Nat) :
    check position (.operation op) = .ok (op, .replace) := by
  simp [check, h.plain.action, namesEntity, h.field]

private theorem validateFrom_replaces (h : ∀ op ∈ ops, op.Replaces) (position : Nat) :
    validateFrom position (ops.map .operation) = .ok (ops.map fun op => (op, .replace)) := by
  induction ops generalizing position with
  | nil => rfl
  | cons op ops ih =>
    rw [List.forall_mem_cons] at h
    rw [List.map_cons, validateFrom, check_replaces h.1, ok_bind, ih h.2]
    rfl

/-- A batch of replacements is carried out on the documents of an index, one after another. -/
theorem outcome_dispatch_replaces (hplan : ix.plan = none) (hix : ix.Stores docs) (h : ∀ op ∈ ops, op.Replaces) :
    ∃ results ix' took,
      (ops.mapM Operation.perform).outcome docs = (Operation.documentsAfter ops docs, .ok results) ∧
      (b.dispatch MemoryIndex.client (ops.map .operation)).outcome ix = (ix', .ok ⟨results, took⟩) ∧
      ix'.Stores (Operation.documentsAfter ops docs) ∧ ix'.plan = none := by
  obtain ⟨results, docs', ix', took, hrun, hdispatch, hix', hplan', -⟩ :=
    faithful_replaces.outcome_dispatch (b := b) hplan hix (validateFrom_replaces h 0) fun r hr => by
      obtain ⟨op, hop, rfl⟩ := List.mem_map.1 hr
      exact ⟨h op hop, rfl⟩
  rw [List.map_map, Function.comp_def, List.map_id'] at hrun
  obtain ⟨results', hafter⟩ := Operation.outcome_mapM_perform docs h
  rw [hafter] at hrun
  obtain ⟨rfl, hresults⟩ := Prod.mk.inj hrun
  obtain rfl := Except.ok.inj hresults
  exact ⟨results', ix', took, hafter, hdispatch, hix', hplan'⟩

end Batch

end EdgeFields
