import EdgeFields.Index.Memory
import EdgeFields.Proofs.FieldChange
import Mathlib.Logic.Function.Basic

/-!
# Dispatch

A batch that is sent as one bulk request does to the documents of an index what its operations do to them one after
another, and tells of each what became of it; a batch with an item that cannot be sent does nothing at all
(`Batch.dispatch_refines`).

On the way to the index an operation becomes two lines, a header with the id of a document and a body with a script
and its parameters.  Nothing that matters is lost by that (`Batch.exists_decode`), so that one pair of lines is one
operation on the document of its owner (`Batch.Faithful.update`); a whole request follows by induction on its
operations.
-/

namespace EdgeFields

/-! ### One operation after another -/

/-- The documents of an index, by their ids. -/
abbrev Documents := String → Option Document

namespace ItemResult

/-- The outcome of an operation on a document that is not there. -/
def missing (op : Operation) : ItemResult :=
  ⟨op, 404, .null, .object [("type", .string "document_missing_exception")]⟩

/-- The outcome of an operation that was carried out. -/
def done (op : Operation) (changed : Bool) : ItemResult :=
  ⟨op, 200, .string (if changed then "updated" else "noop"), .null⟩

end ItemResult

namespace Operation

/-- Carries out an operation on the document of its owner and tells what became of it. -/
def perform (op : Operation) : Session Documents ItemResult := fun docs =>
  match docs op.owner.toText with
  | none => (docs, pure (.missing op))
  | some doc =>
    let (doc, changed) := (Document.apply op).run doc
    (Function.update docs op.owner.toText (some doc), .done op <$> changed)

/-- An operation whose projections are objects, if it has any, and whose field is absent, null or a list of objects in
the document of its owner. -/
structure Readable (docs : Documents) (op : Operation) : Prop where
  projection : op.projection = .null ∨ op.projection.IsObject
  projections : ∀ v ∈ op.projections, v.IsObject
  field : op.field.truthy = true →
    ∃ k, op.field.toKey = .ok k ∧ ∀ doc, docs op.owner.toText = some doc → doc.PlainField k

end Operation

/-- Whether an item cannot be sent: it is no operation, it asks for no known action, it is to add or take away an
entity and names none, or it is for no field. -/
def BatchItem.Flawed : BatchItem → Prop
  | .other _ => True
  | .operation op =>
    (∀ a, op.action ≠ .known a) ∨
      ((op.action = .known .upsert ∨ op.action = .known .remove) ∧ op.projection.subject = .null) ∨
      op.field.truthy = false

/-- An operation that can be sent, and carried out on documents. -/
structure Operation.Ready (docs : Documents) (op : Operation) (a : Action) : Prop where
  plain : ∃ k, op.Plain k a ∧ ∀ doc, docs op.owner.toText = some doc → doc.PlainField k
  subject : a ≠ .replace → op.projection.subject ≠ .null
  field : op.field.truthy = true

section Items

variable {docs : Documents} {op : Operation} {a : Action}

theorem Operation.outcome_perform_missing (h : docs op.owner.toText = none) :
    op.perform.outcome docs = (docs, .ok (.missing op)) := by
  rw [Session.outcome, perform, h]
  rfl

theorem Operation.outcome_perform {doc doc' : Document} {changed : Bool} (h : docs op.owner.toText = some doc)
    (happly : (Document.apply op).outcome doc = (doc', .ok changed)) :
    op.perform.outcome docs = (Function.update docs op.owner.toText (some doc'), .ok (.done op changed)) := by
  obtain ⟨hdoc, hchanged⟩ := Prod.mk.inj happly
  rw [Session.outcome, perform, h]
  refine Prod.ext ?_ ?_
  · exact congrArg (fun doc => Function.update docs op.owner.toText (some doc)) hdoc
  · change (ItemResult.done op <$> ((Document.apply op).run doc).2).result = _
    rw [Report.result_map]
    exact congrArg (ItemResult.done op <$> ·) hchanged

theorem BatchItem.exists_action_of_not_flawed (h : ¬ (BatchItem.operation op).Flawed) :
    ∃ a, op.action = .known a ∧ (a ≠ .replace → op.projection.subject ≠ .null) ∧ op.field.truthy = true := by
  rw [BatchItem.Flawed, not_or, not_or] at h
  obtain ⟨haction, hsubject, hfield⟩ := h
  obtain ⟨a, ha⟩ : ∃ a, op.action = .known a := by
    by_contra hnone
    exact haction fun a ha => hnone ⟨a, ha⟩
  refine ⟨a, ha, fun hne hnull => hsubject ⟨?_, hnull⟩, by simpa using hfield⟩
  cases a with
  | upsert => exact .inl ha
  | remove => exact .inr ha
  | replace => contradiction

private theorem Operation.Readable.ready (h : op.Readable docs) (hf : ¬ (BatchItem.operation op).Flawed) :
    ∃ a, op.action = .known a ∧ op.Ready docs a := by
  obtain ⟨a, ha, hnamed, hfield⟩ := BatchItem.exists_action_of_not_flawed hf
  obtain ⟨k, hk, hdocs⟩ := h.field hfield
  have hplain : op.Plain k a := by
    refine ⟨hk, ha, fun hne => h.projection.resolve_left fun hnull => ?_, fun _ => h.projections⟩
    rw [hnull] at hnamed
    exact hnamed hne rfl
  exact ⟨a, ha, ⟨k, hplain, hdocs⟩, hnamed, hfield⟩

/-- What one operation does leaves any other operation ready. -/
private theorem Operation.Ready.frame {op' : Operation} {a' : Action} (h : op'.Ready docs a') {k : Key}
    (hop : op.Plain k a) {doc : Document} (hdoc : docs op.owner.toText = some doc) (hk : doc.PlainField k) :
    op'.Ready (Function.update docs op.owner.toText (some (doc.after op))) a' := by
  obtain ⟨k', hplain, hdocs⟩ := h.plain
  refine ⟨⟨k', hplain, fun doc' hdoc' => ?_⟩, h.subject, h.field⟩
  by_cases hid : op'.owner.toText = op.owner.toText
  · rw [hid, Function.update_self] at hdoc'
    rw [hid] at hdocs
    obtain rfl := Option.some.inj hdoc'
    exact (hdocs doc hdoc).after hop hk
  · rw [Function.update_of_ne hid] at hdoc'
    exact hdocs doc' hdoc'

end Items

/-! ### Checking a batch -/

namespace Batch

variable {docs : Documents} {op : Operation} {a : Action}

private theorem namesEntity_eq_ok (h : op.projection = .null ∨ op.projection.IsObject) :
    namesEntity op a = .ok (a = .replace || !op.projection.subject.isNull) := by
  have hid : op.entityId = .ok op.projection.subject := by
    rcases h with hnull | hobj
    · rw [Operation.entityId, hnull]
      rfl
    · exact Document.entityId_eq_ok hobj
  cases a <;> simp [namesEntity, hid]

theorem check_eq_ok (ha : op.action = .known a) (hp : a ≠ .replace → op.projection.IsObject)
    (hs : a ≠ .replace → op.projection.subject ≠ .null) (hf : op.field.truthy = true) (position : Nat) :
    check position (.operation op) = .ok (op, a) := by
  have hnames : namesEntity op a = .ok true := by
    by_cases hreplace : a = .replace
    · rw [hreplace]
      rfl
    · rw [namesEntity_eq_ok (.inr (hp hreplace))]
      have hnull : op.projection.subject.isNull = false := by
        cases hsubject : op.projection.subject with
        | null => exact absurd hsubject (hs hreplace)
        | _ => rfl
      simp [hnull]
  simp [check, ha, hnames, hf]

private theorem check_ready (h : op.Ready docs a) (position : Nat) :
    check position (.operation op) = .ok (op, a) := by
  obtain ⟨k, hplain, -⟩ := h.plain
  exact check_eq_ok hplain.action hplain.projection h.subject h.field position

private theorem check_flawed {item : BatchItem} (h : item.Flawed) (hr : ∀ op, item = .operation op → op.Readable docs)
    (position : Nat) : ∃ flaw, check position item = .error (.invalidItem position flaw) := by
  cases item with
  | other v => exact ⟨_, rfl⟩
  | operation op =>
    have hnames : ∀ a, namesEntity op a = .ok (a = .replace || !op.projection.subject.isNull) :=
      fun _ => namesEntity_eq_ok (hr op rfl).projection
    rw [check]
    cases haction : op.action with
    | other v => exact ⟨_, rfl⟩
    | known a =>
      rcases h with h | ⟨h, hnull⟩ | h
      · exact absurd haction (h a)
      · have ha : a ≠ .replace := by
          rw [haction] at h
          rintro rfl
          simp at h
        refine ⟨.noEntityId a.word, ?_⟩
        simp [hnames, ha, hnull, Value.isNull]
      · cases hnamed : (a = .replace || !op.projection.subject.isNull : Bool) with
        | false => exact ⟨.noEntityId a.word, by simp [hnames, hnamed]⟩
        | true => exact ⟨.emptyField, by simp [hnames, hnamed, h]⟩

/-- The first item that cannot be sent is named by its position. -/
private theorem validateFrom_flawed {before after : List BatchItem} {item : BatchItem}
    (hr : ∀ op, .operation op ∈ before ++ item :: after → op.Readable docs) (hbefore : ∀ x ∈ before, ¬ x.Flawed)
    (h : item.Flawed) (position : Nat) : ∃ flaw,
      validateFrom position (before ++ item :: after) = .error (.invalidItem (position + before.length) flaw) := by
  induction before generalizing position with
  | nil =>
    obtain ⟨flaw, hcheck⟩ := check_flawed h (fun op hop => hr op (hop ▸ List.mem_cons_self ..)) position
    refine ⟨flaw, ?_⟩
    rw [List.nil_append, validateFrom, hcheck]
    rfl
  | cons x before ih =>
    obtain ⟨flaw, hrest⟩ := ih (fun op hop => hr op (List.mem_cons_of_mem _ hop))
      (fun y hy => hbefore y (List.mem_cons_of_mem _ hy)) (position + 1)
    have hx := hbefore x (List.mem_cons_self ..)
    cases x with
    | other v => exact absurd trivial hx
    | operation op =>
      obtain ⟨a, -, hready⟩ := (hr op (List.mem_cons_self ..)).ready hx
      refine ⟨flaw, ?_⟩
      rw [List.cons_append, validateFrom, check_ready hready, ok_bind, hrest, List.length_cons, Nat.add_right_comm,
        Nat.add_assoc]
      rfl

/-- A batch is checked if each of its items is, and the operations are those of its items. -/
theorem validateFrom_eq_ok {items : List BatchItem} {P : Operation → Action → Prop}
    (h : ∀ x ∈ items, ∃ op a, x = .operation op ∧ P op a ∧ ∀ position, check position x = .ok (op, a))
    (position : Nat) : ∃ ops : List (Operation × Action),
      validateFrom position items = .ok ops ∧ items = ops.map (BatchItem.operation ·.1) ∧ ∀ r ∈ ops, P r.1 r.2 := by
  induction items generalizing position with
  | nil => exact ⟨[], rfl, rfl, List.forall_mem_nil _⟩
  | cons x items ih =>
    obtain ⟨ops, hops, rfl, hP⟩ := ih (fun y hy => h y (List.mem_cons_of_mem _ hy)) (position + 1)
    obtain ⟨op, a, rfl, hop, hcheck⟩ := h x (List.mem_cons_self ..)
    refine ⟨(op, a) :: ops, ?_, rfl, List.forall_mem_cons.2 ⟨hop, hP⟩⟩
    rw [validateFrom, hcheck, ok_bind, hops]
    rfl

private theorem validateFrom_ready {items : List BatchItem} (hr : ∀ op, .operation op ∈ items → op.Readable docs)
    (h : ∀ x ∈ items, ¬ x.Flawed) (position : Nat) : ∃ ops : List (Operation × Action),
      validateFrom position items = .ok ops ∧ items = ops.map (BatchItem.operation ·.1) ∧
        ∀ r ∈ ops, r.1.Ready docs r.2 := by
  refine validateFrom_eq_ok (fun x hx => ?_) position
  cases x with
  | other v => exact absurd trivial (h _ hx)
  | operation op =>
    obtain ⟨a, -, hready⟩ := (hr op hx).ready (h _ hx)
    exact ⟨op, a, rfl, hready, check_ready hready⟩

end Batch

/-! ### The lines of an operation -/

theorem Script.action?_source (a : Action) : action? (source a) = some a := by
  have hremove : (upsert == remove) = false := by decide
  have hreplace : (upsert == replace) = false := by decide
  have hreplace' : (remove == replace) = false := by decide
  cases a <;> simp [action?, source, hremove, hreplace, hreplace']

namespace Batch

variable {b : Batch} {op : Operation} {a : Action} {k : Key}

private theorem headerId_header : MemoryIndex.headerId (b.header op) = .ok (.string op.owner.toText) := by
  simp [MemoryIndex.headerId, header, MemoryIndex.required, List.lookup_cons]

/-- A body line with a script and its parameters. -/
def scriptLine (source : String) (params : Record) : Value :=
  .object [("script", .object [("source", .string source), ("lang", .string "painless"), ("params", .object params)])]

theorem body_replace (h : op.Plain k .replace) :
    body op .replace =
      .ok (scriptLine (Script.source .replace) [("field", op.field), ("values", .list op.projections)]) := by
  have hreplaces : op.replaces = true := by rw [Operation.replaces, h.action]
  have hvalues := Document.values_eq_ok (h.projections rfl)
  rw [body, Operation.params, hreplaces, if_pos rfl, hvalues]
  rfl

private theorem body_of_ne (h : op.Plain k a) (ha : a ≠ .replace) (hs : op.projection.subject ≠ .null) :
    body op a = .ok (scriptLine (Script.source a) [("field", op.field), ("value", op.projection)]) := by
  have hreplaces : op.replaces = false := by
    rw [Operation.replaces, h.action]
    cases a with
    | replace => contradiction
    | _ => rfl
  obtain ⟨ms, hms⟩ := h.projection ha
  have htruthy : op.projection.truthy = true := by
    rw [hms] at hs ⊢
    cases ms with
    | nil => exact absurd rfl hs
    | cons m ms => rfl
  rw [body, Operation.params, hreplaces, if_neg Bool.false_ne_true, if_pos htruthy, hms]
  rfl

section Decode

variable {source : String} {field : Value}

theorem decode_replace (h : Script.action? source = some .replace) (values : List Value) :
    MemoryIndex.decode (scriptLine source [("field", field), ("values", .list values)]) =
      .ok ⟨.null, field, .known .replace, .null, values⟩ := by
  simp [MemoryIndex.decode, scriptLine, MemoryIndex.required, List.lookup_cons, h, Value.elements]

private theorem decode_of_ne (h : Script.action? source = some a) (ha : a ≠ .replace) (value : Value) :
    MemoryIndex.decode (scriptLine source [("field", field), ("value", value)]) =
      .ok ⟨.null, field, .known a, value, []⟩ := by
  cases a with
  | replace => contradiction
  | _ => simp [MemoryIndex.decode, scriptLine, MemoryIndex.required, List.lookup_cons, h]

end Decode

/-- The index reads an operation from the body line which does to documents what the one sent does. -/
theorem exists_decode (h : op.Plain k a) (hs : a ≠ .replace → op.projection.subject ≠ .null) :
    ∃ line op', body op a = .ok line ∧ MemoryIndex.decode line = .ok op' ∧
      ∀ doc : Document, doc.PlainField k → (Document.apply op').outcome doc = (Document.apply op).outcome doc := by
  by_cases ha : a = .replace
  · subst ha
    refine ⟨_, _, body_replace h, decode_replace (Script.action?_source _) _, fun doc hdoc => ?_⟩
    exact Document.outcome_apply_congr h ⟨h.field, rfl, fun hne => absurd rfl hne, h.projections⟩
      (fun hne => absurd rfl hne) (fun _ => rfl) hdoc
  · refine ⟨_, _, body_of_ne h ha (hs ha), decode_of_ne (Script.action?_source a) ha _, fun doc hdoc => ?_⟩
    exact Document.outcome_apply_congr h ⟨h.field, rfl, h.projection, fun heq => absurd heq ha⟩
      (fun _ => rfl) (fun heq => absurd heq ha) hdoc

private theorem outcome_missingItem : outcome op MemoryIndex.missingItem = .ok (.missing op) := by
  simp [outcome, MemoryIndex.missingItem, Value.truthy, List.lookup_cons, ItemResult.missing]

private theorem outcome_doneItem (changed : Bool) :
    outcome op (MemoryIndex.doneItem changed) = .ok (.done op changed) := by
  simp [outcome, MemoryIndex.doneItem, Value.truthy, List.lookup_cons, ItemResult.done]

end Batch

/-! ### Documents in the index -/

/-- Whether an index has these documents and no others. -/
def MemoryIndex.Stores (ix : MemoryIndex) (docs : Documents) : Prop :=
  ∀ id, (ix.documents.lookup id).map (·.source) = (docs id).map .object

namespace MemoryIndex

variable {ix : MemoryIndex} {docs : Documents} {id : String}

private theorem Stores.lookup_eq_none (h : ix.Stores docs) (hid : docs id = none) :
    ix.documents.lookup id = none := by
  have := h id
  rw [hid] at this
  simpa using this

private theorem Stores.exists_lookup_eq (h : ix.Stores docs) {doc : Document} (hid : docs id = some doc) :
    ∃ seqNo, ix.documents.lookup id = some ⟨.object doc, seqNo⟩ := by
  have hsource := h id
  rw [hid, Option.map_some] at hsource
  obtain ⟨⟨source, seqNo⟩, hlookup, rfl⟩ := Option.map_eq_some_iff.1 hsource
  exact ⟨seqNo, hlookup⟩

theorem Stores.insert (h : ix.Stores docs) (doc : Document) (seqNo : Nat) :
    Stores { ix with documents := Assoc.insert id ⟨.object doc, seqNo⟩ ix.documents }
      (Function.update docs id (some doc)) := by
  intro id'
  by_cases hid : id' = id
  · subst hid
    rw [Function.update_self, Assoc.lookup_insert_self]
    rfl
  · rw [Function.update_of_ne hid, Assoc.lookup_insert_of_ne (by simpa using hid)]
    exact h id'

/-- An operation on a document of the index leaves the document as it leaves it by itself. -/
private theorem Stores.perform (h : ix.Stores docs) {op : Operation} {doc doc' : Document} {changed : Bool}
    (hid : docs id = some doc) (happly : (Document.apply op).outcome doc = (doc', .ok changed))
    (hkept : changed = false → doc' = doc) :
    ∃ ix', (MemoryIndex.perform id (.operation op)).outcome ix = (ix', .ok (some changed)) ∧
      ix'.Stores (Function.update docs id (some doc')) ∧ ix'.requests = ix.requests ∧ ix'.plan = ix.plan := by
  obtain ⟨seqNo, hlookup⟩ := h.exists_lookup_eq hid
  have hrun : (Document.perform (.operation op)).outcome (.object doc) =
      (.object ((Document.apply op).outcome doc).1, ((Document.apply op).outcome doc).2) := rfl
  rw [happly] at hrun
  have hsource : ((Document.perform (.operation op)).run (.object doc)).1 = .object doc' := congrArg Prod.fst hrun
  have hresult : ((Document.perform (.operation op)).run (.object doc)).2.result = .ok changed :=
    congrArg Prod.snd hrun
  refine ⟨if changed then { ix with documents := Assoc.insert id ⟨.object doc', seqNo + 1⟩ ix.documents } else ix,
    ?_, ?_, by split <;> rfl, by split <;> rfl⟩
  · simp only [MemoryIndex.perform, Session.outcome_bind, Session.outcome_get, Session.continueWith_ok, hlookup,
      Session.outcome_lift_report, hresult, hsource]
    cases changed <;> rfl
  · cases changed with
    | true => exact h.insert _ _
    | false =>
      rw [hkept rfl, ← hid, Function.update_eq_self]
      exact h

theorem outcome_record (r : Request) : (record r).outcome ix = ({ ix with requests := ix.requests ++ [r] }, .ok ()) :=
  rfl

theorem outcome_takePlan : takePlan.outcome ix = ({ ix with plan := none }, .ok ix.plan) := rfl

/-- A bulk request is recorded, and then its lines are carried out. -/
private theorem outcome_bulk (hplan : ix.plan = none) {lines : List Value} {options : Record} {ids : List Value}
    (hids : headerIds lines = .ok ids) {ix' : MemoryIndex} {items : List Value}
    (hupdates : (updates lines).outcome { ix with requests := ix.requests ++ [.bulk ids options] } =
      (ix', .ok items)) :
    (bulk lines options).outcome ix = (ix', .ok (.object [("took", .int 1), ("items", .list items)])) := by
  simp only [hplan] at hupdates
  simp only [bulk, Session.outcome_bind, Session.outcome_lift, hids, Session.continueWith_ok, outcome_record,
    outcome_takePlan, hplan, hupdates, Session.outcome_pure]

end MemoryIndex

/-! ### One pair of lines, and a whole request -/

/-- A condition on operations under which the index reads from the lines of one what does to its document the same as
the operation, and which carrying it out leaves to hold of others. -/
structure Batch.Faithful (P : Documents → Operation → Action → Prop) : Prop where
  read : ∀ {docs op a}, P docs op a → ∃ line op', Batch.body op a = .ok line ∧ MemoryIndex.decode line = .ok op' ∧
    ∀ doc, docs op.owner.toText = some doc → ∃ changed,
      (Document.apply op).outcome doc = (doc.after op, .ok changed) ∧
      (changed = false → doc.after op = doc) ∧ (Document.apply op').outcome doc = (Document.apply op).outcome doc
  frame : ∀ {docs op a op' a' doc}, P docs op a → docs op.owner.toText = some doc → P docs op' a' →
    P (Function.update docs op.owner.toText (some (doc.after op))) op' a'

private theorem Operation.Ready.faithful : Batch.Faithful fun docs op a => op.Ready docs a where
  read {docs op a} h := by
    obtain ⟨k, hplain, hfield⟩ := h.plain
    obtain ⟨line, op', hline, hdecode, hsame⟩ := Batch.exists_decode hplain h.subject
    refine ⟨line, op', hline, hdecode, fun doc hid => ?_⟩
    obtain ⟨changed, happly, hkept⟩ := Document.outcome_apply hplain (hfield doc hid)
    exact ⟨changed, happly, hkept, hsame doc (hfield doc hid)⟩
  frame {docs op a op' a' doc} h hid h' := by
    obtain ⟨k, hplain, hfield⟩ := h.plain
    exact h'.frame hplain hid (hfield doc hid)

/-- The lines of an operation do in the index what the operation does by itself, and the condition goes on to hold. -/
theorem Batch.Faithful.update {P : Documents → Operation → Action → Prop} (hP : Faithful P) {docs : Documents}
    {op : Operation} {a : Action} (h : P docs op a) (b : Batch) {ix : MemoryIndex} (hix : ix.Stores docs) :
    ∃ line item result docs' ix', Batch.body op a = .ok line ∧ op.perform.outcome docs = (docs', .ok result) ∧
      (MemoryIndex.update (b.header op) line).outcome ix = (ix', .ok item) ∧ Batch.outcome op item = .ok result ∧
      ix'.Stores docs' ∧ ix'.requests = ix.requests ∧ ix'.plan = ix.plan ∧
      ∀ op' a', P docs op' a' → P docs' op' a' := by
  obtain ⟨line, op', hline, hdecode, hread⟩ := hP.read h
  cases hid : docs op.owner.toText with
  | none =>
    refine ⟨line, MemoryIndex.missingItem, .missing op, docs, ix, hline, Operation.outcome_perform_missing hid, ?_,
      Batch.outcome_missingItem, hix, rfl, rfl, fun _ _ => id⟩
    simp [MemoryIndex.update, Batch.headerId_header, hdecode, MemoryIndex.perform, hix.lookup_eq_none hid]
  | some doc =>
    obtain ⟨changed, happly, hkept, hsame⟩ := hread doc hid
    obtain ⟨ix', hperform, hix', hrequests, hplan⟩ := hix.perform hid (hsame.trans happly) hkept
    refine ⟨line, MemoryIndex.doneItem changed, .done op changed, _, ix', hline, Operation.outcome_perform hid happly,
      ?_, Batch.outcome_doneItem changed, hix', hrequests, hplan, fun op' a' h' => hP.frame h hid h'⟩
    simp [MemoryIndex.update, Batch.headerId_header, hdecode, hperform]

namespace Batch

variable {b : Batch} {docs : Documents} {ix : MemoryIndex} {ops : List (Operation × Action)}

private theorem pairs_cons {op : Operation} {a : Action} {line : Value} (hline : body op a = .ok line)
    {ps : List (Value × Value)} (hps : b.pairs ops = .ok ps) :
    b.pairs ((op, a) :: ops) = .ok ((b.header op, line) :: ps) := by
  simp only [pairs, List.mapM_cons, hline, ok_bind, pure_eq_ok] at hps ⊢
  rw [hps]
  rfl

private theorem headerIds_flatten {ps : List (Value × Value)} (h : b.pairs ops = .ok ps) :
    MemoryIndex.headerIds (flatten ps) = .ok (ops.map fun r => .string r.1.owner.toText) := by
  induction ops generalizing ps with
  | nil =>
    obtain rfl := Except.ok.inj h
    rfl
  | cons r ops ih =>
    rw [pairs, List.mapM_cons] at h
    obtain ⟨q, hq, h⟩ := exists_of_bind_eq_ok h
    obtain ⟨line, -, hq⟩ := exists_of_bind_eq_ok hq
    obtain rfl := Except.ok.inj hq
    obtain ⟨ps', hps', h⟩ := exists_of_bind_eq_ok h
    obtain rfl := Except.ok.inj h
    have hflatten : flatten ((b.header r.1, line) :: ps') = b.header r.1 :: line :: flatten ps' := rfl
    rw [hflatten, MemoryIndex.headerIds, headerId_header, ih hps']
    rfl

/-- A request and the operations that it is made of, side by side: the lines of the request and the answers of the
index to them, what becomes of each operation, and how documents and index stand at the end. -/
structure SideBySide (b : Batch) (ops : List (Operation × Action)) (docs docs' : Documents) (ix ix' : MemoryIndex)
    (ps : List (Value × Value)) (items : List Value) (results : List ItemResult) : Prop where
  pairs : b.pairs ops = .ok ps
  lines : ps.length = ops.length
  answers : items.length = ops.length
  performed : ((ops.map (·.1)).mapM Operation.perform).outcome docs = (docs', .ok results)
  updated : (MemoryIndex.updates (flatten ps)).outcome ix = (ix', .ok items)
  told : ((ops.map (·.1)).zip items).mapM (fun r => outcome r.1 r.2) = .ok results
  stores : ix'.Stores docs'
  requests : ix'.requests = ix.requests
  plan : ix'.plan = ix.plan

/-- The lines of some operations do in the index, and tell, what the operations do by themselves one after another. -/
private theorem exists_sideBySide {P : Documents → Operation → Action → Prop} (hP : Faithful P) (hix : ix.Stores docs)
    (h : ∀ r ∈ ops, P docs r.1 r.2) :
    ∃ docs' ix' ps items results, SideBySide b ops docs docs' ix ix' ps items results := by
  induction ops generalizing docs ix with
  | nil => exact ⟨docs, ix, [], [], [], rfl, rfl, rfl, rfl, rfl, rfl, hix, rfl, rfl⟩
  | cons r ops ih =>
    obtain ⟨op, a⟩ := r
    obtain ⟨hop, hops⟩ := List.forall_mem_cons.1 h
    obtain ⟨line, item, result, docs₁, ix₁, hline, hperform, hupdate, htold, hix₁, hrequests, hplan, hframe⟩ :=
      hP.update hop b hix
    obtain ⟨docs', ix', ps, items, results, hrest⟩ := ih hix₁ fun r hr => hframe r.1 r.2 (hops r hr)
    refine ⟨docs', ix', (b.header op, line) :: ps, item :: items, result :: results, ?_⟩
    constructor
    case pairs => exact pairs_cons hline hrest.pairs
    case lines => simp [hrest.lines]
    case answers => simp [hrest.answers]
    case performed =>
      simp only [List.map_cons, List.mapM_cons, Session.outcome_bind, hperform, Session.continueWith_ok,
        hrest.performed, Session.outcome_pure]
    case updated =>
      have hflatten : flatten ((b.header op, line) :: ps) = b.header op :: line :: flatten ps := rfl
      simp only [hflatten, MemoryIndex.updates, Session.outcome_bind, hupdate, Session.continueWith_ok,
        hrest.updated, Session.outcome_pure]
    case told => simp only [List.map_cons, List.zip_cons_cons, List.mapM_cons, htold, ok_bind, hrest.told, pure_eq_ok]
    case stores => exact hrest.stores
    case requests => exact hrest.requests.trans hrequests
    case plan => exact hrest.plan.trans hplan

private theorem collect_eq_ok {ops : List Operation} {items : List Value} {results : List ItemResult} {took : Int}
    (hitems : items.length = ops.length) (hresults : (ops.zip items).mapM (fun r => outcome r.1 r.2) = .ok results) :
    collect ops (.object [("took", .int took), ("items", .list items)]) = .ok ⟨results, took⟩ := by
  have htook : (orZero (.int took)).toInteger = .ok took := by
    by_cases hzero : took = 0 <;> simp [orZero, Value.truthy, hzero]
  cases items with
  | nil =>
    obtain rfl : ops = [] := List.eq_nil_of_length_eq_zero hitems.symm
    obtain rfl := Except.ok.inj hresults
    simp [collect, Value.member, List.lookup_cons, Value.truthy, htook]
  | cons item items =>
    simp [collect, Value.member, List.lookup_cons, Value.truthy, Value.elements, hitems, hresults, htook]

/-- Once a request is answered, what a batch ends with depends on the answer only. -/
theorem outcome_dispatch_answered {σ : Type} {client : Client σ} {items : List BatchItem} {ps : List (Value × Value)}
    (hops : validate items = .ok ops) (hpairs : b.pairs ops = .ok ps) (hne : ps.isEmpty = false) {s s' : σ}
    {response : Value}
    (h : (client.bulk (flatten ps) (refreshOptions b.refresh)).outcome s = (s', .ok response)) :
    (b.dispatch client items).outcome s = (s', collect (ops.map (·.1)) response) := by
  have hsend : (b.send client (flatten ps)).outcome s = (s', .ok response) := by
    rw [send, Session.outcome_tryCatch, h, Session.handleWith_ok]
  simp only [dispatch, Session.outcome_bind, Session.outcome_lift, hops, Session.continueWith_ok, hpairs, hne,
    Bool.false_eq_true, if_false, hsend]
  cases collect (ops.map (·.1)) response with
  | error e => rfl
  | ok r =>
    simp only [Session.continueWith_ok, Session.outcome_bind, Session.outcome_forM_note]
    rfl

/-- A batch of operations that can be sent makes one bulk request, unless it is empty. -/
theorem Faithful.outcome_dispatch {P : Documents → Operation → Action → Prop} (hP : Faithful P)
    (hplan : ix.plan = none) (hix : ix.Stores docs) {items : List BatchItem} (hops : validate items = .ok ops)
    (h : ∀ r ∈ ops, P docs r.1 r.2) :
    ∃ results docs' ix' took, ((ops.map (·.1)).mapM Operation.perform).outcome docs = (docs', .ok results) ∧
      (b.dispatch MemoryIndex.client items).outcome ix = (ix', .ok ⟨results, took⟩) ∧ ix'.Stores docs' ∧
      ix'.plan = none ∧
      ix'.requests = ix.requests ++ if ops.isEmpty then [] else
        [.bulk (ops.map fun r => .string r.1.owner.toText) (refreshOptions b.refresh)] := by
  -- The request is recorded before its lines are carried out.
  generalize hids : (ops.map fun r => Value.string r.1.owner.toText) = ids
  generalize hrecorded : { ix with requests := ix.requests ++ [Request.bulk ids (refreshOptions b.refresh)] } =
    recorded
  have hstores : recorded.Stores docs := by
    rw [← hrecorded]
    exact hix
  obtain ⟨docs', ix', ps, items', results, hrun⟩ := exists_sideBySide (b := b) hP hstores h
  have hpairs := hrun.pairs
  cases hempty : ops.isEmpty with
  | true =>
    obtain rfl := List.isEmpty_iff.1 hempty
    obtain rfl := Except.ok.inj hpairs
    refine ⟨[], docs, ix, 0, rfl, ?_, hix, hplan, (List.append_nil _).symm⟩
    simp only [dispatch, Session.outcome_bind, Session.outcome_lift, hops, Session.continueWith_ok, hpairs]
    rfl
  | false =>
    have hsome : ps.isEmpty = false := by
      rw [List.isEmpty_eq_false_iff] at hempty ⊢
      exact fun hnil => hempty (List.eq_nil_of_length_eq_zero (by rw [← hrun.lines, hnil]; rfl))
    have hbulk : (MemoryIndex.bulk (flatten ps) (refreshOptions b.refresh)).outcome ix =
        (ix', .ok (.object [("took", .int 1), ("items", .list items')])) := by
      refine MemoryIndex.outcome_bulk hplan ((headerIds_flatten hpairs).trans (congrArg Except.ok hids)) ?_
      rw [hrecorded]
      exact hrun.updated
    have hcollect :
        collect (ops.map (·.1)) (.object [("took", .int 1), ("items", .list items')]) = .ok ⟨results, 1⟩ :=
      collect_eq_ok (hrun.answers.trans (List.length_map _).symm) hrun.told
    refine ⟨results, docs', ix', 1, hrun.performed, ?_, hrun.stores, ?_, ?_⟩
    · rw [@outcome_dispatch_answered _ _ _ MemoryIndex.client _ _ hops hpairs hsome _ _ _ hbulk, hcollect]
    · rw [hrun.plan, ← hrecorded]
      exact hplan
    · rw [hrun.requests, ← hrecorded]
      rfl

private theorem outcome_dispatch (hplan : ix.plan = none) (hix : ix.Stores docs) {items : List BatchItem}
    (hops : validate items = .ok ops) (h : ∀ r ∈ ops, r.1.Ready docs r.2) :
    ∃ results docs' ix' took, ((ops.map (·.1)).mapM Operation.perform).outcome docs = (docs', .ok results) ∧
      (b.dispatch MemoryIndex.client items).outcome ix = (ix', .ok ⟨results, took⟩) ∧ ix'.Stores docs' ∧
      ix'.requests = ix.requests ++ if ops.isEmpty then [] else
        [.bulk (ops.map fun r => .string r.1.owner.toText) (refreshOptions b.refresh)] := by
  obtain ⟨results, docs', ix', took, hrun, hdispatch, hix', -, hrequests⟩ :=
    Operation.Ready.faithful.outcome_dispatch (b := b) hplan hix hops h
  exact ⟨results, docs', ix', took, hrun, hdispatch, hix', hrequests⟩

/-- A batch with an item that cannot be sent is refused as a whole, and the first such item is named by its
position.  Any other batch does to the documents, and tells, what its operations do one after another, in one
request or, if it is empty, in none. -/
theorem dispatch_refines (b : Batch) (hplan : ix.plan = none) (hix : ix.Stores docs) {items : List BatchItem}
    (h : ∀ op, .operation op ∈ items → op.Readable docs) :
    (∀ before item after, items = before ++ item :: after → (∀ x ∈ before, ¬ x.Flawed) → item.Flawed →
      ∃ flaw, (b.dispatch MemoryIndex.client items).outcome ix =
        (ix, .error (.invalidItem before.length flaw))) ∧
    ((∀ x ∈ items, ¬ x.Flawed) → ∃ ops : List Operation, ∃ results docs' ix' took,
      items = ops.map BatchItem.operation ∧
      (ops.mapM Operation.perform).outcome docs = (docs', .ok results) ∧
      (b.dispatch MemoryIndex.client items).outcome ix = (ix', .ok ⟨results, took⟩) ∧ ix'.Stores docs' ∧
      ix'.requests = ix.requests ++ if ops.isEmpty then [] else
        [.bulk (ops.map fun op => .string op.owner.toText) (refreshOptions b.refresh)]) := by
  constructor
  · rintro before item after rfl hbefore hitem
    obtain ⟨flaw, hvalidate⟩ := validateFrom_flawed h hbefore hitem 0
    refine ⟨flaw, ?_⟩
    rw [Nat.zero_add] at hvalidate
    rw [dispatch, Session.outcome_bind, Session.outcome_lift, validate, hvalidate, Session.continueWith_error]
  · intro hitems
    obtain ⟨ops, hops, rfl, hready⟩ := validateFrom_ready h hitems 0
    obtain ⟨results, docs', ix', took, hrun, hdispatch, hix', hrequests⟩ :=
      outcome_dispatch (b := b) hplan hix hops hready
    refine ⟨ops.map (·.1), results, docs', ix', took, by simp, hrun, hdispatch, hix', ?_⟩
    rw [hrequests, List.isEmpty_map, List.map_map]
    rfl

/-- The operation that tells an event of a sponsor. -/
def tellSponsor (event : Int) : Operation where
  owner := .int event
  field := .string "related_sponsors_company"
  action := .known .upsert
  projection := .object [("entity_id", .int 20), ("title", .string "Acme")]

/-- The document of an event. -/
def launchParty : Document := [("title", .string "Launch Party")]

theorem dispatch_refines_tellSponsor :
    (∃ ix' took, (dispatch ⟨.string "content", .int 3, .null⟩ MemoryIndex.client
        ([tellSponsor 30, tellSponsor 10].map BatchItem.operation)).outcome
          (.ofDocuments [("10", .object launchParty)]) =
      (ix', .ok ⟨[.missing (tellSponsor 30), .done (tellSponsor 10) true], took⟩)) ∧
    ∃ flaw, (dispatch ⟨.string "content", .int 3, .null⟩ MemoryIndex.client
        [.operation (tellSponsor 10), .operation { tellSponsor 10 with field := .string "" }]).outcome
          (.ofDocuments [("10", .object launchParty)]) =
      (.ofDocuments [("10", .object launchParty)], .error (.invalidItem 1 flaw)) := by
  generalize hdocs : (Function.update (fun _ => none) "10" (some launchParty) : Documents) = docs
  have hix : (MemoryIndex.ofDocuments [("10", .object launchParty)]).Stores docs := by
    have hempty : MemoryIndex.Stores {} fun _ => none := fun _ => rfl
    rw [← hdocs]
    exact hempty.insert launchParty 0
  have hten : docs "10" = some launchParty := by rw [← hdocs, Function.update_self]
  have honly : ∀ id doc, docs id = some doc → doc = launchParty := by
    intro id doc hdoc
    by_cases hid : id = "10"
    · rw [hid, hten] at hdoc
      exact (Option.some.inj hdoc).symm
    · rw [← hdocs, Function.update_of_ne hid] at hdoc
      contradiction
  have hreadable : ∀ event, (tellSponsor event).Readable docs := by
    refine fun event => ⟨.inr ⟨_, rfl⟩, List.forall_mem_nil _, fun _ => ⟨_, rfl, fun doc hdoc => .inl ?_⟩⟩
    rw [honly _ doc hdoc]
    rfl
  have hsendable : ∀ event, ¬ (BatchItem.operation (tellSponsor event)).Flawed := by
    rintro event (h | ⟨-, h⟩ | h)
    · exact h .upsert rfl
    · contradiction
    · contradiction
  constructor
  · have hreadables : ∀ op, .operation op ∈ [tellSponsor 30, tellSponsor 10].map BatchItem.operation →
        op.Readable docs := by simp [hreadable]
    obtain ⟨ops, results, docs', ix', took, hops, hrun, hdispatch, -⟩ :=
      (dispatch_refines ⟨.string "content", .int 3, .null⟩ rfl hix hreadables).2 (by simp [hsendable])
    obtain rfl := (List.map_inj_right fun _ _ => BatchItem.operation.inj).1 hops
    have happly : (Document.apply (tellSponsor 10)).outcome launchParty =
        (Assoc.insert (.string "related_sponsors_company") (.list [(tellSponsor 10).projection]) launchParty,
          .ok true) := rfl
    have hthirty : docs "30" = none := by rw [← hdocs, Function.update_of_ne (by decide)]
    simp only [List.mapM_cons, Session.outcome_bind, @Operation.outcome_perform_missing _ (tellSponsor 30) hthirty,
      @Operation.outcome_perform _ (tellSponsor 10) _ _ _ hten happly, Session.continueWith_ok, List.mapM_nil,
      Session.outcome_pure] at hrun
    obtain rfl := Except.ok.inj (congrArg Prod.snd hrun)
    exact ⟨ix', took, hdispatch⟩
  · have hreadables : ∀ op, .operation op ∈ [BatchItem.operation (tellSponsor 10),
        .operation { tellSponsor 10 with field := .string "" }] → op.Readable docs := by
      intro op hop
      rcases List.mem_cons.1 hop with hop | hop
      · exact BatchItem.operation.inj hop ▸ hreadable 10
      · rw [BatchItem.operation.inj (List.mem_singleton.1 hop)]
        exact ⟨.inr ⟨_, rfl⟩, List.forall_mem_nil _, fun h => absurd h (by decide)⟩
    exact (dispatch_refines ⟨.string "content", .int 3, .null⟩ rfl hix hreadables).1
      [.operation (tellSponsor 10)] _ [] rfl (by simp [hsendable]) (.inr (.inr rfl))

end Batch

end EdgeFields
