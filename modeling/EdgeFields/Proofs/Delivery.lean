import EdgeFields.Proofs.Convergence

/-!
# Delivery

The operations that an engine answers are carried out on the documents at any later time: in any order, each any
number of times, or not at all.  A relationship field is never left in a bad shape by that: it is absent, or a list
of embedded entities which is not empty and has each entity once (`Document.WellFormedAt`).

The argument has two halves.  Whatever the host's store answers, an engine sends only operations of one shape
(`Operation.Sound`); and an operation of that shape can always be carried out on a well-formed field and leaves it
well-formed (`WellFormedAt.after`).  `Delivery.run_wellFormed` joins them by induction on the run.
-/

namespace EdgeFields

/-! ### Sound operations on well-formed fields -/

/-- Objects that embed entities, each another one. -/
def Value.Distinct (items : List Value) : Prop :=
  (∀ v ∈ items, ∃ x, v.Embeds x) ∧ items.Pairwise fun v w => v.subject ≠ w.subject

/-- Whether a field is absent, or a list of distinct embedded entities which is not empty. -/
def Document.WellFormedAt (doc : Document) (k : Key) : Prop :=
  ∃ items, doc.Keeps k items ∧ Value.Distinct items

/-- An operation of a known action on a field, whose projection embeds an entity, or whose projections embed distinct
entities. -/
structure Operation.Sound (op : Operation) (s : Slot) (a : Action) : Prop where
  owner : op.owner = .int s.owner
  field : op.field = .string s.field
  action : op.action = .known a
  projection : a ≠ .replace → ∃ x, op.projection.Embeds x
  projections : a = .replace → Value.Distinct op.projections

section Sound

variable {op : Operation} {s : Slot} {a : Action} {doc : Document} {items : List Value}

private theorem Value.distinct_nil : Value.Distinct [] := ⟨List.forall_mem_nil _, List.Pairwise.nil⟩

private theorem Value.Distinct.isObject (h : Value.Distinct items) : ∀ v ∈ items, v.IsObject := by
  intro v hv
  obtain ⟨x, hx⟩ := h.1 v hv
  exact Update.isObject_of_embeds hx

private theorem Value.Distinct.concat (h : Value.Distinct items) {v : Value} {x : Int} (hv : v.Embeds x)
    (hnew : ∀ w ∈ items, w.subject ≠ v.subject) : Value.Distinct (items ++ [v]) := by
  refine ⟨fun w hw => ?_, List.pairwise_append.2 ⟨h.2, List.pairwise_singleton _ v, fun w hw u hu => ?_⟩⟩
  · rcases List.mem_append.1 hw with hw | hw
    · exact h.1 w hw
    · exact ⟨x, List.mem_singleton.1 hw ▸ hv⟩
  · rw [List.mem_singleton.1 hu]
    exact hnew w hw

private theorem Value.Distinct.filter (h : Value.Distinct items) (q : Value → Bool) :
    Value.Distinct (items.filter q) :=
  ⟨fun v hv => h.1 v (List.mem_filter.1 hv).1, h.2.sublist List.filter_sublist⟩

private theorem Document.WellFormedAt.plainField {k : Key} (h : doc.WellFormedAt k) : doc.PlainField k := by
  obtain ⟨items, hkeeps, hitems⟩ := h
  exact hkeeps.plainField hitems.isObject

private theorem Operation.Sound.plain (h : op.Sound s a) : op.Plain (.string s.field) a where
  field := by rw [h.field, Value.toKey_string]
  action := h.action
  projection ha := by
    obtain ⟨x, hx⟩ := h.projection ha
    exact Update.isObject_of_embeds hx
  projections ha := (h.projections ha).isObject

/-- A sound operation leaves its field well-formed. -/
theorem Document.WellFormedAt.after (h : op.Sound s a) (hw : doc.WellFormedAt (.string s.field)) :
    (doc.after op).WellFormedAt (.string s.field) := by
  have hplain := h.plain
  have hfield := hw.plainField
  obtain ⟨items, hkeeps, hitems⟩ := hw
  cases a with
  | upsert =>
    obtain ⟨x, hx⟩ := h.projection (by simp)
    have hafter := keeps_upsert hplain hkeeps hitems.isObject
    split at hafter
    · exact ⟨items, hafter, hitems⟩
    · next hnone =>
      refine ⟨_, hafter, hitems.concat hx fun w hw hsubject => hnone ?_⟩
      obtain ⟨y, hy⟩ := hitems.1 w hw
      refine List.any_eq_true.2 ⟨w, hw, ?_⟩
      rw [← hsubject, Update.subject_eq_of_embeds hy, Value.equal_int, beq_self_eq_true]
  | remove => exact ⟨_, keeps_remove hplain hkeeps hitems.isObject, hitems.filter _⟩
  | replace =>
    rw [after_eq, outcome_replace hplain]
    split
    · split
      · exact ⟨[], Assoc.lookup_erase_self _ _, Value.distinct_nil⟩
      · exact ⟨items, hkeeps, hitems⟩
    · next hsome =>
      split
      · exact ⟨items, hkeeps, hitems⟩
      · refine ⟨op.projections, ?_, h.projections rfl⟩
        simp only [Keeps, Assoc.lookup_insert_self, hsome, Bool.false_eq_true, if_false]

/-- A sound operation can be carried out, and leaves every field well-formed that was. -/
private theorem World.carry_sound (h : op.Sound s a) {documents : Int → Document}
    (hw : (documents s.owner).WellFormedAt (.string s.field)) :
    ∃ documents', carry documents (.operation op) = .ok documents' ∧
      ∀ t : Slot, (documents t.owner).WellFormedAt (.string t.field) →
        (documents' t.owner).WellFormedAt (.string t.field) := by
  refine ⟨_, carry_operation h.plain h.owner hw.plainField, fun t ht => ?_⟩
  split
  · next howner =>
    by_cases hfield : t.field = s.field
    · rw [hfield]
      exact hw.after h
    · have hne : (Key.string t.field == Key.string s.field) = false := by simpa using hfield
      obtain ⟨items, hkeeps, hitems⟩ := ht
      refine ⟨items, ?_, hitems⟩
      rw [Document.Keeps, Document.lookup_after_of_ne h.plain hw.plainField hne, ← howner]
      exact hkeeps
  · exact ht

end Sound

/-! ### What an engine sends -/

namespace Projector

variable {p : Projector} (hp : p.hooks.projection = none)
include hp

private theorem embeds_of_projection {e : Entity} {v : Value} (h : p.projection e = .ok v) : v.Embeds e.id := by
  rw [projection, hp] at h
  exact ⟨e.summary, (Except.ok.inj h).symm, rfl⟩

/-- Whatever a page has, with gaps and repetitions, an entity is embedded once. -/
private theorem distinct_of_embed {size : Value} {related : List (Option Entity)} {vs : List Value}
    (h : (p.embed size related).result = .ok vs) : Value.Distinct vs := by
  have hmapM : ∀ es : List Entity, es.mapM (fun e => (p.projection e : Except Fault Value)) =
      .ok (es.map fun e => .object e.summary) := fun es => mapM_eq_ok fun e _ => by rw [projection, hp]
  rw [embed] at h
  split at h
  · obtain rfl := Except.ok.inj h
    exact Value.distinct_nil
  · simp only [Report.result_bind, Report.result_lift] at h
    obtain ⟨full, -, h⟩ := exists_of_bind_eq_ok h
    have hlisted : ∃ es, vs = (distinctOf es).map fun e => .object e.summary := by
      split at h <;> simp only [Report.result_bind, Report.result_note, Report.result_lift, ok_bind] at h <;>
      · obtain ⟨count, -, h⟩ := exists_of_bind_eq_ok h
        rw [Report.result_mapM] at h
        exact ⟨_, (Except.ok.inj ((hmapM _).symm.trans h)).symm⟩
    obtain ⟨es, rfl⟩ := hlisted
    refine ⟨fun v hv => ?_, List.pairwise_map.2 ((pairwise_distinctOf es).imp fun hne hsubject => ?_)⟩
    · obtain ⟨e, -, rfl⟩ := List.mem_map.1 hv
      exact ⟨e.id, e.summary, rfl, rfl⟩
    · exact hne (Value.int.inj hsubject)

private theorem distinct_of_project {store : Store} {ds : List Definition} {e : Entity} {done : Fields × List Query}
    (h : (p.project store ds e).result = .ok done) (key : String) : Value.Distinct ((done.1.lookup key).getD []) := by
  refine Report.of_result_foldlM (P := fun done => ∀ key, Value.Distinct ((done.1.lookup key).getD [])) ?_
    (fun _ => Value.distinct_nil) h key
  intro done r done' hdone hadd key
  simp only [addField, Report.result_bind, Report.result_lift] at hadd
  obtain ⟨size, -, hadd⟩ := exists_of_bind_eq_ok hadd
  obtain ⟨related, -, hadd⟩ := exists_of_bind_eq_ok hadd
  obtain ⟨vs, hvs, hadd⟩ := exists_of_bind_eq_ok hadd
  have hdistinct := distinct_of_embed hp hvs
  split at hadd
  · obtain rfl := Except.ok.inj hadd
    exact hdone key
  · rw [Report.result_bind] at hadd
    obtain ⟨key', -, hadd⟩ := exists_of_bind_eq_ok hadd
    obtain rfl := Except.ok.inj hadd
    by_cases hkey : key = key'
    · rw [hkey, Assoc.lookup_insert_self]
      exact hdistinct
    · rw [Assoc.lookup_insert_of_ne (by simpa using hkey)]
      exact hdone key

private theorem sound_of_edgeOperation {action : Action} (ha : action ≠ .replace) {name : Value}
    {owner other : Entity} {op : Operation} (h : p.edgeOperation action name owner other = .ok op) :
    ∃ field, op.Sound ⟨owner.id, field⟩ action := by
  obtain ⟨field, -, h⟩ := exists_of_bind_eq_ok h
  obtain ⟨v, hv, h⟩ := exists_of_bind_eq_ok h
  obtain rfl := Except.ok.inj h
  exact ⟨field, rfl, rfl, rfl, fun _ => ⟨other.id, embeds_of_projection hp hv⟩, fun h => absurd h ha⟩

private theorem sound_of_edgeOperations {action : Action} (ha : action ≠ .replace) {name : Value}
    {first second : Entity}
    {ops : List Operation} (h : p.edgeOperations action name first second = .ok ops) {op : Operation}
    (hop : op ∈ ops) :
    ∃ s, op.Sound s action := by
  obtain ⟨forth, hforth, h⟩ := exists_of_bind_eq_ok h
  obtain ⟨field, hsound⟩ := sound_of_edgeOperation hp ha hforth
  split at h
  · obtain rfl := Except.ok.inj h
    exact ⟨_, List.mem_singleton.1 hop ▸ hsound⟩
  · obtain ⟨back, hback, h⟩ := exists_of_bind_eq_ok h
    obtain ⟨field', hsound'⟩ := sound_of_edgeOperation hp ha hback
    obtain rfl := Except.ok.inj h
    rcases List.mem_cons.1 hop with rfl | hop
    · exact ⟨_, hsound⟩
    · exact ⟨_, List.mem_singleton.1 hop ▸ hsound'⟩

omit hp in
private theorem sound_of_replacements {ds : List Definition} {e : Entity} {fields : Fields}
    (hf : ∀ key, Value.Distinct ((fields.lookup key).getD [])) {ops : List Operation}
    (h : p.replacements ds e fields = .ok ops) {op : Operation} (hop : op ∈ ops) : ∃ s, op.Sound s .replace := by
  obtain ⟨keys, -, h⟩ := exists_of_bind_eq_ok h
  obtain rfl := Except.ok.inj h
  obtain ⟨key, -, rfl⟩ := List.mem_map.1 hop
  exact ⟨⟨e.id, key⟩, rfl, rfl, rfl, fun h => absurd rfl h, fun _ => hf key⟩

end Projector

/-- What an engine is asked for, with the host's store of that moment: the operations of a changed edge, or those that
mend the document of an entity. -/
inductive Call where
  | edge (store : Store) (change : EdgeChange)
  | reproject (store : Store) (entity : Entity)

/-- Puts a call to an engine. -/
def Call.ask (p : Projector) (source : Source) : Call → Session Engine (List BatchItem)
  | edge store change => Engine.edge p source store change.action change.event
  | reproject store entity => List.map BatchItem.operation <$> Engine.reproject p source store entity

/-- What a call leaves of an engine, and what it answers: nothing if it fails. -/
def Call.reply (p : Projector) (source : Source) (call : Call) (engine : Engine) : Engine × List BatchItem :=
  (((call.ask p source).outcome engine).1, ((call.ask p source).outcome engine).2.toOption.getD [])

/-- An engine sends sound operations only. -/
private theorem Call.sound_of_mem_reply {p : Projector} (hp : p.hooks.projection = none)
    (hr : p.hooks.relationshipData = none) {source : Source} {call : Call} {engine : Engine} {item : BatchItem}
    (hitem : item ∈ (call.reply p source engine).2) : ∃ op s a, item = .operation op ∧ op.Sound s a := by
  rcases h : (call.ask p source).outcome engine with ⟨e', f | items⟩
  · rw [reply, h] at hitem
    contradiction
  rw [reply, h] at hitem
  replace hitem : item ∈ items := hitem
  cases call with
  | edge store change =>
    obtain ⟨-, rfl | ⟨-, first, second, ops, -, -, hops, rfl⟩⟩ := Engine.edge_answers hr h
    · contradiction
    · obtain ⟨op, hop, rfl⟩ := List.mem_map.1 hitem
      have hact : change.action ≠ .replace := by
        rw [EdgeChange.action]
        split <;> simp
      obtain ⟨s, hs⟩ := Projector.sound_of_edgeOperations hp hact hops hop
      exact ⟨op, s, _, rfl, hs⟩
  | reproject store entity =>
    rw [ask, map_eq_pure_bind] at h
    obtain ⟨e₁, ops, hops, h⟩ := Session.exists_of_outcome_bind h
    obtain rfl := Except.ok.inj (Prod.mk.inj h).2
    obtain ⟨op, hop, rfl⟩ := List.mem_map.1 hitem
    obtain ⟨e₂, ds, -, hops⟩ := Session.exists_of_outcome_bind hops
    obtain ⟨e₃, done, hdone, hops⟩ := Session.exists_of_outcome_bind hops
    obtain ⟨ops', hops', hops⟩ := Session.exists_of_outcome_lift_bind hops
    obtain ⟨e₄, _, -, hops⟩ := Session.exists_of_outcome_bind hops
    obtain rfl := Except.ok.inj (Prod.mk.inj hops).2
    have hfields := Projector.distinct_of_project hp (Prod.mk.inj hdone).2
    obtain ⟨s, hs⟩ := Projector.sound_of_replacements hfields hops' hop
    exact ⟨op, s, _, rfl, hs⟩

/-! ### Runs -/

/-- What happens: an engine is asked, or an item of all that it has answered so far is carried out. -/
inductive Delivery.Step where
  | ask (call : Call)
  | carry (position : Nat)

/-- An engine, all that it has answered so far, and the document of each entity by its number. -/
structure Delivery where
  engine : Engine := {}
  answered : List BatchItem := []
  documents : Int → Document

namespace Delivery

/-- One step; at a position where nothing has been answered nothing happens. -/
def step (p : Projector) (source : Source) (d : Delivery) : Step → Except Fault Delivery
  | .ask call =>
    let (engine, items) := call.reply p source d.engine
    .ok ⟨engine, d.answered ++ items, d.documents⟩
  | .carry position =>
    match d.answered[position]? with
    | none => .ok d
    | some item => do return { d with documents := ← World.carry d.documents item }

/-- Takes steps one after another. -/
def run (p : Projector) (source : Source) (d : Delivery) (steps : List Step) : Except Fault Delivery :=
  steps.foldlM (step p source) d

/-- All that an engine answers when some steps are taken. -/
def answers (p : Projector) (source : Source) : Engine → List Step → List BatchItem
  | _, [] => []
  | engine, .ask call :: steps =>
    let (engine, items) := call.reply p source engine
    items ++ answers p source engine steps
  | engine, .carry _ :: steps => answers p source engine steps

/-- Whether one of some items is for a field of the document of an entity. -/
def Names (items : List BatchItem) (s : Slot) : Prop :=
  ∃ op, .operation op ∈ items ∧ op.owner = .int s.owner ∧ op.field = .string s.field

/-- What every step preserves: the engine has answered sound operations on fields of `slots`, and these are
well-formed. -/
structure Inv (slots : Slot → Prop) (d : Delivery) : Prop where
  answered : ∀ item ∈ d.answered, ∃ op s a, item = .operation op ∧ op.Sound s a ∧ slots s
  documents : ∀ s, slots s → (d.documents s.owner).WellFormedAt (.string s.field)

variable {p : Projector} {source : Source} {slots : Slot → Prop} {d : Delivery}

private theorem Inv.carry (h : d.Inv slots) (position : Nat) :
    ∃ d', step p source d (.carry position) = .ok d' ∧ d'.engine = d.engine ∧ d'.answered = d.answered ∧
      d'.Inv slots := by
  rw [step]
  cases hitem : d.answered[position]? with
  | none => exact ⟨d, rfl, rfl, rfl, h⟩
  | some item =>
    obtain ⟨op, s, a, rfl, hs, hslot⟩ := h.answered item (List.mem_of_getElem? hitem)
    obtain ⟨documents, hcarry, hkept⟩ := World.carry_sound hs (h.documents s hslot)
    refine ⟨{ d with documents }, ?_, rfl, rfl, h.answered, fun t ht => hkept t (h.documents t ht)⟩
    simp only [hcarry, ok_bind, pure_eq_ok]

private theorem Inv.ask (hp : p.hooks.projection = none) (hr : p.hooks.relationshipData = none) (h : d.Inv slots)
    (call : Call) (hslots : ∀ s, Names (call.reply p source d.engine).2 s → slots s) :
    ∃ d', step p source d (.ask call) = .ok d' ∧ d'.engine = (call.reply p source d.engine).1 ∧
      d'.answered = d.answered ++ (call.reply p source d.engine).2 ∧ d'.Inv slots := by
  refine ⟨_, rfl, rfl, rfl, fun item hitem => ?_, h.documents⟩
  rcases List.mem_append.1 hitem with hitem | hitem
  · exact h.answered item hitem
  · obtain ⟨op, s, a, rfl, hs⟩ := Call.sound_of_mem_reply hp hr hitem
    exact ⟨op, s, a, rfl, hs, hslots s ⟨op, hitem, hs.owner, hs.field⟩⟩

/-- Steps can always be taken as long as the engine answers for fields of `slots`. -/
private theorem Inv.run (hp : p.hooks.projection = none) (hr : p.hooks.relationshipData = none) {steps : List Step}
    (h : d.Inv slots) (hslots : ∀ s, Names (answers p source d.engine steps) s → slots s) :
    ∃ d', run p source d steps = .ok d' ∧ d'.answered = d.answered ++ answers p source d.engine steps ∧
      d'.Inv slots := by
  induction steps generalizing d with
  | nil => exact ⟨d, rfl, (List.append_nil _).symm, h⟩
  | cons step steps ih =>
    cases step with
    | ask call =>
      have hsplit : answers p source d.engine (.ask call :: steps) =
          (call.reply p source d.engine).2 ++ answers p source (call.reply p source d.engine).1 steps := rfl
      rw [hsplit] at hslots ⊢
      have hnow : ∀ s, Names (call.reply p source d.engine).2 s → slots s := by
        rintro s ⟨op, hop, hs⟩
        exact hslots s ⟨op, List.mem_append_left _ hop, hs⟩
      obtain ⟨d₁, hstep, hengine, hanswered, h₁⟩ := h.ask hp hr call hnow
      have hlater : ∀ s, Names (answers p source d₁.engine steps) s → slots s := by
        rintro s ⟨op, hop, hs⟩
        rw [hengine] at hop
        exact hslots s ⟨op, List.mem_append_right _ hop, hs⟩
      obtain ⟨d₂, hrun, hanswered₂, h₂⟩ := ih h₁ hlater
      refine ⟨d₂, ?_, ?_, h₂⟩
      · rw [Delivery.run, List.foldlM_cons, hstep, ok_bind]
        exact hrun
      · rw [hanswered₂, hanswered, hengine, List.append_assoc]
    | carry position =>
      obtain ⟨d₁, hstep, hengine, hanswered, h₁⟩ := @Inv.carry p source slots d h position
      rw [← hengine] at hslots
      obtain ⟨d₂, hrun, hanswered₂, h₂⟩ := ih h₁ hslots
      refine ⟨d₂, ?_, ?_, h₂⟩
      · rw [Delivery.run, List.foldlM_cons, hstep, ok_bind]
        exact hrun
      · rw [hanswered₂, hanswered, hengine]
        rfl

private theorem names_of_isPrefix {engine : Engine} {steps steps' : List Step} (h : steps' <+: steps) {s : Slot}
    (hs : Names (answers p source engine steps') s) : Names (answers p source engine steps) s := by
  obtain ⟨rest, rfl⟩ := h
  induction steps' generalizing engine with
  | nil =>
    obtain ⟨op, hop, -⟩ := hs
    contradiction
  | cons step steps' ih =>
    cases step with
    | carry position => exact ih hs
    | ask call =>
      obtain ⟨op, hop, hfield⟩ := hs
      rcases List.mem_append.1 hop with hop | hop
      · exact ⟨op, List.mem_append_left _ hop, hfield⟩
      · obtain ⟨op', hop', hfield'⟩ := ih ⟨op, hop, hfield⟩
        exact ⟨op', List.mem_append_right _ hop', hfield'⟩

/-- If every field that the engine answers for in a run is well-formed at first, then every step of the run can be
taken, and after each of them these fields are well-formed. -/
theorem run_wellFormed (hp : p.hooks.projection = none) (hr : p.hooks.relationshipData = none) {engine : Engine}
    {documents : Int → Document} {steps : List Step}
    (h : ∀ s, Names (answers p source engine steps) s → (documents s.owner).WellFormedAt (.string s.field))
    {steps' : List Step} (hinit : steps' <+: steps) :
    ∃ d, run p source { engine, documents } steps' = .ok d ∧ d.answered = answers p source engine steps' ∧
      ∀ s, Names (answers p source engine steps) s → (d.documents s.owner).WellFormedAt (.string s.field) := by
  have hstart : Inv (Names (answers p source engine steps)) { engine, documents } := ⟨List.forall_mem_nil _, h⟩
  obtain ⟨d, hrun, hanswered, hinv⟩ := hstart.run hp hr fun s hs => names_of_isPrefix hinit hs
  exact ⟨d, hrun, hanswered, hinv.documents⟩

/-- A company becomes a sponsor of an event, and the event is mended from a page with a gap on which the company
stands twice; the operations arrive late, out of order and more than once. -/
def sponsorRedelivered : List Step :=
  let graph := World.companyAndEvent.graph
  let sponsors : PageKey := (.int 2, .string "sponsors", .string "company")
  let full := { graph with pages := [(sponsors, .list [.int 1, .null, .int 1])] }
  [.ask (.edge graph.store ⟨⟨.id (.int 1), .id (.string "2"), .string "sponsors", .null⟩, true⟩),
    .ask (.reproject full.store { id := 2, type := .string "event" }),
    .carry 2, .carry 1, .carry 1, .carry 0, .carry 2]

theorem run_wellFormed_sponsorRedelivered :
    Names (answers {} (some [.between "sponsors" "event" "company"]) {} sponsorRedelivered)
        ⟨2, "related_sponsors_company"⟩ ∧
      ∃ d, run {} (some [.between "sponsors" "event" "company"]) { documents := fun _ => [] } sponsorRedelivered =
          .ok d ∧ (d.documents 2).WellFormedAt (.string "related_sponsors_company") := by
  have hcompany : FieldKey.identifierOf "company" = "company" := FieldKey.identifierOf_eq_self (by decide)
  have hsponsors : FieldKey.identifierOf "sponsors" = "sponsors" := FieldKey.identifierOf_eq_self (by decide)
  have hops : Projector.edgeOperations {} .upsert (.string "sponsors") { id := 1, type := .string "company" }
      { id := 2, type := .string "event" } = .ok _ :=
    Projector.edgeOperations_eq_ok (Value.isText_string _) (Value.isText_string _) (Value.isText_string _) rfl rfl
  obtain ⟨e, hedge, -⟩ := @Engine.outcome_edge {} _ World.companyAndEvent.graph.store .upsert
    ⟨.id (.int 1), .id (.string "2"), .string "sponsors", .null⟩ _ {} rfl Catalogue.load_sponsors (.inl rfl) rfl
    (by simp [Catalogue.find?]) _ _ rfl rfl _ hops
  have hnames : Names (answers {} (some [.between "sponsors" "event" "company"]) {} sponsorRedelivered)
      ⟨2, "related_sponsors_company"⟩ := by
    refine ⟨Projector.operationOn {} .upsert (.string "sponsors") { id := 2, type := .string "event" }
      { id := 1, type := .string "company" } (.object (Entity.summary { id := 1, type := .string "company" })),
      List.mem_append_left _ ?_, rfl, ?_⟩
    · rw [Call.ask, EdgeChange.action, if_pos rfl, hedge]
      exact List.mem_map.2 ⟨_, List.mem_cons_of_mem _ (List.mem_singleton.2 rfl), rfl⟩
    · simp [Projector.operationOn, FieldKey.body, FieldKey.textPart, FieldKey.defaultStem, hcompany, hsponsors]
  obtain ⟨d, hrun, -, hfields⟩ := @run_wellFormed {} (some [.between "sponsors" "event" "company"]) rfl rfl {}
    (fun _ => []) sponsorRedelivered (fun _ _ => ⟨[], rfl, Value.distinct_nil⟩) _
    (List.prefix_refl _)
  exact ⟨hnames, d, hrun, hfields _ hnames⟩

end Delivery

end EdgeFields
