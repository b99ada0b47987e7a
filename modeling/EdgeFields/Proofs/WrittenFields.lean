import EdgeFields.Proofs.Links
import EdgeFields.Proofs.EdgeOperations
import EdgeFields.Proofs.FieldReport

/-!
# Fields that edges write

An engine lets every event of a known relationship pass, whatever the types of its two entities are.  Where a
definition of that name joins the two types, each operation writes the field of its own name and type, which is
mapped and which no other relationship writes; where none does, some operation writes a field that documents of its
type cannot have or that belongs to another pair (`edge_ownField_iff`).
-/

namespace EdgeFields

/-! ### Field keys of a type -/

namespace Projector

/-- An entity type has one field key for every pair that it is related to. -/
theorem fieldKeysFor_eq (p : Projector) {ds : List Definition} (hds : Loaded ds) {type : Value} (ht : type.IsText) :
    p.fieldKeysFor ds type = .ok ((Catalogue.relatedPairs ds type).map fun r => p.stem ++ FieldKey.body r) := by
  have hkeys : (Catalogue.relatedPairs ds type).mapM (fun r => FieldKey.derive p.stem r.1 r.2) =
      .ok ((Catalogue.relatedPairs ds type).map fun r => p.stem ++ FieldKey.body r) := by
    apply mapM_eq_ok
    intro r hr
    have hr' := hds.inTexts_of_mem_relatedPairs ht hr
    exact FieldKey.derive_eq_ok p.stem hr'.1 hr'.2
  rw [fieldKeysFor, hkeys, ok_bind]
  exact congrArg Except.ok (foldl_addNew_of_nodup (hds.nodup_keys ht p.stem))

/-- The field keys of an entity type are those of the pairs that it is related to. -/
private theorem fieldKeysFor_eq_ok (p : Projector) {ds : List Definition} (hds : Loaded ds) {type : Value}
    (ht : type.IsText) :
    ∃ ks, p.fieldKeysFor ds type = .ok ks ∧
      ∀ k, k ∈ ks ↔ ∃ r ∈ Catalogue.relatedPairs ds type, p.stem ++ FieldKey.body r = k :=
  ⟨_, p.fieldKeysFor_eq hds ht, fun _ => List.mem_map⟩

end Projector

/-! ### Mapped fields -/

namespace Schema

/-- Loaded definitions have the same mapping for the field of each of their pairs, and for nothing else. -/
theorem properties_eq_ok (stem : String) {ds : List Definition} (hds : Loaded ds) :
    ∃ keys : List Key,
      (Schema.properties { stem } (ds.map .definition)).result = .ok (keys.map fun k => (k, fieldMapping)) ∧
        ∀ k, k ∈ keys ↔ ∃ r ∈ FieldKey.pairs ds, k = .string (stem ++ FieldKey.body r) := by
  have hpairs : Discernible (FieldKey.pairs ds) :=
    FieldKey.discernible_of_inTexts fun r hr => FieldKey.inTexts_of_mem_pairs hds.textual hr
  have hread : (ds.map Declaration.definition).mapM Definition.coerce = .ok ds := by
    rw [List.mapM_map]
    exact (mapM_eq_ok fun d _ => rfl).trans (by rw [List.map_id'])
  have hapart : FieldKey.Apart (FieldKey.pairs ds).eraseDups := by
    simpa only [FieldKey.Apart, hpairs.mem_eraseDups] using hds.apart
  have hfields := fields_result { stem } rfl hread hds.textual rfl
  rw [if_pos ((FieldKey.nodup_map_key_iff hpairs.nodup_eraseDups).2 hapart)] at hfields
  refine ⟨(FieldKey.pairs ds).eraseDups.map fun r => .string (stem ++ FieldKey.body r), ?_, fun k => ?_⟩
  · rw [properties]
    simp only [Report.result_bind, hfields, ok_bind, Report.result_lift, defaultMapping, Hooks.adjust,
      Report.result_mapM]
    exact mapM_eq_ok fun k _ => rfl
  · simp only [List.mem_map, hpairs.mem_eraseDups, eq_comm]

/-- The fields of the pairs of loaded definitions are mapped, each as a nested one, and no others. -/
private theorem properties_result (stem : String) {ds : List Definition} (hds : Loaded ds) :
    ∃ properties, (Schema.properties { stem } (ds.map .definition)).result = .ok properties ∧
      (∀ r ∈ FieldKey.pairs ds, properties.lookup (.string (stem ++ FieldKey.body r)) = some fieldMapping) ∧
      ∀ s, (∀ r ∈ FieldKey.pairs ds, s ≠ stem ++ FieldKey.body r) → properties.lookup (.string s) = none := by
  obtain ⟨keys, hproperties, hmem⟩ := properties_eq_ok stem hds
  refine ⟨_, hproperties, fun r hr => ?_, fun s hs => ?_⟩
  · have hk : Key.string (stem ++ FieldKey.body r) ∈ keys := (hmem _).2 ⟨r, hr, rfl⟩
    clear hproperties hmem
    induction keys with
    | nil => cases hk
    | cons k keys ih =>
      rw [List.map_cons, List.lookup_cons]
      split
      · rfl
      · next hne =>
        refine ih ((List.mem_cons.1 hk).resolve_left ?_)
        rintro rfl
        simp at hne
  · rw [List.lookup_eq_none_iff]
    intro q hq
    obtain ⟨k, hk, rfl⟩ := List.mem_map.1 hq
    rw [bne, Bool.not_eq_true', ← Bool.not_eq_true]
    intro heq
    obtain ⟨r, hr, hkey⟩ := (hmem k).1 hk
    obtain rfl := Key.beq_string_left.1 heq
    exact hs r hr (Key.string.inj hkey)

end Schema

/-! ### The fields of one event -/

/-- A key that documents of a type can have, and that among the pairs of the type belongs to this one only. -/
def Projector.OwnField (p : Projector) (ds : List Definition) (type : Value) (r : Related) (k : Value) : Prop :=
  (∃ ks s, p.fieldKeysFor ds type = .ok ks ∧ s ∈ ks ∧ k = .string s) ∧
    ∀ r' ∈ Catalogue.relatedPairs ds type, k = .string (p.stem ++ FieldKey.body r') → r' = r

/-- An operation on the document of one of two entities that writes the field of its own name and type there. -/
def Projector.WritesOwnField (p : Projector) (ds : List Definition) (name : Value) (x y : Entity)
    (item : BatchItem) : Prop :=
  ∃ op owner other, item = .operation op ∧ ((owner = x ∧ other = y) ∨ (owner = y ∧ other = x)) ∧
    op.owner = .int owner.id ∧ p.OwnField ds owner.type (name, other.type) op.field

section OwnField

variable {p : Projector} {ds : List Definition} (hds : Loaded ds) {type : Value} (ht : type.IsText) {r : Related}
include hds ht

private theorem Projector.OwnField.mem {k : Value} (h : p.OwnField ds type r k) :
    r ∈ Catalogue.relatedPairs ds type := by
  obtain ⟨⟨ks, s, hks, hs, rfl⟩, huniq⟩ := h
  obtain ⟨ks', hks', hmem⟩ := p.fieldKeysFor_eq_ok hds ht
  obtain rfl := Except.ok.inj (hks.symm.trans hks')
  obtain ⟨r', hr', hkey⟩ := (hmem s).1 hs
  exact huniq r' hr' (by rw [hkey]) ▸ hr'

private theorem Projector.ownField (hr : r ∈ Catalogue.relatedPairs ds type) :
    p.OwnField ds type r (.string (p.stem ++ FieldKey.body r)) := by
  obtain ⟨ks, hks, hmem⟩ := p.fieldKeysFor_eq_ok hds ht
  refine ⟨⟨ks, _, hks, (hmem _).2 ⟨r, hr, rfl⟩, rfl⟩, fun r' hr' hk => ?_⟩
  exact hds.eq_of_body_eq ht hr' hr (FieldKey.stem_append_inj.1 (Value.string.inj hk)).symm

end OwnField

namespace Engine

/-- Whether an engine with these definitions can answer an event with these items. -/
def Answers (p : Projector) (source : Source) (store : Store) (ds : List Definition) (action : Action)
    (ev : EdgeEvent) (items : List BatchItem) : Prop :=
  ∃ e e' : Engine, e.catalogue.Holds ds ∧ (edge p source store action ev).outcome e = (e', .ok items)

variable {p : Projector} {source : Source} {store : Store} {ds : List Definition} {action : Action} {ev : EdgeEvent}
  {items : List BatchItem}

/-- Every operation that an engine answers is on the document of one of the two entities, and its field is that for
the name of the event and the type of the other one. -/
private theorem Answers.operations (hh : p.hooks.relationshipData = none)
    (hl : (Catalogue.load p.hooks source).result = .ok ds) (hds : Loaded ds)
    (hs : ∀ n x, store.entity n = some x → x.type.IsText)
    (h : Answers p source store ds action ev items) (hne : items ≠ []) :
    ev.name.IsText ∧ ∃ x y, ev.a.resolve store = .ok (some x) ∧ ev.b.resolve store = .ok (some y) ∧
      x.type.IsText ∧ y.type.IsText ∧ ∀ item ∈ items, ∃ owner other v,
        ((owner = x ∧ other = y) ∨ (owner = y ∧ other = x)) ∧
          item = .operation (p.operationOn action ev.name owner other v) := by
  obtain ⟨e, e', hc, h⟩ := h
  obtain ⟨-, hnil | ⟨hname, x, y, ops, hx, hy, hops, rfl⟩⟩ := edge_cases hh hl hc h
  · exact absurd hnil hne
  obtain ⟨d, hd, hn⟩ := (Catalogue.find?_isSome_iff hds).1 hname
  have hname' : ev.name.IsText := hn ▸ (hds.textual d hd).name
  obtain ⟨_, hx'⟩ := Endpoint.exists_of_resolve hx
  obtain ⟨_, hy'⟩ := Endpoint.exists_of_resolve hy
  refine ⟨hname', x, y, hx, hy, hs _ x hx', hs _ y hy', fun item hitem => ?_⟩
  obtain ⟨op, hop, rfl⟩ := List.mem_map.1 hitem
  rcases Projector.mem_edgeOperations hname' (hs _ x hx') (hs _ y hy') hops hop with ⟨v, rfl⟩ | ⟨v, rfl⟩
  · exact ⟨x, y, v, .inl ⟨rfl, rfl⟩, rfl⟩
  · exact ⟨y, x, v, .inr ⟨rfl, rfl⟩, rfl⟩

section Loaded

variable (hh : p.hooks.relationshipData = none) (hl : (Catalogue.load p.hooks source).result = .ok ds)
  (hds : Loaded ds) (hs : ∀ n x, store.entity n = some x → x.type.IsText)
include hh hl hds hs

/-- The operations of an event whose entities a definition joins are for pairs of the definitions. -/
private theorem Answers.exists_pair (h : Answers p source store ds action ev items) {x y : Entity}
    (hj : ev.Joins ds store x y) {item : BatchItem} (hitem : item ∈ items) :
    ∃ op r, item = .operation op ∧ r ∈ FieldKey.pairs ds ∧ r.1 = ev.name ∧
      op.field = .string (p.stem ++ FieldKey.body r) := by
  obtain ⟨-, x', y', hx, hy, htx, hty, hops⟩ := h.operations hh hl hds hs (List.ne_nil_of_mem hitem)
  obtain rfl := Option.some.inj (Except.ok.inj (hx.symm.trans hj.first))
  obtain rfl := Option.some.inj (Except.ok.inj (hy.symm.trans hj.second))
  obtain ⟨owner, other, v, hends, rfl⟩ := hops item hitem
  refine ⟨_, (ev.name, other.type), rfl, ?_, rfl, rfl⟩
  rcases hends with ⟨rfl, rfl⟩ | ⟨rfl, rfl⟩
  · exact hds.mem_pairs_of_mem_relatedPairs htx ((Catalogue.mem_relatedPairs hds.textual htx).2 hj.types)
  · exact hds.mem_pairs_of_mem_relatedPairs hty ((Catalogue.mem_relatedPairs hds.textual hty).2 hj.types.symm)

/-- Every operation of an event writes the field of its own pair exactly if a definition joins the two entities. -/
private theorem Answers.joins_iff (h : Answers p source store ds action ev items) (hne : items ≠ []) {x y : Entity}
    (hx : ev.a.resolve store = .ok (some x)) (hy : ev.b.resolve store = .ok (some y)) :
    ev.Joins ds store x y ↔ ∀ item ∈ items, p.WritesOwnField ds ev.name x y item := by
  obtain ⟨-, x', y', hx', hy', htx, hty, hops⟩ := h.operations hh hl hds hs hne
  obtain rfl := Option.some.inj (Except.ok.inj (hx.symm.trans hx'))
  obtain rfl := Option.some.inj (Except.ok.inj (hy.symm.trans hy'))
  constructor
  · intro hj item hitem
    obtain ⟨owner, other, v, hends, rfl⟩ := hops item hitem
    refine ⟨_, owner, other, rfl, hends, rfl, ?_⟩
    rcases hends with ⟨rfl, rfl⟩ | ⟨rfl, rfl⟩
    · exact Projector.ownField hds htx ((Catalogue.mem_relatedPairs hds.textual htx).2 hj.types)
    · exact Projector.ownField hds hty ((Catalogue.mem_relatedPairs hds.textual hty).2 hj.types.symm)
  · intro hown
    -- One operation is enough: its field belongs to the pair of the two types.
    obtain ⟨item, hitem⟩ := List.exists_mem_of_ne_nil _ hne
    obtain ⟨op, owner, other, -, hends, -, hfield⟩ := hown item hitem
    refine ⟨hx, hy, ?_⟩
    rcases hends with ⟨rfl, rfl⟩ | ⟨rfl, rfl⟩
    · exact (Catalogue.mem_relatedPairs hds.textual htx).1 (hfield.mem hds htx)
    · exact ((Catalogue.mem_relatedPairs hds.textual hty).1 (hfield.mem hds hty)).symm

end Loaded

/-- Edge events write mapped fields that no other relationship writes exactly where a definition joins their
entities.  An engine answers events of every known name, whatever the types of the two entities are.  If a
definition of that name joins the types, each operation writes the field of its own pair, the field is mapped, and
no operation of such an event of another name writes it; otherwise some operation writes a field that documents of
its type cannot have, or one of another pair. -/
theorem edge_ownField_iff (hr : p.hooks.relationships = none) (hh : p.hooks.relationshipData = none)
    (hd : ∀ d ∈ source.getD [], d.Textual) (hs : ∀ n x, store.entity n = some x → x.type.IsText) :
    ∃ ds, (Catalogue.load p.hooks source).result = .ok ds ∧
      (∀ action ev items, Answers p source store ds action ev items → items ≠ [] →
        ∃ x y, ev.a.resolve store = .ok (some x) ∧ ev.b.resolve store = .ok (some y) ∧
          (ev.Joins ds store x y ↔ ∀ item ∈ items, p.WritesOwnField ds ev.name x y item)) ∧
      (∃ properties, (Schema.properties { stem := p.stem } (ds.map .definition)).result = .ok properties ∧
        ∀ action ev items, Answers p source store ds action ev items → ∀ x y, ev.Joins ds store x y →
          ∀ item ∈ items, ∃ op s, item = .operation op ∧ op.field = .string s ∧
            properties.lookup (.string s) = some Schema.fieldMapping) ∧
      ∀ action ev items, Answers p source store ds action ev items → ∀ x y, ev.Joins ds store x y →
        ∀ action' ev' items', Answers p source store ds action' ev' items' → ∀ x' y', ev'.Joins ds store x' y' →
          ev.name ≠ ev'.name → ∀ item ∈ items, ∀ item' ∈ items', item.field ≠ item'.field := by
  obtain ⟨ds, hl, hds⟩ := Catalogue.load_loaded hr hd
  obtain ⟨properties, hprops, hmapped, -⟩ := Schema.properties_result p.stem hds
  refine ⟨ds, hl, ?_, ⟨properties, hprops, ?_⟩, ?_⟩
  · intro action ev items h hne
    obtain ⟨-, x, y, hx, hy, -⟩ := h.operations hh hl hds hs hne
    exact ⟨x, y, hx, hy, h.joins_iff hh hl hds hs hne hx hy⟩
  · intro action ev items h x y hj item hitem
    obtain ⟨op, r, hop, hpair, -, hfield⟩ := h.exists_pair hh hl hds hs hj hitem
    exact ⟨op, _, hop, hfield, hmapped r hpair⟩
  · intro action ev items h x y hj action' ev' items' h' x' y' hj' hne item hitem item' hitem' heq
    obtain ⟨op, r, rfl, hpair, hname, hfield⟩ := h.exists_pair hh hl hds hs hj hitem
    obtain ⟨op', r', rfl, hpair', hname', hfield'⟩ := h'.exists_pair hh hl hds hs hj' hitem'
    have hkey : Value.string (p.stem ++ FieldKey.body r) = .string (p.stem ++ FieldKey.body r') := by
      rw [← hfield, ← hfield']
      exact Except.ok.inj heq
    have hrr := hds.apart r hpair r' hpair' (FieldKey.stem_append_inj.1 (Value.string.inj hkey))
    exact hne (by rw [← hname, ← hname', hrr])

/-- An event. -/
def fair : Entity := { id := 1, type := .string "event" }

/-- A person. -/
def visitor : Entity := { id := 2, type := .string "person" }

/-- An event and a person. -/
def eventAndPerson : Graph := .ofEntities [fair, visitor]

theorem edge_ownField_iff_sponsors :
    ∃ ds, (Catalogue.load {} (some [.between "sponsors" "event" "company"])).result = .ok ds ∧
      ∀ items, Answers {} (some [.between "sponsors" "event" "company"]) eventAndPerson.store ds .upsert
          ⟨.id (.int 1), .id (.int 2), .string "sponsors", .null⟩ items → items ≠ [] →
        ∃ x y, (EdgeEvent.Joins ds eventAndPerson.store ⟨.id (.int 1), .id (.int 2), .string "sponsors", .null⟩ x y ↔
          ∀ item ∈ items, Projector.WritesOwnField {} ds (.string "sponsors") x y item) := by
  obtain ⟨ds, hl, hevents, -⟩ := @edge_ownField_iff {} (some [.between "sponsors" "event" "company"])
    eventAndPerson.store rfl rfl (by simpa using Declaration.textual_between _ _ _)
    fun n x hx => ((Graph.keyed_ofEntities (by simp [fair, visitor, Value.isText_string])).entity n x hx).2
  refine ⟨ds, hl, fun items h hne => ?_⟩
  obtain ⟨x, y, -, -, hiff⟩ := hevents _ _ items h hne
  exact ⟨x, y, hiff⟩

/-- The relationship between events and companies takes an edge between an event and a person, and writes a field that
documents of events cannot have. -/
theorem edge_unmapped :
    ∃ ds, (Catalogue.load {} (some [.between "sponsors" "event" "company"])).result = .ok ds ∧
      ∃ items, Answers {} (some [.between "sponsors" "event" "company"]) eventAndPerson.store ds .upsert
          ⟨.id (.int 1), .id (.int 2), .string "sponsors", .null⟩ items ∧
        ∃ op s ks properties, .operation op ∈ items ∧ op.owner = .int 1 ∧ op.field = .string s ∧
          Projector.fieldKeysFor {} ds (.string "event") = .ok ks ∧ s ∉ ks ∧
          (Schema.properties {} (ds.map .definition)).result = .ok properties ∧
          properties.lookup (.string s) = none := by
  have hevent : FieldKey.identifierOf "event" = "event" := FieldKey.identifierOf_eq_self (by decide)
  have hcompany : FieldKey.identifierOf "company" = "company" := FieldKey.identifierOf_eq_self (by decide)
  have hperson : FieldKey.identifierOf "person" = "person" := FieldKey.identifierOf_eq_self (by decide)
  have hload := Catalogue.load_single {} rfl "sponsors" "event" "company" (by simp) (by simp) (by simp)
    (by simp [hevent, hcompany])
  obtain ⟨ds, hl, hds⟩ := @Catalogue.load_loaded {} rfl (some [.between "sponsors" "event" "company"])
    (by simpa using Declaration.textual_between _ _ _)
  obtain rfl := Except.ok.inj (hload.symm.trans hl)
  have hops : Projector.edgeOperations {} .upsert (.string "sponsors") fair visitor = .ok
      [Projector.operationOn {} .upsert (.string "sponsors") fair visitor (.object visitor.summary),
        Projector.operationOn {} .upsert (.string "sponsors") visitor fair (.object fair.summary)] :=
    (Projector.edgeOperations_eq_ok (Value.isText_string _) (Value.isText_string _) (Value.isText_string _) rfl
      rfl).trans (by rw [if_neg (by simp [fair, visitor])])
  obtain ⟨e', hedge, -⟩ := @outcome_edge {} _ eventAndPerson.store .upsert
    ⟨.id (.int 1), .id (.int 2), .string "sponsors", .null⟩ _ {} rfl hl (.inl rfl) rfl
    ((Catalogue.find?_isSome_iff hds).2 ⟨_, List.mem_singleton.2 rfl, rfl⟩) fair visitor rfl rfl _ hops
  obtain ⟨ks, hks, hmem⟩ := Projector.fieldKeysFor_eq_ok {} hds (Value.isText_string "event")
  obtain ⟨properties, hprops, -, hnone⟩ := Schema.properties_result FieldKey.defaultStem hds
  refine ⟨_, hl, _, ⟨_, _, .inl rfl, hedge⟩, _, _, ks, properties, List.mem_cons_self .., rfl, rfl, hks, ?_, hprops,
    hnone _ ?_⟩
  · rw [hmem]
    rintro ⟨⟨n, t⟩, hr, hkey⟩
    obtain ⟨d, hd, rfl, hside⟩ := (Catalogue.mem_relatedPairs hds.textual (Value.isText_string "event")).1 hr
    obtain rfl := List.mem_singleton.1 hd
    simp at hside
    subst hside
    simp [FieldKey.body, FieldKey.textPart, visitor, hcompany, hperson] at hkey
  · rintro ⟨n, t⟩ hr
    obtain ⟨d, hd, -, rfl, hside⟩ := (FieldKey.mem_pairs hds.textual).1 hr
    obtain rfl := List.mem_singleton.1 hd
    simp at hside
    rcases hside with rfl | rfl <;>
      simp [FieldKey.body, FieldKey.textPart, visitor, hcompany, hperson, hevent]

end Engine

end EdgeFields
