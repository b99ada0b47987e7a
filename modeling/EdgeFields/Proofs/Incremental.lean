import EdgeFields.Proofs.FieldChange
import EdgeFields.Proofs.FullIndex

/-!
# Incremental indexing

Documents that follow the edges one by one hold the same relationship fields as documents that are computed from the
whole graph.  A `World` has the entities, the links between them and the documents; `World.follow` carries one change
of an edge into all of it.  What every step preserves is that a field lists exactly the entities that the links of the
graph join to its owner, in the order of the links (`World.InStep`); `run_eq_fullIndex` follows by induction on the
run.
-/

namespace EdgeFields

/-- An edge event, and whether its edge was added or removed. -/
structure EdgeChange where
  event : EdgeEvent
  added : Bool

/-- What an engine does to the documents of an edge. -/
def EdgeChange.action (c : EdgeChange) : Action := if c.added then .upsert else .remove

/-- An engine, a graph of entities, and the document of each entity by its number. -/
structure World where
  engine : Engine := {}
  graph : Graph
  documents : Int → Document

namespace World

/-- Carries out an item of a batch on the document that it is for. -/
def carry (documents : Int → Document) (item : BatchItem) : Except Fault (Int → Document) := do
  let id ← (← item.owner).toInteger
  let (doc, changed) := (Document.carryOut item).outcome (documents id)
  let _ ← changed
  return fun n => if n = id then doc else documents n

/-- Follows a change of an edge: the engine is asked for the operations, they are carried out in order, and the link
is added or all links of that name between the two entities are cut. -/
def follow (p : Projector) (source : Source) (w : World) (c : EdgeChange) : Except Fault World := do
  let (engine, items) := (Engine.edge p source w.graph.store c.action c.event).outcome w.engine
  let documents ← (← items).foldlM carry w.documents
  match ← c.event.a.resolve w.graph.store, ← c.event.b.resolve w.graph.store with
  | some x, some y => return ⟨engine, w.graph.relink c.added x.id y.id c.event.name, documents⟩
  | _, _ => return ⟨engine, w.graph, documents⟩

/-- Follows changes one after another. -/
def run (p : Projector) (source : Source) (w : World) (cs : List EdgeChange) : Except Fault World :=
  cs.foldlM (follow p source) w

end World

/-! ### One operation -/

/-- The key of the field for a name and a type. -/
def Projector.keyOf (p : Projector) (r : Related) : Key := .string (p.stem ++ FieldKey.body r)

private theorem Loaded.keyOf_ne {ds : List Definition} (h : Loaded ds) {type : Value} (ht : type.IsText)
    (p : Projector)
    {r r' : Related} (hr : r ∈ Catalogue.relatedPairs ds type) (hr' : r' ∈ Catalogue.relatedPairs ds type)
    (hne : r ≠ r') : (p.keyOf r == p.keyOf r') = false := by
  rw [Projector.keyOf, Projector.keyOf, Key.beq_string, beq_eq_false_iff_ne]
  exact fun hb => hne (h.eq_of_body_eq ht hr hr' (FieldKey.stem_append_inj.1 hb))

theorem World.carry_operation {op : Operation} {k : Key} {a : Action} (h : op.Plain k a) {id : Int}
    (ho : op.owner = .int id) {documents : Int → Document} (hf : (documents id).PlainField k) :
    carry documents (.operation op) =
      .ok fun n => if n = id then (documents id).after op else documents n := by
  obtain ⟨changed, happly, -⟩ := Document.outcome_apply h hf
  simp only [carry, BatchItem.owner, ho, ok_bind, Value.toInteger_int, Document.carryOut, happly, pure_eq_ok]

section Operation

variable {p : Projector} {g : Graph} (hk : p.KeepsIds g)
include hk

private theorem Projector.KeepsIds.isObject {e : Entity} (he : g.find? (.int e.id) = some e) :
    (p.embedded e).IsObject := by
  obtain ⟨ms, hms, -⟩ := hk e he
  exact ⟨ms, by rw [embedded, hms]; rfl⟩

private theorem Projector.KeepsIds.subject_eq {e : Entity} (he : g.find? (.int e.id) = some e) :
    (p.embedded e).subject = .int e.id := by
  obtain ⟨ms, hms, hid⟩ := hk e he
  have : p.embedded e = .object ms := by rw [embedded, hms]; rfl
  rw [this, Value.subject, hid]
  rfl

private theorem Projector.KeepsIds.isObject_of_mem {es : List Entity} (hes : ∀ e ∈ es, g.find? (.int e.id) = some e)
    {v : Value} (hv : v ∈ es.map p.embedded) : v.IsObject := by
  obtain ⟨e, he, rfl⟩ := List.mem_map.1 hv
  exact hk.isObject (hes e he)

variable {other : Entity} (ho : g.find? (.int other.id) = some other) {es : List Entity}
  (hes : ∀ e ∈ es, g.find? (.int e.id) = some e)
include ho

private theorem Projector.KeepsIds.plain (c : EdgeChange) (name : Value) (owner : Entity) :
    (p.operationOn c.action name owner other (p.embedded other)).Plain (p.keyOf (name, other.type)) c.action where
  field := rfl
  action := rfl
  projection _ := hk.isObject ho
  projections h := by
    unfold EdgeChange.action at h
    split at h <;> contradiction

include hes

/-- An operation of an edge lists the other entity in its field, or takes it away. -/
private theorem Projector.KeepsIds.keeps_after (c : EdgeChange) (name : Value) (owner : Entity) {doc : Document}
    (hd : doc.Keeps (p.keyOf (name, other.type)) (es.map p.embedded)) :
    (doc.after (p.operationOn c.action name owner other (p.embedded other))).Keeps (p.keyOf (name, other.type))
      ((Graph.relist c.added es other).map p.embedded) := by
  have hobj : ∀ v ∈ es.map p.embedded, v.IsObject := fun v hv => hk.isObject_of_mem hes hv
  -- Items are told apart by the numbers of their entities, because the embedding keeps these.
  have hequal : ∀ e ∈ es, (p.embedded e).subject.equal (p.embedded other).subject = (e.id == other.id) := by
    intro e he
    rw [hk.subject_eq (hes e he), hk.subject_eq ho, Value.equal_int]
  have hplain := hk.plain ho c name owner
  cases hadded : c.added with
  | true =>
    have hact : c.action = .upsert := by simp [EdgeChange.action, hadded]
    have hany : ((es.map p.embedded).any fun v => v.subject.equal (p.embedded other).subject) =
        es.any (·.id == other.id) := by
      rw [List.any_map, Bool.eq_iff_iff, List.any_eq_true, List.any_eq_true]
      constructor
      · rintro ⟨e, he, h⟩
        exact ⟨e, he, (hequal e he).symm.trans h⟩
      · rintro ⟨e, he, h⟩
        exact ⟨e, he, (hequal e he).trans h⟩
    rw [hact] at hplain ⊢
    have hkeeps := Document.keeps_upsert hplain hd hobj
    have hlisted : (Projector.listed es other).map p.embedded =
        if es.any (·.id == other.id) then es.map p.embedded else es.map p.embedded ++ [p.embedded other] := by
      rw [Projector.listed]
      split <;> simp
    rw [Graph.relist, if_pos rfl, hlisted, ← hany]
    exact hkeeps
  | false =>
    have hact : c.action = .remove := by simp [EdgeChange.action, hadded]
    have hfilter : (es.map p.embedded).filter (fun v => !v.subject.equal (p.embedded other).subject) =
        (es.filter fun e => !(e.id == other.id)).map p.embedded := by
      rw [List.filter_map]
      congr 1
      apply List.filter_congr
      intro e he
      rw [Function.comp_apply, hequal e he]
    rw [hact] at hplain ⊢
    have hkeeps := Document.keeps_remove hplain hd hobj
    rw [Graph.relist, if_neg (by simp), ← hfilter]
    exact hkeeps

/-- An operation of an edge reaches the document of its owner and no other. -/
private theorem World.carry_operationOn (c : EdgeChange) (name : Value) (owner : Entity) {documents : Int → Document}
    (hd : (documents owner.id).Keeps (p.keyOf (name, other.type)) (es.map p.embedded)) :
    ∃ documents', carry documents (.operation (p.operationOn c.action name owner other (p.embedded other))) =
        .ok documents' ∧
      (documents' owner.id).Keeps (p.keyOf (name, other.type)) ((Graph.relist c.added es other).map p.embedded) ∧
      (∀ n, n ≠ owner.id → documents' n = documents n) ∧
      ∀ k, (k == p.keyOf (name, other.type)) = false →
        (documents' owner.id).lookup k = (documents owner.id).lookup k := by
  have hplain := hk.plain ho c name owner
  have hfield := hd.plainField fun v hv => hk.isObject_of_mem hes hv
  refine ⟨_, World.carry_operation hplain rfl hfield, ?_, fun n hn => if_neg hn, fun k hk' => ?_⟩
  · rw [if_pos rfl]
    exact hk.keeps_after ho hes c name owner hd
  · rw [if_pos rfl]
    exact Document.lookup_after_of_ne hplain hfield hk'

end Operation

/-! ### One change -/

private theorem Endpoint.find?_of_resolve {g : Graph} (hg : g.Keyed) {tip : Endpoint} {x : Entity}
    (h : tip.resolve g.store = .ok (some x)) : g.find? (.int x.id) = some x := by
  obtain ⟨n, hn⟩ := exists_of_resolve h
  rwa [(hg.entity n x hn).1]

namespace World

/-- What every step preserves: a field lists the entities that the graph joins to its owner, in order, and other
fields are as they were at first. -/
structure InStep (p : Projector) (ds : List Definition) (w w₀ : World) : Prop where
  holds : w.engine.catalogue.Holds ds
  keyed : w.graph.Keyed
  find : ∀ k, w.graph.find? k = w₀.graph.find? k
  keeps : ∀ e, w.graph.find? (.int e.id) = some e → ∀ r ∈ Catalogue.relatedPairs ds e.type,
    (w.documents e.id).Keeps (p.keyOf r) ((w.graph.listing e.id r).map p.embedded)
  frame : ∀ e, w.graph.find? (.int e.id) = some e → ∀ k,
    (∀ r ∈ Catalogue.relatedPairs ds e.type, (k == p.keyOf r) = false) →
      (w.documents e.id).lookup k = (w₀.documents e.id).lookup k

variable {p : Projector} {source : Source} {ds : List Definition}

section Step

variable {g : Graph} (hg : g.Keyed) (hk : p.KeepsIds g) {x y : Entity} (hx : g.find? (.int x.id) = some x)
  (hy : g.find? (.int y.id) = some y)
include hg hk hx hy

/-- The operations of an edge list each of its two entities in the document of the other, or take it away, and touch
nothing else. -/
private theorem carry_edgeOperations (c : EdgeChange) {name : Value} (hn : name.IsText) {documents : Int → Document}
    (hleft : (documents x.id).Keeps (p.keyOf (name, y.type)) ((g.listing x.id (name, y.type)).map p.embedded))
    (hright : (documents y.id).Keeps (p.keyOf (name, x.type)) ((g.listing y.id (name, x.type)).map p.embedded)) :
    ∃ ops documents', p.edgeOperations c.action name x y = .ok ops ∧
      (ops.map BatchItem.operation).foldlM carry documents = .ok documents' ∧
      (documents' x.id).Keeps (p.keyOf (name, y.type))
        ((Graph.relist c.added (g.listing x.id (name, y.type)) y).map p.embedded) ∧
      (documents' y.id).Keeps (p.keyOf (name, x.type))
        ((Graph.relist c.added (g.listing y.id (name, x.type)) x).map p.embedded) ∧
      ∀ n k, (n = x.id → (k == p.keyOf (name, y.type)) = false) →
        (n = y.id → (k == p.keyOf (name, x.type)) = false) → (documents' n).lookup k = (documents n).lookup k := by
  have hops : p.edgeOperations c.action name x y = .ok _ :=
    Projector.edgeOperations_eq_ok hn (hg.entity _ x hx).2 (hg.entity _ y hy).2 (hk.projection_eq hx)
      (hk.projection_eq hy)
  obtain ⟨d₁, hd₁, hkeeps₁, hother₁, hframe₁⟩ :=
    carry_operationOn hk hy (fun e he => hg.mem_listing he) c name x hleft
  by_cases hxy : x.id = y.id
  · obtain rfl := Graph.eq_of_find? hx hy hxy
    refine ⟨_, d₁, hops, ?_, hkeeps₁, hkeeps₁, ?_⟩
    · simp [(hg.entity _ x hx).2.beq_iff.2 rfl, hd₁]
    · intro n k hk' _
      by_cases hn' : n = x.id
      · rw [hn']
        exact hframe₁ k (hk' hn')
      · rw [hother₁ n hn']
  · have hright₁ : (d₁ y.id).Keeps (p.keyOf (name, x.type)) ((g.listing y.id (name, x.type)).map p.embedded) := by
      rwa [hother₁ y.id (Ne.symm hxy)]
    obtain ⟨d₂, hd₂, hkeeps₂, hother₂, hframe₂⟩ :=
      carry_operationOn hk hx (fun e he => hg.mem_listing he) c name y hright₁
    refine ⟨_, d₂, hops, ?_, by rwa [hother₂ x.id hxy], hkeeps₂, ?_⟩
    · simp [Ne.symm hxy, hd₁, hd₂]
    · intro n k hk' hk''
      by_cases hny : n = y.id
      · rw [hny, hframe₂ k (hk'' hny), hother₁ y.id (Ne.symm hxy)]
      · rw [hother₂ n hny]
        by_cases hnx : n = x.id
        · rw [hnx]
          exact hframe₁ k (hk' hnx)
        · rw [hother₁ n hnx]

end Step

/-- The documents are in step with the changed links if each of the two entities is listed or taken away where a
definition joins their types, and nothing else is touched. -/
private theorem InStep.relink (hds : Loaded ds) {w₀ w : World} (h : w.InStep p ds w₀) {added : Bool} {x y : Entity}
    (hx : w.graph.find? (.int x.id) = some x) (hy : w.graph.find? (.int y.id) = some y) {name : Value}
    (hn : name.IsText) (hpairx : (name, y.type) ∈ Catalogue.relatedPairs ds x.type)
    (hpairy : (name, x.type) ∈ Catalogue.relatedPairs ds y.type) {engine : Engine} (hc : engine.catalogue.Holds ds)
    {documents : Int → Document}
    (hleft : (documents x.id).Keeps (p.keyOf (name, y.type))
      ((Graph.relist added (w.graph.listing x.id (name, y.type)) y).map p.embedded))
    (hright : (documents y.id).Keeps (p.keyOf (name, x.type))
      ((Graph.relist added (w.graph.listing y.id (name, x.type)) x).map p.embedded))
    (hframe : ∀ n k, (n = x.id → (k == p.keyOf (name, y.type)) = false) →
      (n = y.id → (k == p.keyOf (name, x.type)) = false) → (documents n).lookup k = (w.documents n).lookup k) :
    InStep p ds ⟨engine, w.graph.relink added x.id y.id name, documents⟩ w₀ := by
  have hg := h.keyed
  refine ⟨hc, hg.relink .., fun k => by rw [← h.find, Graph.find?_relink], ?_, ?_⟩
  · intro e he r hr
    rw [Graph.find?_relink] at he
    have hte := (hg.entity _ e he).2
    dsimp only
    by_cases hA : e.id = x.id ∧ r = (name, y.type)
    · obtain ⟨hid, rfl⟩ := hA
      rw [hid, hg.listing_relink_left hx hy hn]
      exact hleft
    by_cases hB : e.id = y.id ∧ r = (name, x.type)
    · obtain ⟨hid, rfl⟩ := hB
      rw [hid, hg.listing_relink_right hx hy hn]
      exact hright
    -- Every other field has another key, because the keys of related pairs are apart.
    have hne : e.id = x.id → r ≠ (name, y.type) := fun hid hr' => hA ⟨hid, hr'⟩
    have hne' : e.id = y.id → r ≠ (name, x.type) := fun hid hr' => hB ⟨hid, hr'⟩
    rw [hg.listing_relink_of_ne hx hy hn (hds.inTexts_of_mem_relatedPairs hte hr).1 hne hne', Document.Keeps,
      hframe e.id]
    · exact h.keeps e he r hr
    · intro hid
      obtain rfl := Graph.eq_of_find? he hx hid
      exact hds.keyOf_ne hte p hr hpairx (hne rfl)
    · intro hid
      obtain rfl := Graph.eq_of_find? he hy hid
      exact hds.keyOf_ne hte p hr hpairy (hne' rfl)
  · intro e he k hkey
    rw [Graph.find?_relink] at he
    dsimp only
    rw [hframe e.id, h.frame e he k hkey]
    · intro hid
      obtain rfl := Graph.eq_of_find? he hx hid
      exact hkey _ hpairx
    · intro hid
      obtain rfl := Graph.eq_of_find? he hy hid
      exact hkey _ hpairy

/-- A change of an edge can always be followed, and keeps documents and graph in step. -/
private theorem follow_inStep (hh : p.hooks.relationshipData = none)
    (hl : (Catalogue.load p.hooks source).result = .ok ds)
    (hds : Loaded ds) {w₀ w : World} (hk : p.KeepsIds w₀.graph) (h : w.InStep p ds w₀) {c : EdgeChange} {x y : Entity}
    (hkind : Kind.ofValue c.event.kind = .ok .entityToEntity) (hc : c.event.Joins ds w.graph.store x y) :
    ∃ w', follow p source w c = .ok w' ∧ w'.InStep p ds w₀ := by
  have hg := h.keyed
  have hk' : p.KeepsIds w.graph := fun e he => hk e (by rwa [← h.find])
  have hx := Endpoint.find?_of_resolve hg hc.first
  have hy := Endpoint.find?_of_resolve hg hc.second
  have hpairx : (c.event.name, y.type) ∈ Catalogue.relatedPairs ds x.type :=
    (Catalogue.mem_relatedPairs hds.textual (hg.entity _ x hx).2).2 hc.types
  have hpairy : (c.event.name, x.type) ∈ Catalogue.relatedPairs ds y.type :=
    (Catalogue.mem_relatedPairs hds.textual (hg.entity _ y hy).2).2 hc.types.symm
  obtain ⟨d, hd, hn, -⟩ := hc.types
  have hname : c.event.name.IsText := hn ▸ (hds.textual d hd).name
  have hfound : (Catalogue.find? ds c.event.name).isSome = true := (Catalogue.find?_isSome_iff hds).2 ⟨d, hd, hn⟩
  obtain ⟨ops, documents, hops, hdocs, hleft, hright, hframe⟩ :=
    carry_edgeOperations hg hk' hx hy c hname (h.keeps x hx _ hpairx) (h.keeps y hy _ hpairy)
  obtain ⟨engine, hedge, hholds⟩ := Engine.outcome_edge hh hl h.holds hkind hfound hc.first hc.second hops
  refine ⟨⟨engine, w.graph.relink c.added x.id y.id c.event.name, documents⟩, ?_,
    h.relink hds hx hy hname hpairx hpairy hholds hleft hright hframe⟩
  simp only [follow, hedge, ok_bind, hdocs, hc.first, hc.second, pure_eq_ok]

/-! ### Whole runs -/

private theorem resolve_congr {g g' : Graph} (h : ∀ k, g.find? k = g'.find? k) (tip : Endpoint) :
    tip.resolve g.store = tip.resolve g'.store := by
  cases tip <;> simp [Endpoint.resolve, Graph.store, h]

/-- Changes of edges can always be followed, and keep documents and graph in step. -/
private theorem run_inStep (hh : p.hooks.relationshipData = none)
    (hl : (Catalogue.load p.hooks source).result = .ok ds)
    (hds : Loaded ds) {w₀ : World} (hk : p.KeepsIds w₀.graph) {cs : List EdgeChange}
    (hcs : ∀ c ∈ cs, Kind.ofValue c.event.kind = .ok .entityToEntity ∧ ∃ x y, c.event.Joins ds w₀.graph.store x y)
    {w : World} (h : w.InStep p ds w₀) :
    ∃ w', run p source w cs = .ok w' ∧ w'.InStep p ds w₀ := by
  induction cs generalizing w with
  | nil => exact ⟨w, rfl, h⟩
  | cons c cs ih =>
    obtain ⟨hkind, x, y, hc⟩ := hcs c (List.mem_cons_self ..)
    -- No step touches the entities, so the ends of the event are what they were at first.
    have hc' : c.event.Joins ds w.graph.store x y :=
      ⟨(resolve_congr h.find _).trans hc.first, (resolve_congr h.find _).trans hc.second, hc.types⟩
    obtain ⟨w₁, hfollow, h₁⟩ := follow_inStep hh hl hds hk h hkind hc'
    obtain ⟨w', hrun, h'⟩ := ih (fun c' hc' => hcs c' (List.mem_cons_of_mem _ hc')) h₁
    refine ⟨w', ?_, h'⟩
    rw [run, List.foldlM_cons, hfollow, ok_bind]
    exact hrun

/-- A world before its first edge: no document has a relationship field, and no links join related entities. -/
structure Fresh (p : Projector) (ds : List Definition) (w : World) : Prop where
  holds : w.engine.catalogue.Holds ds
  fields : ∀ e, w.graph.find? (.int e.id) = some e → ∀ r ∈ Catalogue.relatedPairs ds e.type,
    (w.documents e.id).lookup (p.keyOf r) = none
  links : ∀ e, w.graph.find? (.int e.id) = some e → ∀ r ∈ Catalogue.relatedPairs ds e.type,
    w.graph.neighbours e.id r.1 r.2 = []

private theorem Fresh.inStep {w : World} (h : w.Fresh p ds) (hg : w.graph.Keyed) : w.InStep p ds w where
  holds := h.holds
  keyed := hg
  find _ := rfl
  keeps e he r hr := by
    rw [Graph.listing, h.links e he r hr]
    exact h.fields e he r hr
  frame _ _ _ _ := rfl

variable {size : Int}

/-- A document in step with the graph is the one that the full index gives, if no page is cut. -/
private theorem InStep.lookup_eq {w w₀ : World} (h : w.InStep p ds w₀) (hw₀ : w₀.Fresh p ds) {e : Entity}
    (he : w.graph.find? (.int e.id) = some e) {fields : Fields}
    (hf : p.Filled size w.graph e.id (Catalogue.relatedPairs ds e.type) fields)
    (hpage : ∀ r ∈ Catalogue.relatedPairs ds e.type,
      (w.graph.neighbours e.id r.1 r.2).length ≤ Projector.pageLength size) (k : Key) :
    (w.documents e.id).lookup k =
      (Assoc.update (w₀.documents e.id) (Gateway.fieldRecord fields)).lookup k := by
  have he₀ : w₀.graph.find? (.int e.id) = some e := by rwa [← h.find]
  have hte := (h.keyed.entity _ e he).2
  rw [Gateway.lookup_update_fieldRecord hf.nodup]
  by_cases hkey : ∃ r ∈ Catalogue.relatedPairs ds e.type, (k == p.keyOf r) = true
  · obtain ⟨r, hr, hkr⟩ := hkey
    obtain rfl := Key.beq_string_left.1 (BEq.symm hkr)
    have hshown : p.shown size w.graph e.id r = (w.graph.listing e.id r).map p.embedded := by
      rw [Projector.shown, List.take_of_length_le (hpage r hr), Graph.listing]
    have hkeeps := h.keeps e he r hr
    rw [Document.Keeps, Projector.keyOf] at hkeeps
    have hfields := hw₀.fields e he₀ r hr
    rw [Projector.keyOf] at hfields
    rw [hkeeps, Gateway.lookup_fieldRecord, hf.found r hr, hshown, hfields]
    split <;> rfl
  · have hkey' : ∀ r ∈ Catalogue.relatedPairs ds e.type, (k == p.keyOf r) = false := by
      intro r hr
      rw [← Bool.not_eq_true]
      exact fun hkr => hkey ⟨r, hr, hkr⟩
    have hnone : (Gateway.fieldRecord fields).lookup k = none := by
      rw [List.lookup_eq_none_iff]
      intro q hq
      obtain ⟨⟨s, vs⟩, hmem, rfl⟩ := List.mem_map.1 hq
      have hfound := Assoc.lookup_of_mem hf.nodup hmem
      by_cases hs : ∃ r ∈ Catalogue.relatedPairs ds e.type, s = p.stem ++ FieldKey.body r
      · obtain ⟨r, hr, rfl⟩ := hs
        simpa [bne, Projector.keyOf] using hkey' r hr
      · rw [hf.origin s fun r hr hsr => hs ⟨r, hr, hsr⟩] at hfound
        contradiction
    rw [h.frame e he k hkey', hnone, Option.none_or]

/-- Documents that follow the edges one by one are the documents that the full index gives, for every entity whose
links under each related name and type fit in a page. -/
theorem run_eq_fullIndex (hr : p.hooks.relationships = none) (hs : p.hooks.pageSize = none)
    (he : p.hooks.relationshipData = none) (hp : p.pageSize = .int size) (hd : ∀ d ∈ source.getD [], d.Textual)
    {w : World} (hg : w.graph.Keyed) (hk : p.KeepsIds w.graph) :
    ∃ ds, (Catalogue.load p.hooks source).result = .ok ds ∧
      ∀ cs : List EdgeChange, w.Fresh p ds →
        (∀ c ∈ cs, Kind.ofValue c.event.kind = .ok .entityToEntity ∧ ∃ x y, c.event.Joins ds w.graph.store x y) →
        ∃ w', run p source w cs = .ok w' ∧ ∀ e, w'.graph.find? (.int e.id) = some e →
          ∃ engine fields, (Engine.fullIndex p source w'.graph.store e).outcome w'.engine = (engine, .ok fields) ∧
            ((∀ r ∈ Catalogue.relatedPairs ds e.type,
                (w'.graph.neighbours e.id r.1 r.2).length ≤ Projector.pageLength size) →
              ∀ k, (w'.documents e.id).lookup k =
                (Assoc.update (w.documents e.id) (Gateway.fieldRecord fields)).lookup k) := by
  obtain ⟨ds, hl, hds⟩ := Catalogue.load_loaded hr hd
  refine ⟨ds, hl, fun cs hw hcs => ?_⟩
  obtain ⟨w', hrun, h'⟩ := run_inStep he hl hds hk hcs (hw.inStep hg)
  refine ⟨w', hrun, fun e hfind => ?_⟩
  have hk' : p.KeepsIds w'.graph := fun e he => hk e (by rwa [← h'.find])
  obtain ⟨engine, fields, hfull, hfilled, -⟩ :=
    Engine.outcome_fullIndex hs hp h'.keyed hk' hl hds h'.holds (h'.keyed.entity _ e hfind).2
  exact ⟨engine, fields, hfull, h'.lookup_eq hw hfind hfilled⟩

/-- A company and an event, not joined yet, with empty documents. -/
def companyAndEvent : World where
  graph := .ofEntities [{ id := 1, type := .string "company" }, { id := 2, type := .string "event" }]
  documents _ := []

theorem run_sponsors_eq_fullIndex :
    ∃ w', run {} (some [.between "sponsors" "company" "event"]) companyAndEvent
        [⟨⟨.id (.int 1), .id (.string "2"), .string "sponsors", .null⟩, true⟩] = .ok w' ∧
      ∀ e, w'.graph.find? (.int e.id) = some e →
        ∃ engine fields, (Engine.fullIndex {} (some [.between "sponsors" "company" "event"]) w'.graph.store e).outcome
            w'.engine = (engine, .ok fields) ∧
          ((∀ r ∈ Catalogue.relatedPairs [⟨.string "sponsors", [.string "company"], [.string "event"]⟩] e.type,
              (w'.graph.neighbours e.id r.1 r.2).length ≤ Projector.pageLength 100) →
            ∀ k, (w'.documents e.id).lookup k = (Assoc.update [] (Gateway.fieldRecord fields)).lookup k) := by
  have hne : FieldKey.identifierOf "company" ≠ FieldKey.identifierOf "event" := by
    rw [FieldKey.identifierOf_eq_self (by decide), FieldKey.identifierOf_eq_self (by decide)]
    simp
  have hload := Catalogue.load_single {} rfl "sponsors" "company" "event" (by simp) (by simp) (by simp) hne
  have hg : companyAndEvent.graph.Keyed := Graph.keyed_ofEntities (by simp [Value.isText_string])
  obtain ⟨ds, hl, h⟩ := @run_eq_fullIndex {} (some [.between "sponsors" "company" "event"]) 100 rfl rfl rfl rfl
    (by simpa using Declaration.textual_between _ _ _) companyAndEvent hg (Projector.keepsIds_of_none rfl _)
  obtain rfl := Except.ok.inj (hload.symm.trans hl)
  refine h _ ⟨.inl rfl, fun _ _ _ _ => rfl, fun _ _ _ _ => rfl⟩ ?_
  intro c hc
  obtain rfl := List.mem_singleton.1 hc
  exact ⟨rfl, _, _, rfl, rfl, _, List.mem_singleton.2 rfl, rfl, .inl ⟨by simp, by simp⟩⟩

end World

end EdgeFields
