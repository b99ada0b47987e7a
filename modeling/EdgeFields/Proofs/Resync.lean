import EdgeFields.Gateway
import EdgeFields.Proofs.Pages
import EdgeFields.Proofs.Replacements
import EdgeFields.Proofs.Spellings

/-!
# Resync

Mending the documents of some entities makes every relationship field of theirs what the full index gives for it, and
leaves everything else in the index as it is; doing it once more changes nothing (`Gateway.resync_agrees`).

Entities may be listed twice, or by different types under one number: what a field lists depends on the number and on
the pair that the field is for only, and different pairs have different fields (`agreeing_of_owner`).
-/

namespace EdgeFields

/-! ### Stores -/

/-- Whether a store answers every question in texts, with entities whose summaries are proper. -/
structure Store.Serves (store : Store) : Prop where
  answers : ∀ id name type size, name.IsText → type.IsText → ∃ page, store.related id name type (.int size) = .ok page
  proper : ∀ id name type size page, store.related id name type size = .ok (some page) →
    ∀ e, some e ∈ page → (Value.object e.summary).Proper

namespace Projector

variable {p : Projector} {store : Store} {size : Related → Int}

private theorem embedded_eq (hp : p.hooks.projection = none) (e : Entity) : p.embedded e = .object e.summary := by
  rw [embedded, projection, hp]
  rfl

theorem reads_of_serves (hs : store.Serves) {n : Int} (hh : p.hooks.pageSize = none) (hp : p.hooks.projection = none)
    (hn : p.pageSize = .int n) : p.Reads store fun _ => max n 1 where
  sized r _ := pageSizeFor_eq_ok hh hn r.1 r.2
  answers id r hr := hs.answers id r.1 r.2 _ hr.1 hr.2
  embeds id r hr e he := by rw [embedded_eq hp, projection, hp]

private theorem mem_entries (hs : store.Serves) (hp : p.hooks.projection = none) {id : Int} {r : Related} {v : Value}
    (hv : v ∈ p.entries store size id r) : v.IsObject ∧ v.Proper := by
  obtain ⟨e, he, rfl⟩ := List.mem_map.1 hv
  have hanswered := List.mem_of_mem_take (mem_of_mem_distinct he)
  rw [embedded_eq hp]
  refine ⟨⟨_, rfl⟩, ?_⟩
  rw [Store.answered] at hanswered
  cases hrelated : store.related id r.1 r.2 (.int (size r)) with
  | error f => simp [hrelated, Except.toOption] at hanswered
  | ok page =>
    cases page with
    | none => simp [hrelated, Except.toOption] at hanswered
    | some page => exact hs.proper id r.1 r.2 _ page hrelated e (by simpa [hrelated, Except.toOption] using hanswered)

@[simp] theorem key_replacement (id : Int) (r : Related) :
    (p.replacement store size id r).key = .string (p.stem ++ FieldKey.body r) := rfl

theorem replaces_replacement (hs : store.Serves) (hp : p.hooks.projection = none) (id : Int) (r : Related) :
    (p.replacement store size id r).Replaces where
  plain := ⟨rfl, rfl, fun hne => absurd rfl hne, fun _ v hv => (mem_entries hs hp hv).1⟩
  proper v hv := (mem_entries hs hp hv).2
  field := by
    simp [replacement, Value.truthy, FieldKey.body]

/-- The replacements that mend the documents of some entities. -/
def replacementsFor (p : Projector) (store : Store) (size : Related → Int) (ds : List Definition) (es : List Entity) :
    List Operation :=
  (es.map fun e => (Catalogue.relatedPairs ds e.type).map (p.replacement store size e.id)).flatten

private theorem mem_replacementsFor {ds : List Definition} {es : List Entity} {op : Operation} :
    op ∈ p.replacementsFor store size ds es ↔
      ∃ e ∈ es, ∃ r ∈ Catalogue.relatedPairs ds e.type, p.replacement store size e.id r = op := by
  simp [replacementsFor]

private theorem replaces_of_mem (hs : store.Serves) (hp : p.hooks.projection = none) {ds : List Definition}
    {es : List Entity} : ∀ op ∈ p.replacementsFor store size ds es, op.Replaces := by
  intro op hop
  obtain ⟨e, -, r, -, rfl⟩ := mem_replacementsFor.1 hop
  exact replaces_replacement hs hp e.id r

/-- The number of an entity can be read from the name of its document. -/
private theorem eq_of_toText_eq {m n : Int} (h : (Value.int m).toText = (Value.int n).toText) : m = n :=
  Text.eq_of_toString_eq h

/-- Replacements for one document agree: those for one field are for one pair, and list the same. -/
theorem agreeing_of_owner {ds : List Definition} (hds : Loaded ds) {ops : List Operation}
    (hops : ∀ op ∈ ops, ∃ id, ∃ r ∈ FieldKey.pairs ds, p.replacement store size id r = op)
    (howner : ∀ op ∈ ops, ∀ op' ∈ ops, op.owner = op'.owner) : Operation.Agreeing ops := by
  intro op hop op' hop' hkey
  have hsame := howner op hop op' hop'
  obtain ⟨id, r, hr, rfl⟩ := hops op hop
  obtain ⟨id', r', hr', rfl⟩ := hops op' hop'
  rw [key_replacement, key_replacement, Key.beq_string, beq_iff_eq, FieldKey.stem_append_inj] at hkey
  rw [hds.apart r hr r' hr' hkey, Value.int.inj hsame]

theorem agreeing_replacement {ds : List Definition} (hds : Loaded ds) {e : Entity} (he : e.type.IsText) :
    Operation.Agreeing ((Catalogue.relatedPairs ds e.type).map (p.replacement store size e.id)) := by
  refine @agreeing_of_owner p store size _ hds _ ?_ ?_
  · exact List.forall_mem_map.2 fun r hr => ⟨e.id, r, hds.mem_pairs_of_mem_relatedPairs he hr, rfl⟩
  · exact List.forall_mem_map.2 fun r _ => List.forall_mem_map.2 fun r' _ => rfl

private theorem agreeing_replacements {ds : List Definition} (hds : Loaded ds) {es : List Entity}
    (hes : ∀ e ∈ es, e.type.IsText) (id : String) :
    Operation.Agreeing ((p.replacementsFor store size ds es).filter fun op => op.owner.toText = id) := by
  have hform : ∀ op ∈ (p.replacementsFor store size ds es).filter fun op => op.owner.toText = id,
      ∃ n, ∃ r ∈ FieldKey.pairs ds, p.replacement store size n r = op := by
    intro op hop
    obtain ⟨e, he, r, hr, rfl⟩ := mem_replacementsFor.1 (List.mem_filter.1 hop).1
    exact ⟨e.id, r, hds.mem_pairs_of_mem_relatedPairs (hes e he) hr, rfl⟩
  refine agreeing_of_owner hds hform fun op hop op' hop' => ?_
  have hid := of_decide_eq_true (List.mem_filter.1 hop).2
  have hid' := of_decide_eq_true (List.mem_filter.1 hop').2
  obtain ⟨n, r, -, rfl⟩ := hform op hop
  obtain ⟨n', r', -, rfl⟩ := hform op' hop'
  exact congrArg Value.int (eq_of_toText_eq (hid.trans hid'.symm))

end Projector

namespace Gateway

variable {g : Gateway} {h : Host} {ds : List Definition} {size : Related → Int} {es : List Entity}

theorem outcome_onEngine {σ α : Type} {m : Session Engine α} {s : GatewayState σ} {engine' : Engine} {a : α}
    (hm : m.outcome s.engine = (engine', .ok a)) :
    (onEngine m).outcome s = ({ s with engine := engine' }, .ok a) := by
  rw [onEngine, Session.outcome_on, hm]

/-- Asking for the replacements of some entities changes nothing but the engine. -/
private theorem outcome_mapM_reproject {σ : Type} (hreads : g.projector.Reads h.store size)
    (hl : (Catalogue.load g.hooks h.source).result = .ok ds) (hds : Loaded ds) (hes : ∀ e ∈ es, e.type.IsText)
    {s : GatewayState σ} (hc : s.engine.catalogue.Holds ds) :
    ∃ engine', (es.mapM fun e => onEngine (σ := σ) (Engine.reproject g.projector h.source h.store e)).outcome s =
        ({ s with engine := engine' }, .ok (es.map fun e =>
          (Catalogue.relatedPairs ds e.type).map (g.projector.replacement h.store size e.id))) ∧
      engine'.catalogue.Holds ds := by
  induction es generalizing s with
  | nil => exact ⟨s.engine, rfl, hc⟩
  | cons e es ih =>
    rw [List.forall_mem_cons] at hes
    obtain ⟨engine₁, hreproject, hc₁⟩ := Engine.outcome_reproject hreads hl hds hc hes.1
    obtain ⟨engine', hrest, hc'⟩ := ih hes.2 (s := { s with engine := engine₁ }) hc₁
    refine ⟨engine', ?_, hc'⟩
    simp only [List.mapM_cons, Session.outcome_bind, outcome_onEngine hreproject, Session.continueWith_ok, hrest,
      Session.outcome_pure, List.map_cons]

private theorem outcome_onIndex {σ α : Type} {m : Session σ α} {s : GatewayState σ} {index' : σ} {a : α}
    (hm : m.outcome s.index = (index', .ok a)) : (onIndex m).outcome s = ({ s with index := index' }, .ok a) := by
  rw [onIndex, Session.outcome_on, hm]

/-- Making the connection touches neither the engine nor the index. -/
private theorem outcome_connect {σ : Type} (g : Gateway) (s : GatewayState σ) :
    ∃ s', g.connect.outcome s = (s', .ok ()) ∧ s'.engine = s.engine ∧ s'.index = s.index := by
  refine ⟨if s.connected then s
    else { s with connected := true, connections := s.connections ++ [g.settings.connection] }, rfl, ?_, ?_⟩
  · split <;> rfl
  · split <;> rfl

/-- The items of an answer; none if nothing was sent. -/
def itemsOf (answer : Option BulkResult) : List ItemResult := (answer.map (·.items)).getD []

/-- Mending documents does to those in the index what the replacements do one after another. -/
private theorem outcome_resync (hreads : g.projector.Reads h.store size)
    (hl : (Catalogue.load g.hooks h.source).result = .ok ds) (hds : Loaded ds) (hes : ∀ e ∈ es, e.type.IsText)
    (hops : ∀ op ∈ g.projector.replacementsFor h.store size ds es, op.Replaces) {s : GatewayState MemoryIndex}
    (hc : s.engine.catalogue.Holds ds) (hplan : s.index.plan = none) {docs : Documents} (hix : s.index.Stores docs) :
    ∃ s' answer, (g.resync MemoryIndex.client h es).outcome s = (s', .ok answer) ∧
      ((g.projector.replacementsFor h.store size ds es).mapM Operation.perform).outcome docs =
        (Operation.documentsAfter (g.projector.replacementsFor h.store size ds es) docs, .ok (itemsOf answer)) ∧
      s'.index.Stores (Operation.documentsAfter (g.projector.replacementsFor h.store size ds es) docs) ∧
      s'.index.plan = none ∧ s'.engine.catalogue.Holds ds := by
  obtain ⟨engine', hreproject, hc'⟩ := outcome_mapM_reproject hreads hl hds hes hc
  have hflatten : (es.map fun e => (Catalogue.relatedPairs ds e.type).map
      (g.projector.replacement h.store size e.id)).flatten = g.projector.replacementsFor h.store size ds es := rfl
  simp only [resync, Session.outcome_bind, hreproject, Session.continueWith_ok, hflatten, dispatch, List.isEmpty_map]
  generalize g.projector.replacementsFor h.store size ds es = ops at hops
  cases hempty : ops.isEmpty with
  | true =>
    obtain rfl := List.isEmpty_iff.1 hempty
    rw [Operation.documentsAfter_nil]
    exact ⟨_, none, rfl, rfl, hix, hplan, hc'⟩
  | false =>
    obtain ⟨s₁, hconnect, hengine, hindex⟩ := outcome_connect g { s with engine := engine' }
    obtain ⟨results, ix', took, hrun, hdispatch, hix', hplan'⟩ :=
      @Batch.outcome_dispatch_replaces g.batch _ s₁.index _ (by rw [hindex]; exact hplan)
        (by rw [hindex]; exact hix) hops
    refine ⟨{ s₁ with index := ix' }, some ⟨results, took⟩, ?_, hrun, hix', hplan', by rw [hengine]; exact hc'⟩
    simp only [Bool.false_eq_true, if_false, Session.outcome_bind, hconnect, Session.continueWith_ok,
      outcome_onIndex hdispatch, Session.outcome_pure]

/-- The fields of each entity are the same whatever was asked before. -/
private theorem exists_fields (hreads : g.projector.Reads h.store size)
    (hl : (Catalogue.load g.hooks h.source).result = .ok ds) (hds : Loaded ds) (hes : ∀ e ∈ es, e.type.IsText) :
    ∃ fields : Entity → Fields, ∀ e ∈ es,
      g.projector.Shows (g.projector.entries h.store size e.id) (Catalogue.relatedPairs ds e.type) (fields e) ∧
        ∀ engine : Engine, engine.catalogue.Holds ds → ∃ engine',
          (Engine.fullIndex g.projector h.source h.store e).outcome engine = (engine', .ok (fields e)) := by
  have hexists : ∀ e, ∃ fields, e ∈ es →
      g.projector.Shows (g.projector.entries h.store size e.id) (Catalogue.relatedPairs ds e.type) fields ∧
        ∀ engine : Engine, engine.catalogue.Holds ds → ∃ engine',
          (Engine.fullIndex g.projector h.source h.store e).outcome engine = (engine', .ok fields) := by
    intro e
    by_cases he : e ∈ es
    · obtain ⟨fields, hshows, hfull⟩ := Engine.outcome_fullIndex_of_reads hreads hl hds (hes e he)
      exact ⟨fields, fun _ => ⟨hshows, fun engine hc => (hfull engine hc).imp fun _ h => h.1⟩⟩
    · exact ⟨[], fun he' => absurd he' he⟩
  choose fields hfields using hexists
  exact ⟨fields, hfields⟩

/-- How documents stand to what they were when those of some entities are mended: under each of their field keys they
hold what the fields of the entity give, and nothing else has changed. -/
structure Resynced (es : List Entity) (keys : Entity → List String) (fields : Entity → Fields)
    (docs docs' : Documents) : Prop where
  existing : ∀ id, (docs' id).isSome = (docs id).isSome
  agree : ∀ e ∈ es, ∀ doc', docs' (Value.int e.id).toText = some doc' → ∀ key ∈ keys e,
    Option.Rel (fun v w => (v == w) = true) (doc'.lookup (.string key)) (((fields e).lookup key).map .list)
  otherFields : ∀ id doc doc', docs id = some doc → docs' id = some doc' → ∀ k : Key,
    (∀ e ∈ es, (Value.int e.id).toText = id → ∀ key ∈ keys e, k ≠ .string key) → doc'.lookup k = doc.lookup k
  otherDocuments : ∀ id, (∀ e ∈ es, (Value.int e.id).toText ≠ id) → docs' id = docs id

section Run

variable {p : Projector} {store : Store} {keys : Entity → List String} {fields : Entity → Fields}

/-- The replacements leave the documents as they have to be. -/
private theorem resynced_documentsAfter (docs : Documents) (hds : Loaded ds) (hes : ∀ e ∈ es, e.type.IsText)
    (hops : ∀ op ∈ p.replacementsFor store size ds es, op.Replaces)
    (hkeys : ∀ e ∈ es, keys e = (Catalogue.relatedPairs ds e.type).map fun r => p.stem ++ FieldKey.body r)
    (hfields : ∀ e ∈ es, p.Shows (p.entries store size e.id) (Catalogue.relatedPairs ds e.type) (fields e)) :
    Resynced es keys fields docs (Operation.documentsAfter (p.replacementsFor store size ds es) docs) where
  existing id := by rw [Operation.documentsAfter, Option.isSome_map]
  agree e he doc' hdoc' key hkey := by
    rw [hkeys e he] at hkey
    obtain ⟨r, hr, rfl⟩ := List.mem_map.1 hkey
    have hdisplays := Operation.displays_documentsAfter docs hops (Projector.agreeing_replacements hds hes)
      (p.replacement store size e.id r) (Projector.mem_replacementsFor.2 ⟨e, he, r, hr, rfl⟩) doc' hdoc'
    have hfound : ((fields e).lookup (p.stem ++ FieldKey.body r)).map Value.list =
        if (p.entries store size e.id r).isEmpty then none else some (.list (p.entries store size e.id r)) := by
      rw [(hfields e he).found r hr]
      split <;> rfl
    rw [hfound]
    exact hdisplays
  otherFields id doc doc' hdoc hdoc' k hk := by
    rw [Operation.documentsAfter, hdoc] at hdoc'
    obtain rfl := Option.some.inj hdoc'
    refine Document.lookup_foldl_after_of_ne (fun op hop => hops op (List.mem_filter.1 hop).1) fun op hop => ?_
    obtain ⟨hmem, hid⟩ := List.mem_filter.1 hop
    obtain ⟨e, he, r, hr, rfl⟩ := Projector.mem_replacementsFor.1 hmem
    have hne := hk e he (of_decide_eq_true hid) (p.stem ++ FieldKey.body r)
      (by rw [hkeys e he]; exact List.mem_map.2 ⟨r, hr, rfl⟩)
    exact BEq.symm_false (Key.string_beq_of_ne hne)
  otherDocuments id hid := by
    have hnone : ((p.replacementsFor store size ds es).filter fun op => op.owner.toText = id) = [] := by
      refine List.filter_eq_nil_iff.2 fun op hop => ?_
      obtain ⟨e, he, r, -, rfl⟩ := Projector.mem_replacementsFor.1 hop
      exact fun h => hid e he (of_decide_eq_true h)
    rw [Operation.documentsAfter, hnone]
    exact Option.map_id'

end Run

/-- Mending the documents of some entities gives them exactly the fields of the full index and changes nothing else,
and doing it once more changes nothing at all and says so of every document that is there. -/
theorem resync_agrees (hr : g.hooks.relationships = none) (hs : g.hooks.pageSize = none)
    (hp : g.hooks.projection = none) {size : Int} (hn : g.settings.pageSize = .int size)
    (hd : ∀ d ∈ h.source.getD [], d.Textual) (hstore : h.store.Serves) (hes : ∀ e ∈ es, e.type.IsText) :
    ∃ ds, (Catalogue.load g.hooks h.source).result = .ok ds ∧
      ∃ (keys : Entity → List String) (fields : Entity → Fields),
        (∀ e ∈ es, g.projector.fieldKeysFor ds e.type = .ok (keys e) ∧
          ∀ engine : Engine, engine.catalogue.Holds ds → ∃ engine',
            (Engine.fullIndex g.projector h.source h.store e).outcome engine = (engine', .ok (fields e))) ∧
        ∀ (s : GatewayState MemoryIndex) (docs : Documents), s.engine.catalogue.Holds ds → s.index.plan = none →
          s.index.Stores docs → ∃ s₁ answer₁ s₂ answer₂ docs',
            (g.resync MemoryIndex.client h es).outcome s = (s₁, .ok answer₁) ∧ s₁.index.Stores docs' ∧
            Resynced es keys fields docs docs' ∧
            (g.resync MemoryIndex.client h es).outcome s₁ = (s₂, .ok answer₂) ∧ s₂.index.Stores docs' ∧
            (∀ item ∈ itemsOf answer₂, item = if (docs' item.operation.owner.toText).isSome
              then .done item.operation false else .missing item.operation) ∧
            ∀ e ∈ es, ∀ key ∈ keys e, ∃ item ∈ itemsOf answer₂,
              item.operation.owner = .int e.id ∧ item.operation.field = .string key := by
  obtain ⟨ds, hl, hds⟩ := Catalogue.load_loaded hr hd
  have hreads : g.projector.Reads h.store fun _ => max size 1 := Projector.reads_of_serves hstore hs hp hn
  obtain ⟨fields, hfields⟩ := exists_fields hreads hl hds hes
  have hops : ∀ op ∈ g.projector.replacementsFor h.store (fun _ => max size 1) ds es, op.Replaces :=
    Projector.replaces_of_mem hstore hp
  have hmem : ∀ e ∈ es, ∀ r ∈ Catalogue.relatedPairs ds e.type,
      g.projector.replacement h.store (fun _ => max size 1) e.id r ∈
        g.projector.replacementsFor h.store (fun _ => max size 1) ds es :=
    fun e he r hr => Projector.mem_replacementsFor.2 ⟨e, he, r, hr, rfl⟩
  refine ⟨ds, hl, fun e => (Catalogue.relatedPairs ds e.type).map fun r => g.projector.stem ++ FieldKey.body r,
    fields, fun e he => ⟨g.projector.fieldKeysFor_eq hds (hes e he), (hfields e he).2⟩, fun s docs hc hplan hix => ?_⟩
  have hresynced := resynced_documentsAfter docs hds hes hops (fun _ _ => rfl) fun e he => (hfields e he).1
  have hdisplays := Operation.displays_documentsAfter docs hops (Projector.agreeing_replacements hds hes)
  obtain ⟨s₁, answer₁, hfirst, -, hix', hplan', hc'⟩ := outcome_resync hreads hl hds hes hops hc hplan hix
  obtain ⟨s₂, answer₂, hsecond, hrun, hix'', -⟩ := outcome_resync hreads hl hds hes hops hc' hplan' hix'
  generalize g.projector.replacementsFor h.store (fun _ => max size 1) ds es = ops at *
  generalize Operation.documentsAfter ops docs = docs' at *
  -- The second time every field displays its list already.
  rw [Operation.outcome_mapM_perform_idle hops hdisplays] at hrun
  obtain ⟨hdocs, hitems⟩ := Prod.mk.inj hrun
  rw [← hdocs] at hix''
  refine ⟨s₁, answer₁, s₂, answer₂, docs', hfirst, hix', hresynced, hsecond, hix'', fun item hitem => ?_,
    fun e he key hkey => ?_⟩
  · rw [← Except.ok.inj hitems] at hitem
    obtain ⟨op, -, rfl⟩ := List.mem_map.1 hitem
    cases hthere : (docs' op.owner.toText).isSome <;> simp [hthere, ItemResult.done, ItemResult.missing]
  · obtain ⟨r, hr, rfl⟩ := List.mem_map.1 hkey
    rw [← Except.ok.inj hitems]
    refine ⟨_, List.mem_map.2 ⟨_, hmem e he r hr, rfl⟩, ?_⟩
    split <;> exact ⟨rfl, rfl⟩

/-- An event. -/
def launch : Entity := { id := 10, type := .string "event" }

/-- A company that sponsors it. -/
def launchSponsor : Entity := { id := 20, type := .string "company", title := .string "Acme" }

/-- A host whose page of sponsors of the event has a gap, and the company twice. -/
def launchHost : Host where
  source := some [.between "sponsors" "event" "company"]
  store :=
    { entity := fun _ => none
      related := fun id _ _ _ => .ok (if id = 10 then some [none, some launchSponsor, some launchSponsor] else none) }

/-- The document of the event, before its sponsors are known. -/
def staleLaunch : Document := [("related_sponsors_company", .string "none yet"), ("title", .string "Launch")]

theorem serves_launchHost : launchHost.store.Serves := by
  refine ⟨fun _ _ _ _ _ _ => ⟨_, rfl⟩, fun id _ _ _ page hpage e he => ?_⟩
  have hpage := Except.ok.inj hpage
  split at hpage
  · obtain rfl := Option.some.inj hpage
    obtain rfl : e = launchSponsor := by simpa using he
    exact .object (by simp [launchSponsor, Entity.summary, Assoc.Distinct, Assoc.keys])
      (by simp [launchSponsor, Entity.summary, Entity.textOr, Value.truthy, Value.Proper.int, Value.Proper.string])
  · cases hpage

theorem textual_launchHost : ∀ d ∈ launchHost.source.getD [], d.Textual :=
  List.forall_mem_singleton.2 (Declaration.textual_between "sponsors" "event" "company")

theorem body_sponsors : FieldKey.body (.string "sponsors", .string "company") = "sponsors_company" := by
  have hsponsors : FieldKey.identifierOf "sponsors" = "sponsors" := FieldKey.identifierOf_eq_self (by decide)
  have hcompany : FieldKey.identifierOf "company" = "company" := FieldKey.identifierOf_eq_self (by decide)
  simp [FieldKey.body, FieldKey.textPart, hsponsors, hcompany]

theorem fieldKeysFor_launch : ({} : Gateway).projector.fieldKeysFor
    [⟨.string "sponsors", [.string "event"], [.string "company"]⟩] (.string "event") =
      .ok ["related_sponsors_company"] := by
  obtain ⟨ds, hl, hds⟩ := @Catalogue.load_loaded {} rfl _ textual_launchHost
  obtain rfl := Except.ok.inj (Catalogue.load_sponsors.symm.trans hl)
  rw [Projector.fieldKeysFor_eq _ hds (Value.isText_string _),
    @Catalogue.relatedPairs_single "sponsors" "event" "company" (by simp), List.map_singleton, body_sponsors]
  rfl

/-- What the full index gives for an event at this host. -/
theorem fields_launch (n : Int) :
    ∃ fields, ({} : Gateway).projector.Shows
        (({} : Gateway).projector.entries launchHost.store (fun _ => max 100 1) n)
        [(.string "sponsors", .string "company")] fields ∧
      ∀ engine : Engine, engine.catalogue.Holds [⟨.string "sponsors", [.string "event"], [.string "company"]⟩] →
        ∃ engine', (Engine.fullIndex ({} : Gateway).projector launchHost.source launchHost.store
          { launch with id := n }).outcome engine = (engine', .ok fields) ∧
          engine'.catalogue.Holds [⟨.string "sponsors", [.string "event"], [.string "company"]⟩] := by
  obtain ⟨ds, hl, hds⟩ := @Catalogue.load_loaded {} rfl _ textual_launchHost
  obtain rfl := Except.ok.inj (Catalogue.load_sponsors.symm.trans hl)
  have hfull := Engine.outcome_fullIndex_of_reads (p := ({} : Gateway).projector) (e := { launch with id := n })
    (Projector.reads_of_serves serves_launchHost rfl rfl (n := 100) rfl) hl hds (Value.isText_string _)
  rwa [show ({ launch with id := n } : Entity).type = .string "event" from rfl,
    @Catalogue.relatedPairs_single "sponsors" "event" "company" (by simp)] at hfull

theorem lookup_fields_launch {engine' : Engine} {fields : Fields}
    (h : (Engine.fullIndex ({} : Gateway).projector launchHost.source launchHost.store launch).outcome {} =
      (engine', .ok fields)) : fields.lookup "related_sponsors_company" = some [.object launchSponsor.summary] := by
  obtain ⟨fields', hshows, hfull⟩ := fields_launch 10
  obtain ⟨_, hasked, -⟩ := hfull {} (.inl rfl)
  obtain rfl := Except.ok.inj (congrArg Prod.snd (hasked.symm.trans h))
  have hfound := hshows.found (.string "sponsors", .string "company") (List.mem_singleton_self _)
  rw [body_sponsors] at hfound
  exact hfound

theorem resync_agrees_launch : ∃ s₁ answer₁ docs' doc' v,
    (resync {} MemoryIndex.client launchHost [launch, { launch with id := 30 }, launch]).outcome
      { index := .ofDocuments [("10", .object staleLaunch)] } = (s₁, .ok answer₁) ∧ s₁.index.Stores docs' ∧
    docs' "30" = none ∧ docs' "10" = some doc' ∧ doc'.lookup (.string "title") = some (.string "Launch") ∧
    doc'.lookup (.string "related_sponsors_company") = some v ∧
    (v == .list [.object launchSponsor.summary]) = true := by
  obtain ⟨ds, hl, keys, fields, hanswers, hstates⟩ := @resync_agrees {} launchHost
    [launch, { launch with id := 30 }, launch] rfl rfl rfl 100 rfl textual_launchHost serves_launchHost
    (by simp [launch, Value.isText_string])
  obtain rfl := Except.ok.inj (Catalogue.load_sponsors.symm.trans hl)
  generalize hdocs : (Function.update (fun _ => none) "10" (some staleLaunch) : Documents) = docs
  have hix : (MemoryIndex.ofDocuments [("10", .object staleLaunch)]).Stores docs := by
    have hempty : MemoryIndex.Stores {} fun _ => none := fun _ => rfl
    rw [← hdocs]
    exact hempty.insert staleLaunch 0
  obtain ⟨s₁, answer₁, -, -, docs', hfirst, hix', hresynced, -⟩ :=
    hstates { index := .ofDocuments _ } docs (.inl rfl) rfl hix
  have hkeys : ∀ e ∈ [launch, { launch with id := 30 }, launch], keys e = ["related_sponsors_company"] := by
    intro e he
    have htype : e.type = .string "event" := by
      simp only [List.mem_cons, List.not_mem_nil, or_false] at he
      rcases he with rfl | rfl | rfl <;> rfl
    exact (Except.ok.inj (fieldKeysFor_launch.symm.trans (htype ▸ (hanswers e he).1))).symm
  have hsponsors : (fields launch).lookup "related_sponsors_company" = some [.object launchSponsor.summary] :=
    lookup_fields_launch ((hanswers launch (by simp)).2 {} (.inl rfl)).choose_spec
  have hten : docs "10" = some staleLaunch := by rw [← hdocs, Function.update_self]
  have hthirty : docs "30" = none := by rw [← hdocs, Function.update_of_ne (by decide)]
  obtain ⟨doc', hdoc'⟩ := Option.isSome_iff_exists.1 ((hresynced.existing "10").trans (by rw [hten]; rfl))
  have htitle := hresynced.otherFields "10" _ doc' hten hdoc' (.string "title") fun e he _ key hkey => by
    rw [hkeys e he, List.mem_singleton] at hkey
    simp [hkey]
  have hagree := hresynced.agree launch (by simp) doc' hdoc' "related_sponsors_company" (by simp [hkeys launch])
  rw [hsponsors] at hagree
  generalize hfound : doc'.lookup (.string "related_sponsors_company") = found at hagree
  obtain ⟨v, rfl, hequal⟩ : ∃ v, found = some v ∧ (v == .list [.object launchSponsor.summary]) = true := by
    cases hagree with
    | some hequal => exact ⟨_, rfl, hequal⟩
  exact ⟨s₁, answer₁, docs', doc', v, hfirst, hix',
    Option.isNone_iff_eq_none.1 (by simpa [hthirty] using hresynced.existing "30"), hdoc', htitle, hfound, hequal⟩

end Gateway

end EdgeFields
