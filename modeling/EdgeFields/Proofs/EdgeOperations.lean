import EdgeFields.EdgeEvent
import EdgeFields.Proofs.Loaded

/-!
# The operations of an edge event

What an engine answers to an edge event: nothing, or one operation on each of the two documents (`outcome_edge`,
`edge_cases`).  Each operation is known by its owner, the entity that it adds or takes away, and the field key for the
name of the relationship and the type of that entity.
-/

namespace EdgeFields

namespace Projector

/-- The operation that puts `other`, as it is embedded, into the document of `owner`, or takes it out. -/
def operationOn (p : Projector) (action : Action) (name : Value) (owner other : Entity) (embedded : Value) :
    Operation where
  owner := .int owner.id
  field := .string (p.stem ++ FieldKey.body (name, other.type))
  action := .known action
  projection := embedded

variable {p : Projector} {action : Action} {name : Value} {first second : Entity}

private theorem edgeOperation_eq (hn : name.IsText) (ht : second.type.IsText) :
    p.edgeOperation action name first second =
      (p.operationOn action name first second ·) <$> p.projection second := by
  rw [edgeOperation, FieldKey.derive_eq_ok p.stem hn ht, ok_bind]
  cases p.projection second <;> rfl

/-- An edge between two entities gives one operation for each of them; one between an entity and itself gives one. -/
theorem edgeOperations_eq_ok (hn : name.IsText) (h₁ : first.type.IsText) (h₂ : second.type.IsText) {v₁ v₂ : Value}
    (hv₁ : p.projection first = .ok v₁) (hv₂ : p.projection second = .ok v₂) :
    p.edgeOperations action name first second = .ok
      (if second.id = first.id && second.type == first.type then [p.operationOn action name first second v₂]
        else [p.operationOn action name first second v₂, p.operationOn action name second first v₁]) := by
  rw [edgeOperations, edgeOperation_eq hn h₂, edgeOperation_eq hn h₁, hv₁, hv₂]
  simp only [map_ok, ok_bind, pure_eq_ok]
  split <;> rfl

/-- Whatever the operations of an edge are, each puts one of the two entities into the document of the other. -/
theorem mem_edgeOperations (hn : name.IsText) (h₁ : first.type.IsText) (h₂ : second.type.IsText)
    {ops : List Operation} (h : p.edgeOperations action name first second = .ok ops) {op : Operation}
    (hop : op ∈ ops) :
    (∃ v, op = p.operationOn action name first second v) ∨ ∃ v, op = p.operationOn action name second first v := by
  rw [edgeOperations, edgeOperation_eq hn h₂, edgeOperation_eq hn h₁] at h
  obtain ⟨forth, hforth, h⟩ := exists_of_bind_eq_ok h
  have hforth' : ∃ v, forth = p.operationOn action name first second v := by
    cases hv : p.projection second with
    | error f => exact absurd hforth (by simp [hv])
    | ok v =>
      rw [hv, map_ok] at hforth
      exact ⟨v, (Except.ok.inj hforth).symm⟩
  split at h
  · rw [← Except.ok.inj h, List.mem_singleton] at hop
    exact .inl (hop ▸ hforth')
  · cases hv : p.projection first with
    | error f => exact absurd h (by simp [hv])
    | ok v =>
      rw [hv, map_ok, ok_bind] at h
      rw [← Except.ok.inj h, List.mem_cons, List.mem_singleton] at hop
      rcases hop with rfl | rfl
      · exact .inl hforth'
      · exact .inr ⟨v, rfl⟩

end Projector

theorem Endpoint.exists_of_resolve {store : Store} {tip : Endpoint} {x : Entity}
    (h : tip.resolve store = .ok (some x)) : ∃ n, store.entity n = some x := by
  cases tip with
  | entity e => exact ⟨e.id, Except.ok.inj h⟩
  | id v =>
    rw [resolve] at h
    split at h
    · next n _ => exact ⟨n, Except.ok.inj h⟩
    · contradiction
    · exact absurd (Except.ok.inj h) (by simp)

/-- Whether an event is between two entities of a store whose types stand on opposite sides of a definition of its
name. -/
structure EdgeEvent.Joins (ds : List Definition) (store : Store) (ev : EdgeEvent) (x y : Entity) : Prop where
  first : ev.a.resolve store = .ok (some x)
  second : ev.b.resolve store = .ok (some y)
  types : Catalogue.Joins ds ev.name x.type y.type

namespace Engine

variable {p : Projector} {source : Source} {store : Store} {action : Action} {ev : EdgeEvent} {ds : List Definition}
  {e : Engine}

@[simp] theorem outcome_count (f : Stats → Stats) (e : Engine) :
    (count f).outcome e = ({ e with stats := f e.stats }, .ok ()) := rfl

theorem outcome_lookUp {α : Type} (m : Session Catalogue α) (e : Engine) :
    (lookUp m).outcome e = ({ e with catalogue := (m.outcome e.catalogue).1 }, (m.outcome e.catalogue).2) := rfl

/-- An edge event of a known relationship whose ends are entities is answered with the operations of the edge. -/
theorem outcome_edge (hh : p.hooks.relationshipData = none) (hl : (Catalogue.load p.hooks source).result = .ok ds)
    (hc : e.catalogue.Holds ds) (hk : Kind.ofValue ev.kind = .ok .entityToEntity)
    (hname : (Catalogue.find? ds ev.name).isSome = true) {first second : Entity}
    (ha : ev.a.resolve store = .ok (some first)) (hb : ev.b.resolve store = .ok (some second))
    {ops : List Operation} (hops : p.edgeOperations action ev.name first second = .ok ops) :
    ∃ e', (edge p source store action ev).outcome e = (e', .ok (ops.map .operation)) ∧ e'.catalogue.Holds ds := by
  obtain ⟨c, hcontains, hc'⟩ := Catalogue.outcome_contains hl hc ev.name
  refine ⟨⟨c, { e.stats with
    events := e.stats.events + 1, operations := e.stats.operations + ops.length }⟩, ?_, hc'⟩
  simp only [edge, Session.outcome_bind, outcome_count, Session.continueWith_ok, Session.outcome_lift, hk, ne_eq,
    not_true_eq_false, if_false, outcome_lookUp, hcontains, hname, Bool.not_true, Bool.false_eq_true, ha, hb, hops,
    hh, Option.map_none, Hooks.adjust, Session.outcome_pure, List.length_map]

/-- All that an engine can answer to an edge event, whatever its catalogue has loaded: nothing, or the operations of
an edge between two entities of the store under a name that the catalogue contains. -/
theorem edge_answers (hh : p.hooks.relationshipData = none) {e' : Engine} {items : List BatchItem}
    (h : (edge p source store action ev).outcome e = (e', .ok items)) :
    (e'.catalogue = e.catalogue ∨
        e'.catalogue = ((Catalogue.contains p.hooks source ev.name).outcome e.catalogue).1) ∧
      (items = [] ∨ (((Catalogue.contains p.hooks source ev.name).outcome e.catalogue).2 = .ok true ∧
        ∃ first second ops, ev.a.resolve store = .ok (some first) ∧ ev.b.resolve store = .ok (some second) ∧
          p.edgeOperations action ev.name first second = .ok ops ∧ items = ops.map .operation)) := by
  rw [edge, Session.outcome_bind, outcome_count, Session.continueWith_ok] at h
  obtain ⟨kind, -, h⟩ := Session.exists_of_outcome_lift_bind h
  split at h
  · -- The event is of another kind.
    rw [Session.outcome_bind, outcome_count, Session.continueWith_ok] at h
    obtain ⟨rfl, hitems⟩ := Prod.mk.inj h
    exact ⟨.inl rfl, .inl (Except.ok.inj hitems).symm⟩
  obtain ⟨e₁, known, hknown, h⟩ := Session.exists_of_outcome_bind h
  obtain ⟨rfl, hcontains⟩ := Prod.mk.inj hknown
  split at h
  · -- No relationship of that name is known.
    rw [Session.outcome_bind, Session.outcome_lift_report, Report.result_note, Session.continueWith_ok,
      Session.outcome_bind, outcome_count, Session.continueWith_ok] at h
    obtain ⟨rfl, hitems⟩ := Prod.mk.inj h
    exact ⟨.inr rfl, .inl (Except.ok.inj hitems).symm⟩
  next hcontained =>
  obtain ⟨a, ha, h⟩ := Session.exists_of_outcome_lift_bind h
  obtain ⟨b, hb, h⟩ := Session.exists_of_outcome_lift_bind h
  by_cases hends : ∃ first second, a = some first ∧ b = some second
  · obtain ⟨first, second, rfl, rfl⟩ := hends
    obtain ⟨ops, hops, h⟩ := Session.exists_of_outcome_lift_bind h
    obtain ⟨items', hadjust, h⟩ := Session.exists_of_outcome_lift_bind h
    rw [hh] at hadjust
    rw [Session.outcome_bind, outcome_count, Session.continueWith_ok] at h
    obtain ⟨rfl, hitems⟩ := Prod.mk.inj h
    obtain rfl : known = true := by simpa using hcontained
    refine ⟨.inr rfl, .inr ⟨hcontains, first, second, ops, ha, hb, hops, ?_⟩⟩
    exact (Except.ok.inj hitems).symm.trans (Except.ok.inj hadjust).symm
  · -- An end of the edge is no entity of the store.
    split at h
    · exact absurd ⟨_, _, rfl, rfl⟩ hends
    · rw [Session.outcome_bind, Session.outcome_lift_report, Report.result_note, Session.continueWith_ok,
        Session.outcome_bind, outcome_count, Session.continueWith_ok] at h
      obtain ⟨rfl, hitems⟩ := Prod.mk.inj h
      exact ⟨.inr rfl, .inl (Except.ok.inj hitems).symm⟩

/-- With loaded definitions the name of the edge is that of one of them, and they stay loaded. -/
theorem edge_cases (hh : p.hooks.relationshipData = none) (hl : (Catalogue.load p.hooks source).result = .ok ds)
    (hc : e.catalogue.Holds ds) {e' : Engine} {items : List BatchItem}
    (h : (edge p source store action ev).outcome e = (e', .ok items)) :
    e'.catalogue.Holds ds ∧ (items = [] ∨ ((Catalogue.find? ds ev.name).isSome = true ∧
      ∃ first second ops, ev.a.resolve store = .ok (some first) ∧ ev.b.resolve store = .ok (some second) ∧
        p.edgeOperations action ev.name first second = .ok ops ∧ items = ops.map .operation)) := by
  obtain ⟨c, hcontains, hc'⟩ := Catalogue.outcome_contains hl hc ev.name
  obtain ⟨hcat, hitems⟩ := edge_answers hh h
  rw [hcontains] at hcat hitems
  refine ⟨?_, hitems.imp_right fun hops => ⟨Except.ok.inj hops.1, hops.2⟩⟩
  rcases hcat with hcat | hcat
  · rwa [hcat]
  · rwa [hcat]

end Engine

end EdgeFields
