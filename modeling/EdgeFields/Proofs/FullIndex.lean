import EdgeFields.Gateway
import EdgeFields.Proofs.Pages

/-!
# Full index

The relationship fields of an entity as they are computed from the whole graph: for each related name and type the
distinct entities of the first page, embedded, and no field where there are none (`outcome_fullIndex`).
-/

namespace EdgeFields

namespace Assoc

variable {κ α : Type} [BEq κ]

/-- Where the keys of the second map differ, what it holds comes before what the first one holds. -/
private theorem lookup_update [EquivBEq κ] {m m' : List (κ × α)} (h : (keys m').Pairwise fun k l => (l == k) = false)
    (l : κ) : (update m m').lookup l = (m'.lookup l).or (m.lookup l) := by
  induction m' generalizing m with
  | nil => rfl
  | cons p r ih =>
    obtain ⟨k, a⟩ := p
    obtain ⟨hk, hr⟩ := List.pairwise_cons.1 h
    change (update (insert k a m) r).lookup l = _
    rw [ih hr]
    by_cases hl : (l == k) = true
    · have hnone : r.lookup l = none := by
        rw [List.lookup_eq_none_iff]
        intro p hp
        rw [bne, Bool.not_eq_true', ← Bool.not_eq_true]
        intro hlp
        have := hk p.1 (List.mem_map.2 ⟨p, hp, rfl⟩)
        rw [PartialEquivBEq.trans (PartialEquivBEq.symm hlp) hl] at this
        exact Bool.noConfusion this
      rw [hnone, lookup_eq_of_beq hl (insert k a m), lookup_insert_self, lookup_eq_of_beq hl (_ :: r)]
      simp
    · rw [lookup_insert_of_ne (by simpa using hl), lookup_cons_of_ne (by simpa using hl)]

end Assoc

namespace Projector

/-- Whether every entity of a graph is embedded as an object that keeps its number. -/
def KeepsIds (p : Projector) (g : Graph) : Prop :=
  ∀ e, g.find? (.int e.id) = some e →
    ∃ ms, p.projection e = .ok (.object ms) ∧ ms.lookup (Key.string "entity_id") = some (.int e.id)

/-- The length of a page, at least one. -/
def pageLength (size : Int) : Nat := (max size 1).toNat

/-- What the document of an entity shows under a name and a type: the distinct entities of the first page. -/
def shown (p : Projector) (size : Int) (g : Graph) (id : Int) (r : Related) : List Value :=
  (distinctOf ((g.neighbours id r.1 r.2).take (pageLength size))).map p.embedded

variable {p : Projector} {g : Graph} {size : Int}

theorem KeepsIds.projection_eq (h : p.KeepsIds g) {e : Entity} (he : g.find? (.int e.id) = some e) :
    p.projection e = .ok (p.embedded e) := by
  obtain ⟨ms, hms, -⟩ := h e he
  rw [embedded, hms]
  rfl

theorem keepsIds_of_none (hp : p.hooks.projection = none) (g : Graph) : p.KeepsIds g := by
  intro e _
  refine ⟨e.summary, ?_, rfl⟩
  rw [projection, hp]

end Projector

namespace Graph

open Projector (pageLength)

variable {g : Graph} {size : Int}

private theorem Keyed.related_eq_ok (h : g.Keyed) {id : Int} {r : Related} (hr : FieldKey.InTexts r) :
    g.store.related id r.1 r.2 (.int (max size 1)) =
      .ok (some (((g.neighbours id r.1 r.2).take (pageLength size)).map some)) := by
  obtain ⟨name, type⟩ := r
  obtain ⟨⟨s, rfl⟩, ⟨t, rfl⟩⟩ := hr
  have hkey : Graph.pageKey (.int id) (.string s) (.string t) = .ok (.int id, .string s, .string t) := rfl
  change g.related _ _ _ _ = _
  rw [related, hkey, ok_bind, h.pages]
  simp only [List.lookup_nil, h.linked_eq_ok, ok_bind, Value.toCount_int, pure_eq_ok, pageLength]

private theorem Keyed.answered_eq (h : g.Keyed) {id : Int} {r : Related} (hr : FieldKey.InTexts r) :
    g.store.answered (fun _ => max size 1) id r = ((g.neighbours id r.1 r.2).take (pageLength size)).map some := by
  rw [Store.answered, h.related_eq_ok hr]
  rfl

end Graph

namespace Projector

variable {p : Projector} {g : Graph} {size : Int}

/-- The pairs are read from a graph at one page size, at least one. -/
private theorem KeepsIds.reads (hh : p.hooks.pageSize = none) (hp : p.pageSize = .int size) (hg : g.Keyed)
    (hk : p.KeepsIds g) : p.Reads g.store fun _ => max size 1 where
  sized r _ := pageSizeFor_eq_ok hh hp r.1 r.2
  answers id r hr := ⟨_, hg.related_eq_ok hr⟩
  embeds id r hr e he := by
    rw [hg.answered_eq hr] at he
    obtain ⟨e', he', hsome⟩ := List.mem_map.1 he
    obtain rfl := Option.some.inj hsome
    exact hk.projection_eq (hg.mem_neighbours (List.mem_of_mem_take he')).2

private theorem entries_eq_shown (hg : g.Keyed) {r : Related} (hr : FieldKey.InTexts r) (id : Int) :
    p.entries g.store (fun _ => max size 1) id r = p.shown size g id r := by
  rw [entries, hg.answered_eq hr, ← List.map_take, distinct_map_some, List.take_take, shown, pageLength, Nat.min_self]

/-- The fields made of the pairs `rs`: under the key of each what is shown, and nothing else. -/
structure Filled (p : Projector) (size : Int) (g : Graph) (id : Int) (rs : List Related) (fields : Fields) :
    Prop where
  found : ∀ r ∈ rs, fields.lookup (p.stem ++ FieldKey.body r) =
    if (p.shown size g id r).isEmpty then none else some (p.shown size g id r)
  origin : ∀ k, (∀ r ∈ rs, k ≠ p.stem ++ FieldKey.body r) → fields.lookup k = none
  nodup : (Assoc.keys fields).Nodup

end Projector

namespace Engine

variable {p : Projector} {g : Graph} {size : Int} {source : Source} {ds : List Definition} {engine : Engine}

/-- Computing the relationship fields of an entity always succeeds, and gives what is shown under each related name
and type. -/
theorem outcome_fullIndex (hh : p.hooks.pageSize = none) (hp : p.pageSize = .int size) (hg : g.Keyed)
    (hk : p.KeepsIds g) (hl : (Catalogue.load p.hooks source).result = .ok ds) (hds : Loaded ds)
    (hc : engine.catalogue.Holds ds) {e : Entity} (he : e.type.IsText) :
    ∃ engine' fields, (fullIndex p source g.store e).outcome engine = (engine', .ok fields) ∧
      p.Filled size g e.id (Catalogue.relatedPairs ds e.type) fields ∧ engine'.catalogue.Holds ds := by
  obtain ⟨fields, hshows, hfull⟩ := outcome_fullIndex_of_reads (hk.reads hh hp hg) hl hds he
  obtain ⟨engine', hfull, hc'⟩ := hfull engine hc
  refine ⟨engine', fields, hfull, ⟨fun r hr => ?_, hshows.origin, hshows.nodup⟩, hc'⟩
  rw [hshows.found r hr, Projector.entries_eq_shown hg (hds.inTexts_of_mem_relatedPairs he hr)]

end Engine

theorem Gateway.lookup_update_fieldRecord {fields : Fields} (h : (Assoc.keys fields).Nodup) (doc : Document)
    (k : Key) : (Assoc.update doc (fieldRecord fields)).lookup k =
      ((fieldRecord fields).lookup k).or (doc.lookup k) := by
  apply Assoc.lookup_update
  have hkeys : Assoc.keys (fieldRecord fields) = (Assoc.keys fields).map Key.string := by
    simp [Assoc.keys, fieldRecord]
  rw [hkeys, List.pairwise_map]
  exact h.imp fun hne => by simpa using Ne.symm hne

theorem Gateway.lookup_fieldRecord (fields : Fields) (s : String) :
    (fieldRecord fields).lookup (.string s) = (fields.lookup s).map .list := by
  induction fields with
  | nil => rfl
  | cons f fields ih =>
    obtain ⟨k, vs⟩ := f
    change List.lookup (Key.string s) ((Key.string k, Value.list vs) :: fieldRecord fields) = _
    rw [List.lookup_cons, List.lookup_cons, Key.beq_string, ih]
    split <;> rfl

end EdgeFields
