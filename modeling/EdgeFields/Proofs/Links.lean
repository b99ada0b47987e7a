import EdgeFields.Proofs.Outcome
import EdgeFields.Proofs.Texts
import EdgeFields.RelatedFields
import Mathlib.Data.List.Basic
import Mathlib.Data.List.Induction

/-!
# Links

The entities that the links of a graph join to an entity, in the order of the links, and what becomes of them when a
link is added (`neighbours_link`) or all links of a name between two entities are cut (`neighbours_sever`).  A
document lists each of them once, and follows the changes by one step (`distinctOf_append`, `distinctOf_filter`).
-/

namespace EdgeFields

/-! ### Distinct entities -/

namespace Projector

/-- Lists an entity unless one of the same number is listed. -/
def listed (kept : List Entity) (e : Entity) : List Entity :=
  if kept.any (·.id == e.id) then kept else kept ++ [e]

/-- The entities of a list without those listed before. -/
def distinctOf (es : List Entity) : List Entity := es.foldl listed []

theorem distinct_map_some (es : List Entity) : distinct (es.map some) = distinctOf es := by
  rw [distinct, List.filterMap_map]
  simp only [Function.comp_def, id, List.filterMap_some]
  rfl

theorem distinctOf_append (es : List Entity) (e : Entity) : distinctOf (es ++ [e]) = listed (distinctOf es) e := by
  rw [distinctOf, List.foldl_append]
  rfl

private theorem mem_foldl_listed {es kept : List Entity} {e : Entity} (h : e ∈ es.foldl listed kept) :
    e ∈ kept ∨ e ∈ es := by
  induction es generalizing kept with
  | nil => exact .inl h
  | cons e' es ih =>
    rcases ih h with h | h
    · unfold listed at h
      split at h
      · exact .inl h
      · rcases List.mem_append.1 h with h | h
        · exact .inl h
        · exact .inr (List.mem_singleton.1 h ▸ List.mem_cons_self ..)
    · exact .inr (List.mem_cons_of_mem _ h)

theorem mem_of_mem_distinctOf {es : List Entity} {e : Entity} (h : e ∈ distinctOf es) : e ∈ es :=
  (mem_foldl_listed h).resolve_left (by simp)

theorem pairwise_distinctOf (es : List Entity) : (distinctOf es).Pairwise fun e e' => e.id ≠ e'.id := by
  induction es using List.reverseRecOn with
  | nil => exact List.Pairwise.nil
  | append_singleton es e ih =>
    rw [distinctOf_append, listed]
    split
    · exact ih
    · next hnew =>
      refine List.pairwise_append.2 ⟨ih, List.pairwise_singleton _ e, fun e' he' x hx hid => ?_⟩
      rw [List.mem_singleton.1 hx] at hid
      exact hnew (List.any_eq_true.2 ⟨e', he', by simp [hid]⟩)

/-- Entities of one number stay or go together, so that it does not matter whether some go before or after listing. -/
theorem distinctOf_filter (q : Int → Bool) (es : List Entity) :
    distinctOf (es.filter fun e => q e.id) = (distinctOf es).filter fun e => q e.id := by
  -- The induction goes from any entities listed already.
  suffices ∀ kept : List Entity, (es.filter fun e => q e.id).foldl listed (kept.filter fun e => q e.id) =
      (es.foldl listed kept).filter fun e => q e.id by
    exact this []
  intro kept
  induction es generalizing kept with
  | nil => rfl
  | cons e es ih =>
    have hany : q e.id = true → ((kept.filter fun e => q e.id).any (·.id == e.id)) = kept.any (·.id == e.id) := by
      intro hq
      rw [List.any_filter]
      congr 1
      funext e'
      by_cases he : e'.id = e.id <;> simp [he, hq]
    rw [List.foldl_cons, ← ih, List.filter_cons]
    by_cases hq : q e.id = true
    · rw [if_pos hq, List.foldl_cons]
      congr 1
      rw [listed, listed, hany hq]
      split
      · rfl
      · simp [hq]
    · rw [if_neg hq]
      congr 1
      rw [listed]
      split
      · rfl
      · simp [hq]

end Projector

/-! ### Neighbours -/

private theorem Link.other?_int {a b id : Int} {name : Value} : other? ⟨.int a, .int b, name⟩ (.int id) =
    if a = id then some (.int b) else if b = id then some (.int a) else none := by
  simp [other?]

namespace Graph

/-- A graph of entities under their own numbers, with texts for types, whose links join numbers; it has no fixed
answers. -/
structure Keyed (g : Graph) : Prop where
  entity : ∀ n e, g.find? (.int n) = some e → e.id = n ∧ e.type.IsText
  links : ∀ l ∈ g.links, ∃ a b, l.a = .int a ∧ l.b = .int b
  pages : g.pages = []

/-- Entities under their numbers, with no links between them. -/
def ofEntities (es : List Entity) : Graph where
  entities := es.map fun e => (.int e.id, e)

/-- The entity under a number. -/
def under? (g : Graph) : Value → Option Entity
  | .int n => g.find? (.int n)
  | _ => none

/-- The entity of a type that a link of a name joins to an entity. -/
def across (g : Graph) (id : Int) (name type : Value) (l : Link) : Option Entity :=
  if l.name == name then ((l.other? (.int id)).bind g.under?).filter (·.type == type) else none

/-- The entities of a type that links of a name join to an entity. -/
def neighbours (g : Graph) (id : Int) (name type : Value) : List Entity :=
  g.links.filterMap (g.across id name type)

/-- Cuts every link of a name between two entities, whichever way round it was made. -/
def sever (g : Graph) (a b : Int) (name : Value) : Graph :=
  { g with links := g.links.filter fun l =>
      !(l.name == name && (l.a == .int a && l.b == .int b || l.a == .int b && l.b == .int a)) }

@[simp] theorem find?_link (g : Graph) (l : Link) (k : Key) : (g.link l).find? k = g.find? k := rfl

@[simp] theorem find?_sever (g : Graph) (a b : Int) (name : Value) (k : Key) :
    (g.sever a b name).find? k = g.find? k := rfl

variable {g : Graph}

theorem eq_of_find? {x y : Entity} (hx : g.find? (.int x.id) = some x) (hy : g.find? (.int y.id) = some y)
    (h : x.id = y.id) : x = y :=
  Option.some.inj (by rw [← hx, ← hy, h])

theorem keyed_ofEntities {es : List Entity} (h : ∀ e ∈ es, e.type.IsText) : (ofEntities es).Keyed where
  entity n e he := by
    obtain ⟨k, hk, hmem⟩ := Assoc.mem_of_lookup he
    obtain ⟨e', he', hpair⟩ := List.mem_map.1 hmem
    obtain ⟨rfl, rfl⟩ := Prod.mk.inj hpair
    rw [Key.beq_int, beq_iff_eq] at hk
    exact ⟨hk.symm, h e' he'⟩
  links := by simp [ofEntities]
  pages := rfl

private theorem Keyed.link (h : g.Keyed) (a b : Int) (name : Value) : (g.link ⟨.int a, .int b, name⟩).Keyed where
  entity := h.entity
  links l hl := by
    rcases List.mem_append.1 hl with hl | hl
    · exact h.links l hl
    · rw [List.mem_singleton.1 hl]
      exact ⟨a, b, rfl, rfl⟩
  pages := h.pages

private theorem Keyed.sever (h : g.Keyed) (a b : Int) (name : Value) : (g.sever a b name).Keyed where
  entity := h.entity
  links l hl := h.links l (List.mem_filter.1 hl).1
  pages := h.pages

private theorem Keyed.other?_number (h : g.Keyed) {l : Link} (hl : l ∈ g.links) {id : Int} {v : Value}
    (hv : l.other? (.int id) = some v) : ∃ n, v = .int n := by
  obtain ⟨a, b, ha, hb⟩ := h.links l hl
  unfold Link.other? at hv
  split at hv
  · exact ⟨b, by rw [← Option.some.inj hv, hb]⟩
  · split at hv
    · exact ⟨a, by rw [← Option.some.inj hv, ha]⟩
    · simp at hv

private theorem Keyed.across_eq_some (h : g.Keyed) {a b id : Int} {name type name' : Value} {e : Entity}
    (he : g.across id name type ⟨.int a, .int b, name'⟩ = some e) :
    (name' == name) = true ∧ (e.type == type) = true ∧ g.find? (.int e.id) = some e ∧
      ((a = id ∧ b = e.id) ∨ (b = id ∧ a = e.id)) := by
  rw [across, Link.other?_int] at he
  split at he
  · next hname =>
    obtain ⟨he, ht⟩ := Option.filter_eq_some_iff.1 he
    refine ⟨hname, ht, ?_⟩
    split at he
    · next ha =>
      have hfind : g.find? (.int b) = some e := he
      have hid := (h.entity b e hfind).1
      exact ⟨hid ▸ hfind, .inl ⟨ha, hid.symm⟩⟩
    · split at he
      · next hb =>
        have hfind : g.find? (.int a) = some e := he
        have hid := (h.entity a e hfind).1
        exact ⟨hid ▸ hfind, .inr ⟨hb, hid.symm⟩⟩
      · simp at he
  · simp at he

theorem Keyed.mem_neighbours (h : g.Keyed) {id : Int} {name type : Value} {e : Entity}
    (he : e ∈ g.neighbours id name type) : (e.type == type) = true ∧ g.find? (.int e.id) = some e := by
  obtain ⟨⟨a, b, name'⟩, hl, he⟩ := List.mem_filterMap.1 he
  obtain ⟨a, b, rfl, rfl⟩ := h.links _ hl
  obtain ⟨-, ht, hfind, -⟩ := h.across_eq_some he
  exact ⟨ht, hfind⟩

/-- Going through the links finds the neighbours. -/
theorem Keyed.linked_eq_ok (h : g.Keyed) (id : Int) (name type : Value) :
    g.linked id name type = .ok (g.neighbours id name type) := by
  have hends : ((g.links.filter fun l => l.name == name).filterMap fun l => l.other? (.int id)).mapM g.get =
      .ok (((g.links.filter fun l => l.name == name).filterMap fun l => l.other? (.int id)).map g.under?) := by
    apply mapM_eq_ok
    intro v hv
    obtain ⟨l, hl, hv⟩ := List.mem_filterMap.1 hv
    obtain ⟨n, rfl⟩ := h.other?_number (List.mem_filter.1 hl).1 hv
    rfl
  rw [linked]
  simp only [hends, ok_bind, pure_eq_ok, neighbours]
  congr 1
  induction g.links with
  | nil => rfl
  | cons l ls ih =>
    rw [List.filter_cons, List.filterMap_cons, across]
    by_cases hname : (l.name == name) = true
    · rw [if_pos hname, if_pos hname, List.filterMap_cons]
      cases l.other? (.int id) with
      | none => exact ih
      | some v =>
        rw [Option.bind_some, List.map_cons, List.filterMap_cons]
        cases g.under? v with
        | none => exact ih
        | some e =>
          rw [List.filter_cons, ih, Option.filter_some]
          split <;> rfl
    · rw [if_neg hname, if_neg hname]
      exact ih

/-! ### Changes of the links -/

section Changes

variable {x y : Entity} {name : Value}

theorem neighbours_link (hx : g.find? (.int x.id) = some x) (hy : g.find? (.int y.id) = some y) (id : Int)
    (name' type : Value) :
    (g.link ⟨.int x.id, .int y.id, name⟩).neighbours id name' type = g.neighbours id name' type ++
      (if name == name' then
        (if x.id = id then some y else if y.id = id then some x else none).filter (·.type == type)
      else none).toList := by
  change (g.links ++ [_]).filterMap (g.across id name' type) = _
  rw [List.filterMap_append]
  congr 1
  rw [List.filterMap_cons, List.filterMap_nil, across, Link.other?_int]
  dsimp only
  have hends : ((if x.id = id then some (Value.int y.id) else if y.id = id then some (Value.int x.id) else none).bind
      g.under?) = if x.id = id then some y else if y.id = id then some x else none := by
    split
    · exact hy
    · split
      · exact hx
      · rfl
  rw [hends]
  cases (if name == name' then _ else none : Option Entity) <;> rfl

theorem Keyed.neighbours_sever (h : g.Keyed) (hn : name.IsText) (a b id : Int) {name' : Value} (hn' : name'.IsText)
    (type : Value) :
    (g.sever a b name).neighbours id name' type = (g.neighbours id name' type).filter fun e =>
      !(name == name' && (id == a && e.id == b || id == b && e.id == a)) := by
  obtain ⟨s, rfl⟩ := hn
  obtain ⟨s', rfl⟩ := hn'
  change (g.links.filter _).filterMap (g.across id _ type) = _
  rw [neighbours, List.filter_filterMap, List.filterMap_filter]
  -- A link is cut exactly if what it joins to `id` is the other one of `a` and `b`.
  apply List.filterMap_congr
  intro l hl
  obtain ⟨c, d, hc, hd⟩ := h.links l hl
  obtain ⟨u, v, n⟩ := l
  dsimp only at hc hd
  subst hc hd
  cases he : g.across id (.string s') type ⟨.int c, .int d, n⟩ with
  | none => simp
  | some e =>
    obtain ⟨hname, -, -, hends⟩ := h.across_eq_some he
    rw [Value.beq_string_right] at hname
    subst hname
    by_cases hs : s' = s
    · subst hs
      rcases hends with ⟨rfl, rfl⟩ | ⟨rfl, rfl⟩
      · simp [Option.filter_some]
      · simp [Option.filter_some, and_comm, or_comm]
    · simp [Option.filter_some, hs, Ne.symm hs]

/-- Adds a link between two entities under a name, or cuts all of them. -/
def relink (g : Graph) (added : Bool) (a b : Int) (name : Value) : Graph :=
  if added then g.link ⟨.int a, .int b, name⟩ else g.sever a b name

/-- The entities that the document of an entity has to list under a name and a type. -/
def listing (g : Graph) (id : Int) (r : Related) : List Entity :=
  Projector.distinctOf (g.neighbours id r.1 r.2)

/-- Lists an entity, or takes it from a list. -/
def relist (added : Bool) (es : List Entity) (e : Entity) : List Entity :=
  if added then Projector.listed es e else es.filter fun e' => !(e'.id == e.id)

@[simp] theorem find?_relink (g : Graph) (added : Bool) (a b : Int) (name : Value) (k : Key) :
    (g.relink added a b name).find? k = g.find? k := by
  cases added <;> rfl

theorem Keyed.relink (h : g.Keyed) (added : Bool) (a b : Int) (name : Value) :
    (g.relink added a b name).Keyed := by
  cases added
  · exact h.sever a b name
  · exact h.link a b name

theorem Keyed.mem_listing (h : g.Keyed) {id : Int} {r : Related} {e : Entity} (he : e ∈ g.listing id r) :
    g.find? (.int e.id) = some e :=
  (h.mem_neighbours (Projector.mem_of_mem_distinctOf he)).2

variable {added : Bool} (h : g.Keyed) (hx : g.find? (.int x.id) = some x) (hy : g.find? (.int y.id) = some y)
  (hn : name.IsText)
include h hx hy hn

/-- What changes for the first of two entities: the second is listed or taken away. -/
theorem Keyed.listing_relink_left :
    (g.relink added x.id y.id name).listing x.id (name, y.type) = relist added (g.listing x.id (name, y.type)) y := by
  have hty := (h.entity _ y hy).2
  cases added
  · change Projector.distinctOf ((g.sever x.id y.id name).neighbours x.id name y.type) = List.filter _ _
    rw [h.neighbours_sever hn _ _ _ hn, Projector.distinctOf_filter fun n =>
      !(name == name && (x.id == x.id && n == y.id || x.id == y.id && n == x.id))]
    apply List.filter_congr
    intro e _
    rw [hn.beq_iff.2 rfl]
    by_cases hxy : x.id = y.id <;> simp [hxy]
  · change Projector.distinctOf ((g.link _).neighbours x.id name y.type) = Projector.listed _ _
    rw [neighbours_link hx hy, hn.beq_iff.2 rfl]
    simp [hty.beq_iff.2 rfl, Option.filter_some, Projector.distinctOf_append, listing]

/-- What changes for the second of two entities: the first is listed or taken away. -/
theorem Keyed.listing_relink_right :
    (g.relink added x.id y.id name).listing y.id (name, x.type) = relist added (g.listing y.id (name, x.type)) x := by
  by_cases hxy : x.id = y.id
  · obtain rfl := eq_of_find? hx hy hxy
    exact h.listing_relink_left hx hx hn
  · have htx := (h.entity _ x hx).2
    cases added
    · change Projector.distinctOf ((g.sever x.id y.id name).neighbours y.id name x.type) = List.filter _ _
      rw [h.neighbours_sever hn _ _ _ hn, Projector.distinctOf_filter fun n =>
        !(name == name && (y.id == x.id && n == y.id || y.id == y.id && n == x.id))]
      apply List.filter_congr
      intro e _
      rw [hn.beq_iff.2 rfl]
      simp [Ne.symm hxy]
    · change Projector.distinctOf ((g.link _).neighbours y.id name x.type) = Projector.listed _ _
      rw [neighbours_link hx hy, hn.beq_iff.2 rfl]
      simp [hxy, htx.beq_iff.2 rfl, Option.filter_some, Projector.distinctOf_append, listing]

/-- Nothing changes for other entities, names and types. -/
theorem Keyed.listing_relink_of_ne {id : Int} {r : Related} (hr : r.1.IsText)
    (hne : id = x.id → r ≠ (name, y.type)) (hne' : id = y.id → r ≠ (name, x.type)) :
    (g.relink added x.id y.id name).listing id r = g.listing id r := by
  have htx := (h.entity _ x hx).2
  have hty := (h.entity _ y hy).2
  obtain ⟨name', type⟩ := r
  by_cases hname : name = name'
  swap
  · cases added
    · change Projector.distinctOf ((g.sever x.id y.id name).neighbours id name' type) = _
      rw [h.neighbours_sever hn _ _ _ hr, hn.beq_of_ne hname]
      simp [listing]
    · change Projector.distinctOf ((g.link _).neighbours id name' type) = _
      rw [neighbours_link hx hy, hn.beq_of_ne hname]
      simp [listing]
  subst hname
  -- Under the changed name only entities of another type than `type` come or go.
  have hty' : id = x.id → (y.type == type) = false := fun hid =>
    hty.beq_of_ne fun ht => hne hid (by rw [ht])
  have htx' : id = y.id → (x.type == type) = false := fun hid =>
    htx.beq_of_ne fun ht => hne' hid (by rw [ht])
  cases added
  · change Projector.distinctOf ((g.sever x.id y.id name).neighbours id name type) = _
    rw [h.neighbours_sever hn _ _ _ hn, listing]
    congr 1
    apply List.filter_eq_self.2
    intro e he
    obtain ⟨ht, hfind⟩ := h.mem_neighbours he
    have hleft : id = x.id → e.id ≠ y.id := by
      intro hid heq
      rw [eq_of_find? hfind hy heq, hty' hid] at ht
      exact Bool.false_ne_true ht
    have hright : id = y.id → e.id ≠ x.id := by
      intro hid heq
      rw [eq_of_find? hfind hx heq, htx' hid] at ht
      exact Bool.false_ne_true ht
    rw [hn.beq_iff.2 rfl]
    simpa using ⟨Decidable.imp_iff_not_or.1 hleft, Decidable.imp_iff_not_or.1 hright⟩
  · change Projector.distinctOf ((g.link _).neighbours id name type) = _
    have hnone :
        (if x.id = id then some y else if y.id = id then some x else none).filter (·.type == type) = none := by
      split
      · next hid => simp [Option.filter_some, hty' hid.symm]
      · split
        · next hid => simp [Option.filter_some, htx' hid.symm]
        · rfl
    rw [neighbours_link hx hy, hnone]
    simp [listing]

end Changes

end Graph

end EdgeFields
