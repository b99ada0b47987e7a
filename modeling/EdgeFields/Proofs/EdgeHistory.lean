import EdgeFields.Proofs.Convergence

/-!
# Edge histories

An engine turns every change of an edge into updates of the documents of its two entities.  An edge is there if the
last change of it has added it; in the end the field of an entity for a relationship name and a type has the summary
of exactly the entities of that type which such an edge joins to it (`EdgeHistory.mem_itemsAt_iff`).
-/

namespace EdgeFields

/-! ### Edges that are there -/

namespace EdgeChange

/-- Whether a change is one of the edge between two entities under a name, whichever way round it was told. -/
def IsOf (store : Store) (c : EdgeChange) (x y : Entity) (name : Value) : Prop :=
  c.event.name = name ∧
    ((c.event.a.resolve store = .ok (some x) ∧ c.event.b.resolve store = .ok (some y)) ∨
      (c.event.a.resolve store = .ok (some y) ∧ c.event.b.resolve store = .ok (some x)))

/-- Whether the edge between two entities under a name is there after some changes: the last one of it has added it.
-/
def Present (store : Store) (cs : List EdgeChange) (x y : Entity) (name : Value) : Prop :=
  ∃ before c after, cs = before ++ c :: after ∧ c.IsOf store x y name ∧ c.added = true ∧
    ∀ c' ∈ after, ¬ c'.IsOf store x y name

variable {store : Store} {cs : List EdgeChange} {c : EdgeChange} {x y : Entity} {name : Value}

private theorem not_present_nil : ¬ Present store [] x y name := by
  rintro ⟨before, c, after, h, -⟩
  exact absurd h.symm (by simp)

/-- One more change decides about its own edge, and leaves the others as they are. -/
private theorem present_concat_iff [Decidable (c.IsOf store x y name)] : Present store (cs ++ [c]) x y name ↔
    if c.IsOf store x y name then c.added = true else Present store cs x y name := by
  constructor
  · rintro ⟨before, c', after, hcs, hof, hadded, hafter⟩
    rcases List.eq_nil_or_concat' after with rfl | ⟨after', c'', rfl⟩
    · obtain ⟨-, hlast⟩ := List.append_inj' hcs rfl
      obtain rfl := (List.cons.inj hlast).1
      rwa [if_pos hof]
    · rw [← List.cons_append, ← List.append_assoc] at hcs
      obtain ⟨hfront, hlast⟩ := List.append_inj' hcs rfl
      obtain rfl := (List.cons.inj hlast).1
      rw [if_neg (hafter c (by simp))]
      exact ⟨before, c', after', hfront, hof, hadded, fun c'' h => hafter c'' (List.mem_append_left _ h)⟩
  · intro h
    split at h
    · next hof => exact ⟨cs, c, [], rfl, hof, h, List.forall_mem_nil _⟩
    · next hother =>
      obtain ⟨before, c', after, rfl, hof, hadded, hafter⟩ := h
      refine ⟨before, c', after ++ [c], by simp, hof, hadded, fun c'' h => ?_⟩
      rcases List.mem_append.1 h with h | h
      · exact hafter c'' h
      · exact List.mem_singleton.1 h ▸ hother

end EdgeChange

/-- Follows a change of an edge: the engine is asked for the operations, and they are carried out in order. -/
def Engine.follow (p : Projector) (source : Source) (store : Store) (state : Engine × (Int → Document))
    (c : EdgeChange) : Except Fault (Engine × (Int → Document)) := do
  let (engine, items) := (edge p source store c.action c.event).outcome state.1
  return (engine, ← (← items).foldlM World.carry state.2)

/-- Follows changes of edges one after another. -/
def Engine.followAll (p : Projector) (source : Source) (store : Store) (state : Engine × (Int → Document))
    (cs : List EdgeChange) : Except Fault (Engine × (Int → Document)) :=
  cs.foldlM (follow p source store) state

/-- The field of an entity for a relationship name and a type. -/
def Projector.slotOf (p : Projector) (e : Entity) (r : Related) : Slot := ⟨e.id, p.stem ++ FieldKey.body r⟩

/-- A store of entities under their own numbers, with texts for types. -/
def Store.Keyed (store : Store) : Prop := ∀ n e, store.entity n = some e → e.id = n ∧ e.type.IsText

/-- The end of an edge is the entity of the store under its number. -/
private theorem Store.Keyed.entity_of_resolve {store : Store} (hs : store.Keyed) {tip : Endpoint} {x : Entity}
    (h : tip.resolve store = .ok (some x)) : store.entity x.id = some x := by
  obtain ⟨n, hn⟩ := Endpoint.exists_of_resolve h
  exact (hs n x hn).1 ▸ hn

namespace Update

/-- Updates that all add, or all take away, decide about an entity if one of them is about it. -/
private theorem lastAdds_append {s : Slot} {x : Int} {us us' : List Update} {added : Bool}
    (h : ∀ u ∈ us', u.added = added) :
    LastAdds s x (us ++ us') ↔
      if ∃ u ∈ us', u.isAbout s x = true then added = true else LastAdds s x us := by
  induction us' using List.reverseRecOn with
  | nil => simp
  | append_singleton us' u ih =>
    have hu : u.added = added := h u (by simp)
    have ih := ih fun u' hu' => h u' (List.mem_append_left _ hu')
    rw [← List.append_assoc]
    cases habout : u.isAbout s x with
    | true =>
      rw [lastAdds_concat_of_about habout, hu, if_pos ⟨u, by simp, habout⟩]
    | false =>
      rw [lastAdds_concat_of_not_about habout, ih]
      simp [habout]

private theorem run_append (documents : Int → Document) (us us' : List Update) :
    run documents (us ++ us') = (run documents us >>= fun documents' => run documents' us') := by
  rw [run, List.map_append, List.foldlM_append]
  rfl

private theorem mem_of_arrival? {s : Slot} {x : Int} {us : List Update} {u : Update} (h : arrival? s x us = some u) :
    u ∈ us := by
  rw [← getElem?_arrivalAt] at h
  exact List.mem_of_getElem? h

private theorem isAbout_of_arrival? {s : Slot} {x : Int} {us : List Update} {u : Update}
    (h : arrival? s x us = some u) : u.isAbout s x = true := by
  have hadds : u.adds s x = true := List.find?_some h
  rw [adds, Bool.and_eq_true] at hadds
  exact hadds.1

end Update

namespace EdgeHistory

variable {p : Projector} {source : Source} {store : Store} {ds : List Definition}

/-- The updates of the documents of two entities by a change of an edge between them. -/
def updatesOf (p : Projector) (c : EdgeChange) (x y : Entity) : List Update :=
  if y.id = x.id then [.ofSummary (p.slotOf x (c.event.name, y.type)) y c.added]
  else [.ofSummary (p.slotOf x (c.event.name, y.type)) y c.added,
    .ofSummary (p.slotOf y (c.event.name, x.type)) x c.added]

/-- Updates that tell what some changes of edges tell: each puts the summary of an entity into a field of another that
it is related to, or takes it away, and the last one about the two adds it exactly if the edge is there. -/
structure Told (p : Projector) (ds : List Definition) (store : Store) (cs : List EdgeChange) (us : List Update) :
    Prop where
  origin : ∀ u ∈ us, ∃ owner other name, store.entity owner.id = some owner ∧ store.entity other.id = some other ∧
    (name, other.type) ∈ Catalogue.relatedPairs ds owner.type ∧
      u = .ofSummary (p.slotOf owner (name, other.type)) other u.added
  last : ∀ owner other name, store.entity owner.id = some owner → store.entity other.id = some other →
    (name, other.type) ∈ Catalogue.relatedPairs ds owner.type →
      (Update.LastAdds (p.slotOf owner (name, other.type)) other.id us ↔ EdgeChange.Present store cs owner other name)

private theorem Told.nil : Told p ds store [] [] where
  origin := List.forall_mem_nil _
  last owner other name _ _ _ := by
    refine iff_of_false ?_ EdgeChange.not_present_nil
    simp [Update.LastAdds]

section Keyed

variable (hds : Loaded ds) (hs : store.Keyed)
include hds hs

/-- An update of a field of one entity is about another one under a name exactly if it was made for these. -/
private theorem isAbout_ofSummary_iff {x y owner other : Entity} {name name' : Value} {added : Bool}
    (hx : store.entity x.id = some x) (hy : store.entity y.id = some y) (howner : store.entity owner.id = some owner)
    (hother : store.entity other.id = some other) (hr : (name', y.type) ∈ Catalogue.relatedPairs ds x.type)
    (hr' : (name, other.type) ∈ Catalogue.relatedPairs ds owner.type) :
    (Update.ofSummary (p.slotOf x (name', y.type)) y added).isAbout (p.slotOf owner (name, other.type)) other.id =
      true ↔ x = owner ∧ y = other ∧ name' = name := by
  have habout : (Update.ofSummary (p.slotOf x (name', y.type)) y added).isAbout (p.slotOf owner (name, other.type))
      other.id = true ↔ p.slotOf x (name', y.type) = p.slotOf owner (name, other.type) ∧ y.id = other.id := by
    rw [Update.isAbout, Bool.and_eq_true, decide_eq_true_eq, decide_eq_true_eq]
    rfl
  rw [habout, Projector.slotOf, Projector.slotOf, Slot.mk.injEq]
  constructor
  · rintro ⟨⟨hid, hfield⟩, hid'⟩
    obtain rfl : x = owner := Option.some.inj (hx.symm.trans ((congrArg store.entity hid).trans howner))
    obtain rfl : y = other := Option.some.inj (hy.symm.trans ((congrArg store.entity hid').trans hother))
    have hpair := hds.eq_of_body_eq (hs _ _ hx).2 hr hr' (FieldKey.stem_append_inj.1 hfield)
    exact ⟨rfl, rfl, (Prod.mk.inj hpair).1⟩
  · rintro ⟨rfl, rfl, rfl⟩
    exact ⟨⟨rfl, rfl⟩, rfl⟩

variable {c : EdgeChange} {x y : Entity}

section Joined

variable (hc : c.event.Joins ds store x y)
include hc

private theorem mem_relatedPairs_of_joins : (c.event.name, y.type) ∈ Catalogue.relatedPairs ds x.type ∧
    (c.event.name, x.type) ∈ Catalogue.relatedPairs ds y.type := by
  have htx := (hs _ _ (hs.entity_of_resolve hc.first)).2
  have hty := (hs _ _ (hs.entity_of_resolve hc.second)).2
  exact ⟨(Catalogue.mem_relatedPairs hds.textual htx).2 hc.types,
    (Catalogue.mem_relatedPairs hds.textual hty).2 hc.types.symm⟩

/-- One of the updates by a change is about an entity in a field of another one exactly if the change is one of the
edge between the two. -/
private theorem exists_isAbout_iff {owner other : Entity} {name : Value} (howner : store.entity owner.id = some owner)
    (hother : store.entity other.id = some other) (hr : (name, other.type) ∈ Catalogue.relatedPairs ds owner.type) :
    (∃ u ∈ updatesOf p c x y, u.isAbout (p.slotOf owner (name, other.type)) other.id = true) ↔
      c.IsOf store owner other name := by
  have hx := hs.entity_of_resolve hc.first
  have hy := hs.entity_of_resolve hc.second
  obtain ⟨hpairx, hpairy⟩ := mem_relatedPairs_of_joins hds hs hc
  have hforth := @isAbout_ofSummary_iff p _ _ hds hs _ _ _ _ _ _ c.added hx hy howner hother hpairx hr
  have hback := @isAbout_ofSummary_iff p _ _ hds hs _ _ _ _ _ _ c.added hy hx howner hother hpairy hr
  have hof : c.IsOf store owner other name ↔
      c.event.name = name ∧ ((x = owner ∧ y = other) ∨ (x = other ∧ y = owner)) := by
    simp [EdgeChange.IsOf, hc.first, hc.second]
  rw [hof, updatesOf]
  split
  · next hid =>
    obtain rfl : y = x := Option.some.inj (hy.symm.trans ((congrArg store.entity hid).trans hx))
    simp only [List.mem_singleton, exists_eq_left, hforth]
    constructor
    · rintro ⟨hown, hoth, hn⟩
      exact ⟨hn, .inl ⟨hown, hoth⟩⟩
    · rintro ⟨hn, ⟨hown, hoth⟩ | ⟨hoth, hown⟩⟩ <;> exact ⟨hown, hoth, hn⟩
  · simp only [List.mem_cons, List.not_mem_nil, or_false, exists_eq_or_imp, exists_eq_left, hforth, hback]
    constructor
    · rintro (⟨hown, hoth, hn⟩ | ⟨hown, hoth, hn⟩)
      · exact ⟨hn, .inl ⟨hown, hoth⟩⟩
      · exact ⟨hn, .inr ⟨hoth, hown⟩⟩
    · rintro ⟨hn, ⟨hown, hoth⟩ | ⟨hoth, hown⟩⟩
      · exact .inl ⟨hown, hoth, hn⟩
      · exact .inr ⟨hown, hoth, hn⟩

/-- The updates by one more change tell it. -/
private theorem Told.concat {cs : List EdgeChange} {us : List Update} (h : Told p ds store cs us) :
    Told p ds store (cs ++ [c]) (us ++ updatesOf p c x y) where
  origin u hu := by
    rcases List.mem_append.1 hu with hu | hu
    · exact h.origin u hu
    · have hx := hs.entity_of_resolve hc.first
      have hy := hs.entity_of_resolve hc.second
      obtain ⟨hpairx, hpairy⟩ := mem_relatedPairs_of_joins hds hs hc
      rw [updatesOf] at hu
      split at hu
      · obtain rfl := List.mem_singleton.1 hu
        exact ⟨x, y, _, hx, hy, hpairx, rfl⟩
      · simp only [List.mem_cons, List.not_mem_nil, or_false] at hu
        rcases hu with rfl | rfl
        · exact ⟨x, y, _, hx, hy, hpairx, rfl⟩
        · exact ⟨y, x, _, hy, hx, hpairy, rfl⟩
  last owner other name howner hother hr := by
    classical
    have hadded : ∀ u ∈ updatesOf p c x y, u.added = c.added := by
      intro u hu
      rw [updatesOf] at hu
      split at hu
      · exact List.mem_singleton.1 hu ▸ rfl
      · simp only [List.mem_cons, List.not_mem_nil, or_false] at hu
        rcases hu with rfl | rfl <;> rfl
    rw [Update.lastAdds_append hadded, EdgeChange.present_concat_iff, h.last owner other name howner hother hr]
    simp only [exists_isAbout_iff hds hs hc howner hother hr]

/-- A change of an edge is followed by carrying out its updates. -/
private theorem follow_eq (hproj : p.hooks.projection = none) (hdata : p.hooks.relationshipData = none)
    (hl : (Catalogue.load p.hooks source).result = .ok ds) (hkind : Kind.ofValue c.event.kind = .ok .entityToEntity)
    {engine : Engine} (he : engine.catalogue.Holds ds) :
    ∃ engine', engine'.catalogue.Holds ds ∧ ∀ documents, Engine.follow p source store (engine, documents) c =
      (Update.run documents (updatesOf p c x y) >>= fun documents' => .ok (engine', documents')) := by
  have hx := hs.entity_of_resolve hc.first
  have hy := hs.entity_of_resolve hc.second
  obtain ⟨d, hd, hn, -⟩ := id hc.types
  have hname : c.event.name.IsText := hn ▸ (hds.textual d hd).name
  have hfound : (Catalogue.find? ds c.event.name).isSome = true := (Catalogue.find?_isSome_iff hds).2 ⟨d, hd, hn⟩
  have hsummary : ∀ e : Entity, p.projection e = .ok (.object e.summary) := fun e => by
    rw [Projector.projection, hproj]
  have hops := @Projector.edgeOperations_eq_ok p c.action _ _ _ hname (hs _ _ hx).2 (hs _ _ hy).2 _ _ (hsummary x)
    (hsummary y)
  obtain ⟨engine', hedge, he'⟩ := Engine.outcome_edge hdata hl he hkind hfound hc.first hc.second hops
  refine ⟨engine', he', fun documents => ?_⟩
  have hitems : (if y.id = x.id && y.type == x.type then
      [p.operationOn c.action c.event.name x y (.object y.summary)] else
      [p.operationOn c.action c.event.name x y (.object y.summary),
        p.operationOn c.action c.event.name y x (.object x.summary)]).map BatchItem.operation =
      (updatesOf p c x y).map fun u => BatchItem.operation u.operation := by
    rw [updatesOf]
    by_cases hid : y.id = x.id
    · obtain rfl : y = x := Option.some.inj (hy.symm.trans ((congrArg store.entity hid).trans hx))
      rw [if_pos (by simp [(hs _ _ hx).2.beq_iff.2 rfl]), if_pos rfl]
      rfl
    · rw [if_neg (by simp [hid]), if_neg hid]
      rfl
  rw [Engine.follow, hedge]
  dsimp only
  rw [hitems]
  rfl

end Joined

/-- Changes of edges are followed by carrying out updates that tell them. -/
private theorem followAll_eq (hproj : p.hooks.projection = none) (hdata : p.hooks.relationshipData = none)
    (hl : (Catalogue.load p.hooks source).result = .ok ds) {engine : Engine} (he : engine.catalogue.Holds ds)
    {cs : List EdgeChange}
    (hcs : ∀ c ∈ cs, Kind.ofValue c.event.kind = .ok .entityToEntity ∧ ∃ x y, c.event.Joins ds store x y) :
    ∃ engine' us, engine'.catalogue.Holds ds ∧ Told p ds store cs us ∧ ∀ documents,
      Engine.followAll p source store (engine, documents) cs =
        (Update.run documents us >>= fun documents' => .ok (engine', documents')) := by
  induction cs using List.reverseRecOn with
  | nil => exact ⟨engine, [], he, .nil, fun _ => rfl⟩
  | append_singleton cs c ih =>
    obtain ⟨engine₁, us, he₁, htold, hrun⟩ := ih fun c' hc' => hcs c' (List.mem_append_left _ hc')
    obtain ⟨hkind, x, y, hc⟩ := hcs c (by simp)
    obtain ⟨engine₂, he₂, hfollow⟩ := follow_eq hds hs hc hproj hdata hl hkind he₁
    refine ⟨engine₂, _, he₂, htold.concat hds hs hc, fun documents => ?_⟩
    have hrun := hrun documents
    rw [Engine.followAll] at hrun ⊢
    rw [List.foldlM_append, hrun, Update.run_append]
    cases Update.run documents us with
    | error f => rfl
    | ok documents₁ => simp only [ok_bind, List.foldlM_cons, List.foldlM_nil, hfollow, bind_pure]

/-- An update that an entity came to stay with has the summary of that entity. -/
private theorem Told.exists_of_arrival? {cs : List EdgeChange} {us : List Update} (h : Told p ds store cs us)
    {x : Entity}
    (hx : store.entity x.id = some x) {r : Related} (hr : r ∈ Catalogue.relatedPairs ds x.type) {n : Int} {u : Update}
    (hu : Update.arrival? (p.slotOf x r) n us = some u) :
    ∃ y, store.entity y.id = some y ∧ y.id = n ∧ y.type = r.2 ∧ u.operation.projection = .object y.summary := by
  obtain ⟨owner, y, name, howner, hy, hpair, heq⟩ := h.origin u (Update.mem_of_arrival? hu)
  have habout := Update.isAbout_of_arrival? hu
  rw [heq, Update.isAbout, Bool.and_eq_true, decide_eq_true_eq, decide_eq_true_eq] at habout
  obtain ⟨hslot, rfl⟩ := habout
  obtain ⟨hid, hfield⟩ := Slot.mk.inj hslot
  obtain rfl : owner = x := Option.some.inj (howner.symm.trans ((congrArg store.entity hid).trans hx))
  have hsame := hds.eq_of_body_eq (hs _ _ hx).2 hpair hr (FieldKey.stem_append_inj.1 hfield)
  exact ⟨y, hy, rfl, hsame ▸ rfl, by rw [heq]; rfl⟩

/-- Documents without relationship fields, once the changes of edges are followed: the field of an entity for a name
and a type has the summaries of the entities of that type which the edges that are there join to it. -/
theorem mem_itemsAt_iff (hproj : p.hooks.projection = none) (hdata : p.hooks.relationshipData = none)
    (hl : (Catalogue.load p.hooks source).result = .ok ds) {engine : Engine} (he : engine.catalogue.Holds ds)
    {documents : Int → Document} (hfresh : ∀ x, store.entity x.id = some x → ∀ r ∈ Catalogue.relatedPairs ds x.type,
      (documents x.id).lookup (p.keyOf r) = none) {cs : List EdgeChange}
    (hcs : ∀ c ∈ cs, Kind.ofValue c.event.kind = .ok .entityToEntity ∧ ∃ x y, c.event.Joins ds store x y) :
    ∃ engine' documents', Engine.followAll p source store (engine, documents) cs = .ok (engine', documents') ∧
      engine'.catalogue.Holds ds ∧
      ∀ x, store.entity x.id = some x → ∀ r ∈ Catalogue.relatedPairs ds x.type, ∀ v,
        v ∈ (documents' x.id).itemsAt (p.keyOf r) ↔
          ∃ y, store.entity y.id = some y ∧ y.type = r.2 ∧ EdgeChange.Present store cs x y r.1 ∧
            v = .object y.summary := by
  obtain ⟨engine', us, he', htold, hrun⟩ := followAll_eq hds hs hproj hdata hl he hcs
  have habsent : ∀ x, store.entity x.id = some x → ∀ r ∈ Catalogue.relatedPairs ds x.type,
      (documents x.id).Lists (p.keyOf r) [] := fun x hx r hr => ⟨hfresh x hx r hr, List.forall_mem_nil _⟩
  obtain ⟨documents', hdocuments, hfollowed⟩ := @Update.run_followed us documents fun u hu => by
    obtain ⟨owner, other, name, howner, -, hr, hu⟩ := htold.origin u hu
    exact ⟨[], hu ▸ habsent owner howner _ hr⟩
  refine ⟨engine', documents', by rw [hrun, hdocuments]; rfl, he', fun x hx r hr v => ?_⟩
  obtain ⟨vs, ⟨xs, harrived, rfl⟩, hlists⟩ := hfollowed.holds (p.slotOf x r) [] (habsent x hx r hr)
  rw [Document.Keeps.itemsAt_eq (show (documents' x.id).Keeps (p.keyOf r) _ from hlists.1)]
  simp only [Update.remaining, List.filter_nil, List.nil_append, Update.brought, List.mem_filterMap,
    Option.map_eq_some_iff]
  constructor
  · rintro ⟨n, hn, u, hu, rfl⟩
    obtain ⟨y, hy, rfl, htype, hprojection⟩ := htold.exists_of_arrival? hds hs hx hr hu
    have hpair : (r.1, y.type) = r := Prod.ext rfl htype
    have hlast := (htold.last x y r.1 hx hy (hpair ▸ hr)).1 (hpair.symm ▸ ((harrived.mem _).1 hn).2)
    exact ⟨y, hy, htype, hlast, hprojection⟩
  · rintro ⟨y, hy, htype, hpresent, rfl⟩
    have hpair : (r.1, y.type) = r := Prod.ext rfl htype
    have hlast : Update.LastAdds (p.slotOf x r) y.id us :=
      hpair ▸ (htold.last x y r.1 hx hy (hpair ▸ hr)).2 hpresent
    obtain ⟨u, hu⟩ := Option.isSome_iff_exists.1 (Update.lastAdds_iff.1 hlast)
    obtain ⟨y', hy', hid, -, hprojection⟩ := htold.exists_of_arrival? hds hs hx hr hu
    obtain rfl : y' = y := Option.some.inj (hy'.symm.trans ((congrArg store.entity hid).trans hy))
    exact ⟨y'.id, (harrived.mem _).2 ⟨List.forall_mem_nil _, hlast⟩, u, hu, hprojection⟩

end Keyed

end EdgeHistory

end EdgeFields
