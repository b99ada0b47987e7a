import EdgeFields.Proofs.WrittenFields

/-!
# Pages

The relationship fields of an entity, whatever its store answers.  Each pair of a related name and a type is asked for
once, its first page gives the list under the key of the pair, and where that list is empty there is no field
(`Projector.project_result`).  The full index answers these fields, and the replacements that mend a document put the
same lists under the same keys (`Engine.outcome_reproject`).
-/

namespace EdgeFields

namespace Assoc

variable {κ α : Type} [BEq κ]

private theorem keys_insert [LawfulBEq κ] (k : κ) (a : α) (m : List (κ × α)) :
    keys (insert k a m) = keys m ∨ (k ∉ keys m ∧ keys (insert k a m) = keys m ++ [k]) := by
  induction m with
  | nil => exact .inr ⟨by simp [keys], rfl⟩
  | cons p r ih =>
    obtain ⟨k', a'⟩ := p
    unfold insert
    by_cases h : (k == k') = true
    · rw [if_pos h]
      exact .inl rfl
    · rw [if_neg h]
      have hne : k ≠ k' := fun e => h (beq_iff_eq.2 e)
      rcases ih with ih | ⟨hk, ih⟩
      · exact .inl (congrArg (k' :: ·) ih)
      · exact .inr ⟨List.not_mem_cons_of_ne_of_not_mem hne hk, congrArg (k' :: ·) ih⟩

private theorem nodup_keys_insert [LawfulBEq κ] {k : κ} {a : α} {m : List (κ × α)} (h : (keys m).Nodup) :
    (keys (insert k a m)).Nodup := by
  rcases keys_insert k a m with he | ⟨hk, he⟩
  · rwa [he]
  · rw [he, List.nodup_append]
    refine ⟨h, List.pairwise_singleton _ k, ?_⟩
    rintro x hx y hy rfl
    exact hk (List.mem_singleton.1 hy ▸ hx)

end Assoc

/-- What a store answers when an entity's related ones under a pair are asked for at a page size: nothing where it
gives no list. -/
def Store.answered (store : Store) (size : Related → Int) (id : Int) (r : Related) : List (Option Entity) :=
  ((store.related id r.1 r.2 (.int (size r))).toOption.bind fun page => page).getD []

namespace Projector

/-- An entity as it is embedded; null where that fails. -/
def embedded (p : Projector) (e : Entity) : Value := (p.projection e).toOption.getD .null

/-- What the document of an entity lists under a pair: the distinct entities of the first page. -/
def entries (p : Projector) (store : Store) (size : Related → Int) (id : Int) (r : Related) : List Value :=
  (distinct ((store.answered size id r).take (size r).toNat)).map p.embedded

/-- Whether every pair in texts has a page size, and the store answers the question at that size with entities that
can be embedded. -/
structure Reads (p : Projector) (store : Store) (size : Related → Int) : Prop where
  sized : ∀ r, FieldKey.InTexts r → p.pageSizeFor r.1 r.2 = .ok (.int (size r))
  answers : ∀ id r, FieldKey.InTexts r → ∃ page, store.related id r.1 r.2 (.int (size r)) = .ok page
  embeds : ∀ id r, FieldKey.InTexts r → ∀ e, some e ∈ store.answered size id r → p.projection e = .ok (p.embedded e)

/-- The fields made of the pairs `rs`: under the key of each its list, unless that is empty, and nothing else. -/
structure Shows (p : Projector) (list : Related → List Value) (rs : List Related) (fields : Fields) : Prop where
  found : ∀ r ∈ rs, fields.lookup (p.stem ++ FieldKey.body r) = if (list r).isEmpty then none else some (list r)
  origin : ∀ k, (∀ r ∈ rs, k ≠ p.stem ++ FieldKey.body r) → fields.lookup k = none
  nodup : (Assoc.keys fields).Nodup

variable {p : Projector}

theorem pageSizeFor_eq_ok {size : Int} (hh : p.hooks.pageSize = none) (hp : p.pageSize = .int size)
    (name type : Value) : p.pageSizeFor name type = .ok (.int (max size 1)) := by
  rw [pageSizeFor, hh, hp]
  simp only [ok_bind, Value.isBelow_int, pure_eq_ok, decide_eq_true_eq]
  congr 1
  split
  · rw [Int.max_eq_right (by omega)]
  · rw [Int.max_eq_left (by omega)]

theorem mem_of_mem_distinct {page : List (Option Entity)} {e : Entity} (h : e ∈ distinct page) : some e ∈ page := by
  obtain ⟨_, hmem, rfl⟩ := List.mem_filterMap.1 (mem_of_mem_distinctOf h)
  exact hmem

private theorem embed_result {n : Int} {page : List (Option Entity)}
    (h : ∀ e, some e ∈ page → p.projection e = .ok (p.embedded e)) :
    (p.embed (.int n) page).result = .ok ((distinct (page.take n.toNat)).map p.embedded) := by
  have hmap : (distinct (page.take n.toNat)).mapM (fun e => (p.projection e : Except Fault Value)) =
      .ok ((distinct (page.take n.toNat)).map p.embedded) :=
    mapM_eq_ok fun e he => h e (List.mem_of_mem_take (mem_of_mem_distinct he))
  rw [embed]
  cases page with
  | nil =>
    rw [List.take_nil]
    rfl
  | cons e page =>
    simp only [List.isEmpty_cons, Bool.false_eq_true, if_false, Report.result_bind, Report.result_lift,
      Value.isAtMost_int, ok_bind]
    split <;>
      simp only [Report.result_bind, Report.result_note, Report.result_lift, Value.toCount_int, ok_bind,
        Report.result_mapM, hmap]

section Reads

variable {store : Store} {size : Related → Int}

/-- A related name and type give their field, unless there is nothing to list. -/
private theorem Reads.addField_result (h : p.Reads store size) {e : Entity} {r : Related} (hr : FieldKey.InTexts r)
    (done : Fields × List Query) :
    (p.addField store e done r).result = .ok
      (if (p.entries store size e.id r).isEmpty then done.1
        else Assoc.insert (p.stem ++ FieldKey.body r) (p.entries store size e.id r) done.1,
      done.2 ++ [⟨e.id, r.1, r.2, .int (size r)⟩]) := by
  obtain ⟨page, hpage⟩ := h.answers e.id r hr
  have hembed : (p.embed (.int (size r)) (page.getD [])).result = .ok (p.entries store size e.id r) := by
    have hanswered : store.answered size e.id r = page.getD [] := by
      rw [Store.answered, hpage]
      rfl
    rw [entries, hanswered]
    exact embed_result fun e' he' => h.embeds e.id r hr e' (hanswered ▸ he')
  rw [addField]
  simp only [h.sized r hr, Report.result_bind, Report.result_lift, ok_bind, hpage, hembed]
  split
  · rfl
  · simp only [Report.result_bind, Report.result_lift, FieldKey.derive_eq_ok p.stem hr.1 hr.2, ok_bind,
      Report.result_pure]

end Reads

section Shows

variable {list : Related → List Value}

private theorem Shows.nil : Shows p list [] [] where
  found := by simp
  origin := by simp
  nodup := List.nodup_nil

private theorem Shows.add {rs : List Related} {fields : Fields} (h : Shows p list rs fields) {r : Related}
    (ha : ∀ r' ∈ rs, FieldKey.body r = FieldKey.body r' → r = r') :
    Shows p list (rs ++ [r])
      (if (list r).isEmpty then fields else Assoc.insert (p.stem ++ FieldKey.body r) (list r) fields) := by
  refine ⟨fun r' hr' => ?_, fun k hk => ?_, ?_⟩
  · by_cases hb : FieldKey.body r' = FieldKey.body r
    · have hr : r' = r := by
        rcases List.mem_append.1 hr' with hr' | hr'
        · exact (ha r' hr' hb.symm).symm
        · exact List.mem_singleton.1 hr'
      subst hr
      split
      · next he =>
        by_cases hmem : r' ∈ rs
        · rw [h.found r' hmem, if_pos he]
        · exact h.origin _ fun r'' hr'' hb' => hmem (ha r'' hr'' (FieldKey.stem_append_inj.1 hb') ▸ hr'')
      · rw [Assoc.lookup_insert_self]
    · have hmem : r' ∈ rs := (List.mem_append.1 hr').resolve_right fun hr' => hb (by rw [List.mem_singleton.1 hr'])
      split
      · exact h.found r' hmem
      · rw [Assoc.lookup_insert_of_ne (by simpa [FieldKey.stem_append_inj] using hb), h.found r' hmem]
  · have hold := h.origin k fun r' hr' => hk r' (List.mem_append_left _ hr')
    split
    · exact hold
    · rw [Assoc.lookup_insert_of_ne (by simpa using hk r (by simp)), hold]
  · split
    · exact h.nodup
    · exact Assoc.nodup_keys_insert h.nodup

/-- Every field is the field of a pair. -/
theorem Shows.exists_of_mem_keys {rs : List Related} {fields : Fields} (h : Shows p list rs fields) {k : String}
    (hk : k ∈ Assoc.keys fields) : ∃ r ∈ rs, k = p.stem ++ FieldKey.body r := by
  by_contra hnone
  obtain ⟨⟨_, vs⟩, hmem, rfl⟩ := List.mem_map.1 hk
  have hfound := Assoc.lookup_of_mem h.nodup hmem
  rw [h.origin _ fun r hr heq => hnone ⟨r, hr, heq⟩] at hfound
  cases hfound

/-- There is no field at all where nothing is listed. -/
theorem Shows.eq_nil {rs : List Related} {fields : Fields} (h : Shows p list rs fields)
    (hnone : ∀ r ∈ rs, (list r).isEmpty = true) : fields = [] := by
  cases fields with
  | nil => rfl
  | cons f fields =>
    obtain ⟨r, hr, heq⟩ := h.exists_of_mem_keys (k := f.1) (List.mem_cons_self ..)
    have hfound := h.found r hr
    rw [if_pos (hnone r hr), ← heq, List.lookup_cons_self] at hfound
    cases hfound

/-- The list of a pair, read back from the fields. -/
private theorem Shows.getD_lookup {rs : List Related} {fields : Fields} (h : Shows p list rs fields) {r : Related}
    (hr : r ∈ rs) : (fields.lookup (p.stem ++ FieldKey.body r)).getD [] = list r := by
  rw [h.found r hr]
  split
  · next he => rw [List.isEmpty_iff.1 he]; rfl
  · rfl

end Shows

/-- The fields of an entity's document list what the first page gives for each pair that its type is related to, and
each of these pairs is asked for once. -/
theorem Reads.project_result {store : Store} {size : Related → Int} (h : p.Reads store size) {ds : List Definition}
    (hds : Loaded ds) {e : Entity} (he : e.type.IsText) :
    ∃ fields, (p.project store ds e).result = .ok (fields,
        (Catalogue.relatedPairs ds e.type).map fun r => ⟨e.id, r.1, r.2, .int (size r)⟩) ∧
      Shows p (p.entries store size e.id) (Catalogue.relatedPairs ds e.type) fields := by
  -- All pairs, done or still to come, are related pairs of the type, whose keys are apart.
  suffices ∀ (rs' rs : List Related) (fields : Fields) (queries : List Query),
      (∀ r ∈ rs ++ rs', r ∈ Catalogue.relatedPairs ds e.type) → Shows p (p.entries store size e.id) rs fields →
      ∃ fields', (rs'.foldlM (p.addField store e) (fields, queries)).result = .ok (fields',
          queries ++ rs'.map fun r => ⟨e.id, r.1, r.2, .int (size r)⟩) ∧
        Shows p (p.entries store size e.id) (rs ++ rs') fields' by
    exact this _ [] [] [] (fun r hr => hr) .nil
  intro rs'
  induction rs' with
  | nil => exact fun rs fields queries _ h => ⟨fields, by rw [List.map_nil, List.append_nil]; rfl, by simpa using h⟩
  | cons r rs' ih =>
    intro rs fields queries hmem hshows
    have hr : r ∈ Catalogue.relatedPairs ds e.type := hmem r (by simp)
    have ha : ∀ r' ∈ rs, FieldKey.body r = FieldKey.body r' → r = r' :=
      fun r' hr' => hds.eq_of_body_eq he hr (hmem r' (by simp [hr']))
    obtain ⟨fields', hres, h'⟩ := ih (rs ++ [r]) _ (queries ++ [⟨e.id, r.1, r.2, .int (size r)⟩])
      (by simpa using hmem) (hshows.add ha)
    refine ⟨fields', ?_, by simpa using h'⟩
    rw [List.foldlM_cons, Report.result_bind, h.addField_result (hds.inTexts_of_mem_relatedPairs he hr), ok_bind,
      hres, List.map_cons, List.append_assoc, List.singleton_append]

/-- The replacement that makes the document of an entity list what the first page gives for a pair. -/
def replacement (p : Projector) (store : Store) (size : Related → Int) (id : Int) (r : Related) : Operation where
  owner := .int id
  field := .string (p.stem ++ FieldKey.body r)
  action := .known .replace
  projections := p.entries store size id r

end Projector

namespace Engine

variable {p : Projector} {store : Store} {size : Related → Int} {source : Source} {ds : List Definition}

/-- Computing the relationship fields of an entity always succeeds, with the same fields whatever was asked before. -/
theorem outcome_fullIndex_of_reads (h : p.Reads store size) (hl : (Catalogue.load p.hooks source).result = .ok ds)
    (hds : Loaded ds) {e : Entity} (he : e.type.IsText) :
    ∃ fields, p.Shows (p.entries store size e.id) (Catalogue.relatedPairs ds e.type) fields ∧
      ∀ engine : Engine, engine.catalogue.Holds ds → ∃ engine', (fullIndex p source store e).outcome engine =
        (engine', .ok fields) ∧ engine'.catalogue.Holds ds := by
  obtain ⟨fields, hproject, hshows⟩ := h.project_result hds he
  refine ⟨fields, hshows, fun engine hc => ?_⟩
  obtain ⟨c, hfor, hc'⟩ := Catalogue.outcome_definitionsFor hl hc he
  refine ⟨{ engine with catalogue := c }, ?_, hc'⟩
  simp [fullIndex, outcome_lookUp, hfor, hproject]

/-- Mending the document of an entity takes one replacement for every pair that its type is related to. -/
theorem outcome_reproject (h : p.Reads store size) (hl : (Catalogue.load p.hooks source).result = .ok ds)
    (hds : Loaded ds) {engine : Engine} (hc : engine.catalogue.Holds ds) {e : Entity} (he : e.type.IsText) :
    ∃ engine', (reproject p source store e).outcome engine = (engine',
        .ok ((Catalogue.relatedPairs ds e.type).map (p.replacement store size e.id))) ∧
      engine'.catalogue.Holds ds := by
  obtain ⟨c, hfor, hc'⟩ := Catalogue.outcome_definitionsFor hl hc he
  obtain ⟨fields, hproject, hshows⟩ := h.project_result hds he
  have hops : p.replacements ds e fields =
      .ok ((Catalogue.relatedPairs ds e.type).map (p.replacement store size e.id)) := by
    rw [Projector.replacements, p.fieldKeysFor_eq hds he, ok_bind, List.map_map]
    refine congrArg Except.ok (List.map_congr_left fun r hr => ?_)
    rw [Function.comp_apply, hshows.getD_lookup hr, Projector.replacement]
  refine ⟨⟨c, { engine.stats with operations := engine.stats.operations +
    ((Catalogue.relatedPairs ds e.type).map (p.replacement store size e.id)).length }⟩, ?_, hc'⟩
  simp only [reproject, Session.outcome_bind, outcome_lookUp, hfor, Session.continueWith_ok,
    Session.outcome_lift_report, hproject, Session.outcome_lift, hops, outcome_count, Session.outcome_pure]

end Engine

end EdgeFields
