import EdgeFields.Proofs.ActiveFilters
import EdgeFields.Proofs.WrittenFields

/-!
# Agreement on field keys

The schema, the documents and the filters go through the definitions each in a way of its own: the schema through
all types of each definition, documents through the types on the other side from theirs, and filters through the
same types grouped by name.  They come to the same field keys (`FieldKey.schema_documents_filters_agree`).
-/

namespace EdgeFields

/-- Every pair of the definitions is related to some type, for a valid definition has types on both sides. -/
private theorem Loaded.exists_mem_relatedPairs {ds : List Definition} (h : Loaded ds) {r : Related}
    (hr : r ∈ FieldKey.pairs ds) : ∃ s, r ∈ Catalogue.relatedPairs ds (.string s) := by
  obtain ⟨d, hd, hvalid, hn, hside⟩ := (FieldKey.mem_pairs h.textual).1 hr
  simp only [Definition.isValid, Bool.and_eq_true, Bool.not_eq_true', List.isEmpty_eq_false_iff] at hvalid
  have hopposite : ∃ t, t.IsText ∧ ((t ∈ d.fromTypes ∧ r.2 ∈ d.toTypes) ∨ (t ∈ d.toTypes ∧ r.2 ∈ d.fromTypes)) := by
    rcases hside with hside | hside
    · obtain ⟨t, ht⟩ := List.exists_mem_of_ne_nil _ hvalid.2
      exact ⟨t, (h.textual d hd).to_text ht, .inr ⟨ht, hside⟩⟩
    · obtain ⟨t, ht⟩ := List.exists_mem_of_ne_nil _ hvalid.1.2
      exact ⟨t, (h.textual d hd).from_text ht, .inl ⟨ht, hside⟩⟩
  obtain ⟨t, ⟨s, rfl⟩, hsides⟩ := hopposite
  exact ⟨s, (Catalogue.mem_relatedPairs h.textual (Value.isText_string s)).2 ⟨d, hd, hn, hsides⟩⟩

namespace FieldKey

/-- The schema maps the field keys that documents of some type can have, and nothing else.  For every type, these keys
all differ, there is one for each related pair, and the filters of the type have every one of them once. -/
theorem schema_documents_filters_agree (stem : String) {source : Source} (hd : ∀ d ∈ source.getD [], d.Textual) :
    ∃ ds, (Catalogue.load {} source).result = .ok ds ∧
      (∃ properties, (Schema.properties { stem } (ds.map .definition)).result = .ok properties ∧
        ∀ k, k ∈ Assoc.keys properties ↔
          ∃ type ks s, Projector.fieldKeysFor { stem } ds (.string type) = .ok ks ∧ s ∈ ks ∧ k = .string s) ∧
      ∀ type, ∃ ks, Projector.fieldKeysFor { stem } ds (.string type) = .ok ks ∧ ks.Nodup ∧
        (Catalogue.relatedPairs ds (.string type)).Nodup ∧
        ((Catalogue.relatedPairs ds (.string type)).mapM fun r => derive stem r.1 r.2) = .ok ks ∧
        ∀ page, ∃ filters : List (Key × List Value),
          Filter.Resolver.supported { stem } ds (.string type) page = .ok (filters.map fun f => (f.1, .list f.2)) ∧
            (filters.flatMap (·.2)).Perm (ks.map .string) := by
  obtain ⟨ds, hl, hds⟩ := @Catalogue.load_loaded {} rfl source hd
  refine ⟨ds, hl, ?_, fun type => ?_⟩
  · obtain ⟨keys, hproperties, hmem⟩ := Schema.properties_eq_ok stem hds
    refine ⟨_, hproperties, fun k => ?_⟩
    rw [Assoc.keys, List.map_map, Function.comp_def, List.map_id', hmem]
    constructor
    · rintro ⟨r, hr, rfl⟩
      obtain ⟨type, htype⟩ := hds.exists_mem_relatedPairs hr
      exact ⟨type, _, _, Projector.fieldKeysFor_eq { stem } hds (Value.isText_string type),
        List.mem_map.2 ⟨r, htype, rfl⟩, rfl⟩
    · rintro ⟨type, ks, s, hks, hs, rfl⟩
      have ht := Value.isText_string type
      obtain rfl := Except.ok.inj ((Projector.fieldKeysFor_eq { stem } hds ht).symm.trans hks)
      obtain ⟨r, hr, rfl⟩ := List.mem_map.1 hs
      exact ⟨r, hds.mem_pairs_of_mem_relatedPairs ht hr, rfl⟩
  · have ht := Value.isText_string type
    refine ⟨_, Projector.fieldKeysFor_eq { stem } hds ht, hds.nodup_keys ht stem,
      Catalogue.nodup_relatedPairs hds.textual ht, ?_, fun page => ?_⟩
    · apply mapM_eq_ok
      intro r hr
      have hr' := hds.inTexts_of_mem_relatedPairs ht hr
      exact derive_eq_ok stem hr'.1 hr'.2
    · have hperm := (Filter.grouped_grouped stem (Catalogue.relatedPairs ds (.string type))).perm.map Value.string
      refine ⟨Filter.asLists (Filter.grouped stem (Catalogue.relatedPairs ds (.string type))), ?_, ?_⟩
      · rw [Filter.asRecord_eq]
        exact Filter.Resolver.supported_eq_ok hds ht stem page
      · rw [List.map_flatMap] at hperm
        rw [Filter.asLists, List.flatMap_map]
        exact hperm

theorem schema_documents_filters_agree_sponsors :
    (∀ d ∈ [Declaration.between "sponsors" "event" "company"], d.Textual) ∧
      ∃ filters : List (Key × List Value),
        Filter.Resolver.supported { stem := "nx_" } [⟨.string "sponsors", [.string "event"], [.string "company"]⟩]
            (.string "event") .null = .ok (filters.map fun f => (f.1, .list f.2)) ∧
          (filters.flatMap (·.2)).Perm [.string "nx_sponsors_company"] := by
  have hcompany : identifierOf "company" = "company" := identifierOf_eq_self (by decide)
  have hsponsors : identifierOf "sponsors" = "sponsors" := identifierOf_eq_self (by decide)
  have hd : ∀ d ∈ [Declaration.between "sponsors" "event" "company"], d.Textual := by
    simpa using Declaration.textual_between _ _ _
  obtain ⟨ds, hl, -, htypes⟩ :=
    @schema_documents_filters_agree "nx_" (some [.between "sponsors" "event" "company"]) hd
  obtain rfl := Except.ok.inj (Catalogue.load_sponsors.symm.trans hl)
  obtain ⟨ks, -, -, -, hkeys, hfilters⟩ := htypes "event"
  obtain ⟨filters, hsupported, hperm⟩ := hfilters .null
  have hpairs := @Catalogue.relatedPairs_single "sponsors" "event" "company" (by simp)
  obtain rfl : ["nx_sponsors_company"] = ks := by
    rw [hpairs] at hkeys
    simpa [hsponsors, hcompany] using hkeys
  exact ⟨hd, filters, hsupported, hperm⟩

end FieldKey

end EdgeFields
