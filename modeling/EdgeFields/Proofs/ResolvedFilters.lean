import EdgeFields.Proofs.ActiveFilters
import EdgeFields.Proofs.KeptDefinitions

/-!
# Resolved filters

Several relationships may lead to one type, and then one request value filters all their fields.  Still every field
has the texts that the request gives for the type of its pair, and nothing else of the request matters
(`Resolver.resolve_wanted`).
-/

namespace EdgeFields

namespace Filter

/-- The texts that a request wants of a related pair: those given for its type, cleaned and without blank ones, and of
equal texts the first. -/
def wanted (params : Record) (r : Related) : List String :=
  (((requestedTexts ((params.lookup (.string r.2.toText)).getD .null)).map Text.clean).filter
    fun t => Text.trim t ≠ "").eraseDups

/-- The filters that a request turns on for the pairs `rs`: the wanted texts of every pair under its key, where
there are any, and no others. -/
structure TurnsOn (stem : String) (rs : List Related) (params active : Record) : Prop where
  lookup_eq : ∀ r ∈ rs, ∃ k, FieldKey.derive stem r.1 r.2 = .ok k ∧
    active.lookup (.string k) =
      if wanted params r = [] then none else some (.list ((wanted params r).map .string))
  origin : ∀ k ∈ Assoc.keys active, ∃ r ∈ rs, (FieldKey.derive stem r.1 r.2).map Key.string = .ok k
  nodup : (Assoc.keys active).Nodup

private theorem asked_eq_wanted (params : Record) (r : Related) : asked params r.2.toText = wanted params r := by
  have hblank : ∀ ss : List String, (ss.map Text.clean).filter (fun t => t ≠ "") =
      (ss.map Text.clean).filter fun t => Text.trim t ≠ "" := by
    intro ss
    apply List.filter_congr
    intro t ht
    obtain ⟨s, -, rfl⟩ := List.mem_map.1 ht
    rw [Text.trim_clean]
  rw [asked, askedTexts, presentTexts, foldl_addNew_eq_eraseDups, hblank, wanted]

/-! ### Chosen fields -/

private theorem sublist_keys_chosen (params : Record) (m : List (String × List String)) :
    (Assoc.keys (chosen params m)).Sublist (m.flatMap (·.2)) := by
  induction m with
  | nil => exact List.Sublist.refl _
  | cons e m ih =>
    rw [chosen, List.flatMap_cons, List.flatMap_cons, Assoc.keys, List.map_append]
    exact (sublist_keys_chosenUnder params e).append ih

/-- What is chosen depends on what is asked for under the types of the pairs only. -/
private theorem Grouped.chosen_congr {stem : String} {rs : List Related} {m : List (String × List String)}
    (h : Grouped stem rs m) {params params' : Record}
    (hagree : ∀ r ∈ rs, asked params' r.2.toText = asked params r.2.toText) : chosen params' m = chosen params m := by
  have hunder : ∀ e ∈ m, chosenUnder params' e = chosenUnder params e := by
    intro e he
    rw [chosenUnder, chosenUnder]
    cases hkeys : e.2 with
    | nil =>
      -- No pair has such a filter, and it turns nothing on.
      rw [List.map_nil, List.map_nil, ite_self, ite_self]
    | cons k ks =>
      obtain ⟨r, hr, ht, -⟩ := h.origin e he k (by rw [hkeys]; exact List.mem_cons_self ..)
      rw [← ht, hagree r hr]
  rw [chosen, chosen, List.flatMap_def, List.flatMap_def, List.map_congr_left hunder]

private theorem lookup_asRecord (m : List (String × List String)) (k : String) :
    (asRecord m).lookup (.string k) = (m.lookup k).map fun ts => .list (ts.map .string) := by
  induction m with
  | nil => rfl
  | cons e m ih =>
    change List.lookup _ ((_, _) :: asRecord m) = _
    rw [List.lookup_cons, List.lookup_cons, Key.beq_string, ih]
    cases k == e.1 <;> rfl

private theorem keys_asRecord (m : List (String × List String)) :
    Assoc.keys (asRecord m) = (Assoc.keys m).map Key.string := by
  rw [asRecord, Assoc.keys, Assoc.keys, List.map_map, List.map_map]
  rfl

section Loaded

variable {ds : List Definition} (hds : Loaded ds) {type : Value} (ht : type.IsText)
include hds ht

/-- Every related pair finds what is asked for under its type. -/
private theorem lookup_chosen (stem : String) (params : Record) {r : Related}
    (hr : r ∈ Catalogue.relatedPairs ds type) :
    (chosen params (grouped stem (Catalogue.relatedPairs ds type))).lookup (stem ++ FieldKey.body r) =
      if asked params r.2.toText = [] then none else some (asked params r.2.toText) := by
  have hnodup : (Assoc.keys (chosen params (grouped stem (Catalogue.relatedPairs ds type)))).Nodup :=
    ((grouped_grouped stem _).perm.nodup_iff.2 (hds.nodup_keys ht stem)).sublist (sublist_keys_chosen params _)
  split
  · next hnone =>
    rw [List.lookup_eq_none_iff]
    rintro ⟨k, ts⟩ hmem
    obtain ⟨r', hr', hkey, hasked, hne⟩ := (mem_chosen hds ht stem).1 hmem
    rw [bne_iff_ne]
    rintro rfl
    -- A field under the key of `r` would be that of `r` itself.
    obtain rfl := hds.eq_of_body_eq ht hr' hr (FieldKey.stem_append_inj.1 hkey)
    exact hne (hasked.symm.trans hnone)
  · next hsome => exact Assoc.lookup_of_mem hnodup ((mem_chosen hds ht stem).2 ⟨r, hr, rfl, rfl, hsome⟩)

private theorem turnsOn_chosen (stem : String) (params : Record) :
    TurnsOn stem (Catalogue.relatedPairs ds type) params
      (asRecord (chosen params (grouped stem (Catalogue.relatedPairs ds type)))) where
  lookup_eq r hr := by
    have htexts := hds.inTexts_of_mem_relatedPairs ht hr
    refine ⟨_, FieldKey.derive_eq_ok stem htexts.1 htexts.2, ?_⟩
    rw [lookup_asRecord, lookup_chosen hds ht stem params hr, asked_eq_wanted]
    split <;> rfl
  origin k hk := by
    rw [keys_asRecord] at hk
    obtain ⟨k', hk', rfl⟩ := List.mem_map.1 hk
    obtain ⟨⟨_, ts⟩, hmem, rfl⟩ := List.mem_map.1 hk'
    obtain ⟨r, hr, hkey, -⟩ := (mem_chosen hds ht stem).1 hmem
    have htexts := hds.inTexts_of_mem_relatedPairs ht hr
    refine ⟨r, hr, ?_⟩
    rw [FieldKey.derive_eq_ok stem htexts.1 htexts.2, hkey]
    rfl
  nodup := by
    rw [keys_asRecord]
    refine List.Nodup.map (fun _ _ h => Key.string.inj h) ?_
    exact ((grouped_grouped stem _).perm.nodup_iff.2 (hds.nodup_keys ht stem)).sublist (sublist_keys_chosen params _)

end Loaded

/-- The active filters of a request are the texts that it wants of the related pairs, and they are the same for every
request that gives the same values for the related types. -/
theorem Resolver.resolve_wanted (stem : String) {source : Source} (hd : ∀ d ∈ source.getD [], d.Textual)
    {type : Value} (ht : type.IsText) :
    ∃ ds, (Catalogue.load {} source).result = .ok ds ∧
      ∀ params : Record, ∃ active, TurnsOn stem (Catalogue.relatedPairs ds type) params active ∧
        ∀ params' : Record, (∀ e ∈ params', IsRequested e.2) →
          (∀ r ∈ Catalogue.relatedPairs ds type,
            params'.lookup (.string r.2.toText) = params.lookup (.string r.2.toText)) →
          ∀ (page : Value) (c : Catalogue), c.Holds ds →
            ∃ c', (resolve { stem } source type (.object params') page).outcome c = (c', .ok active) ∧
              c'.Holds ds := by
  obtain ⟨ds, hl, hds⟩ := @Catalogue.load_loaded {} rfl source hd
  refine ⟨ds, hl, fun params => ⟨_, turnsOn_chosen hds ht stem params, ?_⟩⟩
  intro params' hp' hagree page c hc
  have hasked : ∀ r ∈ Catalogue.relatedPairs ds type, asked params' r.2.toText = asked params r.2.toText := by
    intro r hr
    rw [asked, asked, hagree r hr]
  rw [← (grouped_grouped stem _).chosen_congr hasked]
  exact outcome_resolve hds ht hp' stem hl hc page

/-- Two relationships lead from events to companies. -/
private theorem load_sponsorsAndHosts :
    (Catalogue.load {} (some [.between "sponsors" "event" "company", .between "hosts" "event" "company"])).result =
      .ok [⟨.string "sponsors", [.string "event"], [.string "company"]⟩,
        ⟨.string "hosts", [.string "event"], [.string "company"]⟩] := by
  classical
  obtain ⟨ds, hds, hloaded⟩ := @Catalogue.load_loaded {} rfl (some [.between "sponsors" "event" "company"])
    (by simpa using Declaration.textual_between _ _ _)
  obtain rfl := Except.ok.inj (Catalogue.load_sponsors.symm.trans hds)
  have hcoerce : Definition.coerce (.between "hosts" "event" "company") =
      .ok ⟨.string "hosts", [.string "event"], [.string "company"]⟩ := rfl
  obtain ⟨d, hd, hdt⟩ := Definition.coerce_textual (Declaration.textual_between "hosts" "event" "company")
  obtain rfl := Except.ok.inj (hcoerce.symm.trans hd)
  have hapart : FieldKey.Apart (FieldKey.pairs ([⟨.string "sponsors", [.string "event"], [.string "company"]⟩] ++
      [⟨.string "hosts", [.string "event"], [.string "company"]⟩])) := by
    have hevent : FieldKey.identifierOf "event" = "event" := FieldKey.identifierOf_eq_self (by decide)
    have hcompany : FieldKey.identifierOf "company" = "company" := FieldKey.identifierOf_eq_self (by decide)
    have hsponsors : FieldKey.identifierOf "sponsors" = "sponsors" := FieldKey.identifierOf_eq_self (by decide)
    have hhosts : FieldKey.identifierOf "hosts" = "hosts" := FieldKey.identifierOf_eq_self (by decide)
    have htexts := List.forall_mem_append.2 ⟨hloaded.textual, List.forall_mem_singleton.2 hdt⟩
    rintro ⟨n, t⟩ hr ⟨n', t'⟩ hr' hb
    rw [FieldKey.mem_pairs htexts] at hr hr'
    simp only [List.singleton_append, List.mem_cons, List.not_mem_nil, or_false, exists_eq_or_imp,
      exists_eq_left] at hr hr'
    rcases hr with ⟨-, rfl, rfl | rfl⟩ | ⟨-, rfl, rfl | rfl⟩ <;>
      rcases hr' with ⟨-, rfl, rfl | rfl⟩ | ⟨-, rfl, rfl | rfl⟩ <;>
      simp [FieldKey.body, FieldKey.textPart, hevent, hcompany, hsponsors, hhosts] at hb ⊢
  have htwo := Catalogue.consider_result hloaded.textual hcoerce hdt
  rw [if_pos ⟨rfl, hapart⟩] at htwo
  have hone := Catalogue.load_sponsors
  rw [Catalogue.load_result {} rfl] at hone ⊢
  simp only [Option.getD_some, List.foldlM_cons, List.foldlM_nil, bind_pure, Report.result_bind] at hone ⊢
  rw [hone, ok_bind, htwo]
  rfl

/-- The request of a page that filters events by company.  Cleaning makes two of the texts equal and one blank. -/
def companyRequest : Record :=
  [(.string "company", .list [.string "<b>Acme</b>", .string " Acme ", .string " ", .string "7"]),
    (.string "note", .string "x")]

/-- The one request value filters the fields of both relationships, and what has no related type filters nothing. -/
theorem Resolver.resolve_wanted_companies :
    (Value.string "event").IsText ∧ (∀ e ∈ companyRequest, IsRequested e.2) ∧
      ∃ active c, (resolve {} (some [.between "sponsors" "event" "company", .between "hosts" "event" "company"])
          (.string "event") (.object companyRequest) .null).outcome {} = (c, .ok active) ∧
        active.lookup (.string "related_sponsors_company") = some (.list [.string "Acme", .string "7"]) ∧
        active.lookup (.string "related_hosts_company") = some (.list [.string "Acme", .string "7"]) ∧
        active.lookup (.string "note") = none := by
  have hd : ∀ d ∈ (some [Declaration.between "sponsors" "event" "company", .between "hosts" "event" "company"] :
      Source).getD [], d.Textual := by
    simpa using ⟨Declaration.textual_between "sponsors" "event" "company", Declaration.textual_between _ _ _⟩
  have hrequested : ∀ e ∈ companyRequest, IsRequested e.2 := by
    simp [companyRequest, IsRequested, Value.isText_string]
  obtain ⟨ds, hl, hresolve⟩ := @resolve_wanted FieldKey.defaultStem _ hd _ (Value.isText_string "event")
  obtain rfl := Except.ok.inj (load_sponsorsAndHosts.symm.trans hl)
  obtain ⟨active, hturns, hactive⟩ := hresolve companyRequest
  obtain ⟨c, hc, -⟩ := hactive companyRequest hrequested (fun _ _ => rfl) .null {} (.inl rfl)
  have hpairs : Catalogue.relatedPairs [⟨.string "sponsors", [.string "event"], [.string "company"]⟩,
      ⟨.string "hosts", [.string "event"], [.string "company"]⟩] (.string "event") =
        [(.string "sponsors", .string "company"), (.string "hosts", .string "company")] := by
    simp [Catalogue.relatedPairs, Catalogue.relatedTypes, Definition.involves, Definition.opposingTypes, Value.union,
      Assoc.insert, List.lookup_cons]
  rw [hpairs] at hturns
  have hcompany : FieldKey.identifierOf "company" = "company" := FieldKey.identifierOf_eq_self (by decide)
  have hsponsors : FieldKey.derive FieldKey.defaultStem (.string "sponsors") (.string "company") =
      .ok "related_sponsors_company" := by
    rw [FieldKey.derive_string, hcompany, FieldKey.identifierOf_eq_self (by decide)]
    rfl
  have hhosts : FieldKey.derive FieldKey.defaultStem (.string "hosts") (.string "company") =
      .ok "related_hosts_company" := by
    rw [FieldKey.derive_string, hcompany, FieldKey.identifierOf_eq_self (by decide)]
    rfl
  refine ⟨Value.isText_string _, hrequested, active, c, hc, ?_, ?_, ?_⟩
  · obtain ⟨k, hk, hlookup⟩ := hturns.lookup_eq (.string "sponsors", .string "company") (by simp)
    rw [← Except.ok.inj (hsponsors.symm.trans hk)] at hlookup
    exact hlookup
  · obtain ⟨k, hk, hlookup⟩ := hturns.lookup_eq (.string "hosts", .string "company") (by simp)
    rw [← Except.ok.inj (hhosts.symm.trans hk)] at hlookup
    exact hlookup
  · rw [List.lookup_eq_none_iff]
    intro e he
    obtain ⟨r, hr, hkey⟩ := hturns.origin e.1 (List.mem_map_of_mem he)
    rcases List.mem_cons.1 hr with rfl | hr
    · rw [hsponsors] at hkey
      rw [← Except.ok.inj hkey]
      decide
    · rw [List.mem_singleton.1 hr, hhosts] at hkey
      rw [← Except.ok.inj hkey]
      decide

end Filter

end EdgeFields
