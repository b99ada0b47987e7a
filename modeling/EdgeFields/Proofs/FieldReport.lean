import EdgeFields.Proofs.Collisions
import EdgeFields.Schema

/-!
# Reports of shared fields

A field key is refused for the schema if several pairs of a name and a type share it.  That a pair is repeated, by
several definitions or by the two sides of one, is not sharing: what counts are the pairs as they first appear
(`eraseDups_pairs`).  The schema reports the keys that are shared by several of these and with which pairs, and gives
one field for each pair if there are none (`fields_reports_shared`).
-/

namespace EdgeFields

namespace FieldKey

/-- The name of every valid definition with each type of either side, as often as it appears. -/
def appearances (ds : List Definition) : List Related :=
  (ds.filter Definition.isValid).flatMap fun d => (d.fromTypes ++ d.toTypes).map fun t => (d.name, t)

variable {ds : List Definition}

private theorem mem_appearances {r : Related} :
    r ∈ appearances ds ↔ ∃ d ∈ ds, d.isValid = true ∧ d.name = r.1 ∧ (r.2 ∈ d.fromTypes ∨ r.2 ∈ d.toTypes) := by
  simp only [appearances, List.mem_flatMap, List.mem_filter, List.mem_map, List.mem_append]
  constructor
  · rintro ⟨d, ⟨hd, hv⟩, t, ht, rfl⟩
    exact ⟨d, hd, hv, rfl, ht⟩
  · rintro ⟨d, hd, hv, hn, ht⟩
    exact ⟨d, ⟨hd, hv⟩, r.2, ht, Prod.ext hn rfl⟩

private theorem inTexts_of_mem_appearances (hds : ∀ d ∈ ds, d.Textual) : ∀ r ∈ appearances ds, InTexts r := by
  intro r hr
  exact inTexts_of_mem_pairs hds ((mem_pairs hds).2 (mem_appearances.1 hr))

private theorem pairs_filter_isValid (ds : List Definition) : pairs (ds.filter Definition.isValid) = pairs ds := by
  simp [pairs]

private theorem foldl_addNew_allTypes (hds : ∀ d ∈ ds, d.Textual) (kept : List Related) :
    (ds.flatMap fun d => d.allTypes.map fun t => (d.name, t)).foldl
        (fun kept y => if kept.contains y then kept else kept ++ [y]) kept =
      (ds.flatMap fun d => (d.fromTypes ++ d.toTypes).map fun t => (d.name, t)).foldl
        (fun kept y => if kept.contains y then kept else kept ++ [y]) kept := by
  induction ds generalizing kept with
  | nil => rfl
  | cons d ds ih =>
    have hd := hds d (List.mem_cons_self ..)
    have htypes : Discernible (d.fromTypes ++ d.toTypes) := fun t ht _ => (hd.types t ht).1.beq_iff
    have hpairs : Discernible ((d.fromTypes ++ d.toTypes).map fun t => (d.name, t)) := by
      apply discernible_of_inTexts
      intro r hr
      obtain ⟨t, ht, rfl⟩ := List.mem_map.1 hr
      exact ⟨hd.name, (hd.types t ht).1⟩
    rw [List.flatMap_cons, List.flatMap_cons, List.foldl_append, List.foldl_append, hd.allTypes_eq,
      foldl_addNew_map_eraseDups htypes hpairs]
    exact ih (fun d hd => hds d (List.mem_cons_of_mem _ hd)) _

/-- The pairs of some definitions are those that appear there, and the same ones appear first. -/
theorem eraseDups_pairs (hds : ∀ d ∈ ds, d.Textual) : (pairs ds).eraseDups = (appearances ds).eraseDups := by
  rw [← foldl_addNew_eq_eraseDups, ← foldl_addNew_eq_eraseDups, pairs, appearances]
  exact foldl_addNew_allTypes (fun d hd => hds d (List.mem_filter.1 hd).1) []

/-- Whether two of the pairs have the same key. -/
def Clash (key : Related → String) (rs : List Related) : Prop :=
  ∃ r ∈ rs, ∃ r' ∈ rs, r ≠ r' ∧ key r = key r'

private theorem nodup_map_iff_not_clash {key : Related → String} {rs : List Related} (hrs : rs.Nodup) :
    (rs.map key).Nodup ↔ ¬ Clash key rs := by
  rw [List.nodup_map_iff_inj_on hrs]
  constructor
  · rintro h ⟨r, hr, r', hr', hne, hkey⟩
    exact hne (h r hr r' hr' hkey)
  · intro h r hr r' hr' hkey
    exact not_not.1 fun hne => h ⟨r, hr, r', hr', hne, hkey⟩

end FieldKey

namespace Schema

/-- What is read are the valid ones of the definitions that are declared. -/
private theorem readAll_result {declared : List Declaration} {ds : List Definition}
    (hds : declared.mapM Definition.coerce = .ok ds) :
    (readAll declared).result = .ok (ds.filter Definition.isValid) := by
  have hnotices : ∀ ds' : List Definition,
      (ds'.forM fun d => if d.isValid then pure () else Report.note .warning .schema).result = .ok () := by
    intro ds'
    induction ds' with
    | nil => rfl
    | cons d ds' ih =>
      rw [List.forM_eq_forM] at ih ⊢
      rw [List.forM_cons]
      split
      · rw [pure_bind, ih]
      · rw [Report.result_bind, Report.result_note]
        exact ih
  rw [readAll]
  simp only [Report.result_bind, Report.result_mapM, Report.result_lift, hds, ok_bind, hnotices, Report.result_pure]

private theorem foldl_addKey_string {ks : List String} (hks : ks.Nodup) :
    (ks.map Key.string).foldl addKey [] = ks.map Key.string := by
  refine foldl_addNew_eq_append (List.pairwise_map.2 (hks.imp fun {s t} hne => ?_))
  exact Key.string_beq_of_ne fun e => hne (Key.string.inj e)

/-- Where the host does not adjust them, the fields are the keys of the pairs, unless some pairs share one. -/
theorem fields_result (s : Schema) (hs : s.hooks.mappingFields = none) {declared : List Declaration}
    {ds : List Definition} (hread : declared.mapM Definition.coerce = .ok ds) (hds : ∀ d ∈ ds, d.Textual)
    {rs : List Related} (hrs : (FieldKey.pairs ds).eraseDups = rs) :
    (s.fields declared).result =
      if (rs.map fun r => s.stem ++ FieldKey.body r).Nodup then
        .ok (rs.map fun r => .string (s.stem ++ FieldKey.body r))
      else .error (.collisions (FieldKey.shared (fun r => s.stem ++ FieldKey.body r) rs)) := by
  have hvalid : ∀ d ∈ ds.filter Definition.isValid, d.Textual := fun d hd => hds d (List.mem_filter.1 hd).1
  have hkeys : ∀ ks : List String, (ks.map Value.string).mapM (fun v => (v.toKey : Except Fault Key)) =
      .ok (ks.map Key.string) := by
    intro ks
    rw [List.mapM_map]
    exact mapM_eq_ok fun s _ => Value.toKey_string s
  rw [fields]
  simp only [Report.result_bind, readAll_result hread, ok_bind, Report.result_lift,
    FieldKey.collisions_eq_ok s.stem hvalid, FieldKey.all_eq_ok s.stem hvalid, FieldKey.pairs_filter_isValid, hrs, hs]
  by_cases hnodup : (rs.map fun r => s.stem ++ FieldKey.body r).Nodup
  · rw [FieldKey.shared_eq_nil_iff.2 hnodup, if_neg (by simp), if_pos hnodup]
    have herase : (rs.map fun r => s.stem ++ FieldKey.body r).eraseDups =
        rs.map fun r => s.stem ++ FieldKey.body r := by
      rw [← foldl_addNew_eq_eraseDups, foldl_addNew_of_nodup hnodup]
    simp only [Report.result_bind, Report.result_lift, Option.map_none, Hooks.adjust, Report.result_mapM,
      Report.result_pure, ok_bind, herase, hkeys]
    rw [foldl_addKey_string hnodup, List.map_map]
    rfl
  · rw [if_pos (by simpa [List.isEmpty_iff] using mt FieldKey.shared_eq_nil_iff.1 hnodup), if_neg hnodup]
    rfl

/-- Shared fields are reported exactly.  Where the host does not adjust the fields, take each pair of a name and a
type once, in order of first appearance.  Collisions are reported if and only if two of these pairs have the same
key; the report then has the keys that several pairs have, each with all of these pairs, keys and pairs in order of
first appearance.  Otherwise the fields are the keys of the pairs, which all differ. -/
theorem fields_reports_shared (s : Schema) (hs : s.hooks.mappingFields = none) {declared : List Declaration}
    (hd : ∀ d ∈ declared, d.Textual) :
    ∃ ds rs, declared.mapM Definition.coerce = .ok ds ∧
      rs = (FieldKey.appearances ds).eraseDups ∧ rs.Nodup ∧ (∀ r, r ∈ rs ↔ r ∈ FieldKey.appearances ds) ∧
      ∃ key : Related → String, (∀ r ∈ rs, FieldKey.derive s.stem r.1 r.2 = .ok (key r)) ∧
        ((∃ shared, (s.fields declared).result = .error (.collisions shared)) ↔ FieldKey.Clash key rs) ∧
        (∀ shared, (s.fields declared).result = .error (.collisions shared) → shared = FieldKey.shared key rs) ∧
        (¬ FieldKey.Clash key rs →
          (s.fields declared).result = .ok (rs.map fun r => .string (key r)) ∧ (rs.map key).Nodup) := by
  obtain ⟨ds, hds, htextual⟩ := Definition.mapM_coerce_textual hd
  have hin := FieldKey.inTexts_of_mem_appearances htextual
  have hnodup := (FieldKey.discernible_of_inTexts hin).nodup_eraseDups
  have hmem : ∀ r, r ∈ (FieldKey.appearances ds).eraseDups ↔ r ∈ FieldKey.appearances ds :=
    fun r => (FieldKey.discernible_of_inTexts hin).mem_eraseDups
  have hclash := @FieldKey.nodup_map_iff_not_clash (fun r => s.stem ++ FieldKey.body r) _ hnodup
  refine ⟨ds, _, hds, rfl, hnodup, hmem, fun r => s.stem ++ FieldKey.body r, fun r hr => ?_, ?_⟩
  · exact FieldKey.derive_eq_ok s.stem (hin r ((hmem r).1 hr)).1 (hin r ((hmem r).1 hr)).2
  rw [fields_result s hs hds htextual (FieldKey.eraseDups_pairs htextual)]
  by_cases hkeys : ((FieldKey.appearances ds).eraseDups.map fun r => s.stem ++ FieldKey.body r).Nodup
  · have hnone := hclash.1 hkeys
    rw [if_pos hkeys]
    exact ⟨by simp [hnone], by simp, fun _ => ⟨rfl, hkeys⟩⟩
  · have hsome := not_not.1 (mt hclash.2 hkeys)
    rw [if_neg hkeys]
    exact ⟨by simp [hsome], by simp [eq_comm], fun h => absurd hsome h⟩

/-- Two spellings of a name share the field keys of both types. -/
theorem fields_reports_speaksAt :
    (Schema.fields {} [.between "speaks-at" "person" "event", .between "speaks_at" "person" "event"]).result =
      .error (.collisions [
        ("related_speaks_at_person",
          [(.string "speaks-at", .string "person"), (.string "speaks_at", .string "person")]),
        ("related_speaks_at_event",
          [(.string "speaks-at", .string "event"), (.string "speaks_at", .string "event")])]) := by
  have hdash : FieldKey.identifierOf "speaks-at" = "speaks_at" := by
    rw [FieldKey.identifierOf_eq]
    decide
  have hname : FieldKey.identifierOf "speaks_at" = "speaks_at" := FieldKey.identifierOf_eq_self (by decide)
  have hperson : FieldKey.identifierOf "person" = "person" := FieldKey.identifierOf_eq_self (by decide)
  have hevent : FieldKey.identifierOf "event" = "event" := FieldKey.identifierOf_eq_self (by decide)
  obtain ⟨ds, rs, hds, hrs, -, -, key, hkey, hiff, hexact, -⟩ := @fields_reports_shared {} rfl
    [.between "speaks-at" "person" "event", .between "speaks_at" "person" "event"]
    (by simp [Declaration.textual_between])
  have hread : [Declaration.between "speaks-at" "person" "event", .between "speaks_at" "person" "event"].mapM
      Definition.coerce = .ok [⟨.string "speaks-at", [.string "person"], [.string "event"]⟩,
        ⟨.string "speaks_at", [.string "person"], [.string "event"]⟩] := rfl
  obtain rfl := Except.ok.inj (hread.symm.trans hds)
  have hpairs : FieldKey.appearances [⟨.string "speaks-at", [.string "person"], [.string "event"]⟩,
        ⟨.string "speaks_at", [.string "person"], [.string "event"]⟩] =
      [(.string "speaks-at", .string "person"), (.string "speaks-at", .string "event"),
        (.string "speaks_at", .string "person"), (.string "speaks_at", .string "event")] := rfl
  rw [hpairs, Discernible.eraseDups_eq_self (FieldKey.discernible_of_inTexts
    (by simp [FieldKey.InTexts, Value.isText_string])) (by simp)] at hrs
  have hkeys : ∀ s t : String, (Value.string s, Value.string t) ∈ rs →
      key (.string s, .string t) = "related_" ++ FieldKey.identifierOf s ++ "_" ++ FieldKey.identifierOf t :=
    fun s t hr => (Except.ok.inj ((FieldKey.derive_string ..).symm.trans (hkey _ hr))).symm
  subst hrs
  have hdashPerson : key (.string "speaks-at", .string "person") = "related_speaks_at_person" := by
    rw [hkeys _ _ (by simp), hdash, hperson]
    rfl
  have hdashEvent : key (.string "speaks-at", .string "event") = "related_speaks_at_event" := by
    rw [hkeys _ _ (by simp), hdash, hevent]
    rfl
  have hnamePerson : key (.string "speaks_at", .string "person") = "related_speaks_at_person" := by
    rw [hkeys _ _ (by simp), hname, hperson]
    rfl
  have hnameEvent : key (.string "speaks_at", .string "event") = "related_speaks_at_event" := by
    rw [hkeys _ _ (by simp), hname, hevent]
    rfl
  obtain ⟨shared, hshared⟩ := hiff.2 ⟨(.string "speaks-at", .string "person"), by simp,
    (.string "speaks_at", .string "person"), by simp, by simp, hdashPerson.trans hnamePerson.symm⟩
  rw [hshared, hexact shared hshared]
  simp [FieldKey.shared, FieldKey.byKey, hdashPerson, hdashEvent, hnamePerson, hnameEvent, List.eraseDups_cons]

end Schema

end EdgeFields
