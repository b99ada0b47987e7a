import EdgeFields.Catalogue
import EdgeFields.Proofs.Collisions
import Mathlib.Data.List.Nodup

/-!
# Loaded definitions

Loading declarations in texts always succeeds, and what is loaded is in texts, valid and without shared field keys
(`load_loaded`).  The pairs that an entity type is related to are those that a definition joins it to
(`mem_relatedPairs`), and each of them has a field key of its own.
-/

namespace EdgeFields

/-- Definitions as they are after loading: in texts, valid, and with different field keys for different pairs. -/
structure Loaded (ds : List Definition) : Prop where
  textual : ∀ d ∈ ds, d.Textual
  valid : ∀ d ∈ ds, d.isValid = true
  apart : FieldKey.Apart (FieldKey.pairs ds)

namespace Catalogue

theorem loaded_nil : Loaded [] where
  textual := by simp
  valid := by simp
  apart := by simp [FieldKey.Apart, FieldKey.pairs]

private theorem noteRepeated_result (loaded : List Definition) {d : Definition} (hd : d.name.IsText) :
    (noteRepeated loaded d).result = .ok () := by
  obtain ⟨s, hs⟩ := hd
  rw [noteRepeated, hs]
  simp only [Value.toKey_string, Report.result_bind, Report.result_lift, ok_bind]
  split <;> rfl

/-- A definition in texts is taken in if it is valid and no two pairs share a key with it, and skipped otherwise. -/
theorem consider_result {loaded : List Definition} (h : ∀ d ∈ loaded, d.Textual) {declared : Declaration}
    {d : Definition} (hc : Definition.coerce declared = .ok d) (ht : d.Textual)
    [Decidable (d.isValid = true ∧ FieldKey.Apart (FieldKey.pairs (loaded ++ [d])))] :
    (consider loaded declared).result = .ok
      (if d.isValid = true ∧ FieldKey.Apart (FieldKey.pairs (loaded ++ [d])) then loaded ++ [d] else loaded) := by
  have htextual : ∀ d' ∈ loaded ++ [d], d'.Textual := by
    intro d' hd'
    rcases List.mem_append.1 hd' with hd' | hd'
    · exact h d' hd'
    · exact List.mem_singleton.1 hd' ▸ ht
  obtain ⟨shared, hs, hiff⟩ := FieldKey.collisions_isEmpty_iff FieldKey.defaultStem htextual
  rw [consider]
  simp only [Report.result_bind, Report.result_lift, hc, ok_bind]
  by_cases hv : d.isValid = true
  · simp only [hv, if_true, Report.result_bind, Report.result_lift, hs, ok_bind, true_and]
    by_cases he : shared.isEmpty = true
    · simp [he, hv, hiff.1 he, noteRepeated_result loaded ht.name]
    · simp [he, mt hiff.2 he]
  · simp [hv]

theorem consider_loaded {loaded : List Definition} (h : Loaded loaded) {declared : Declaration}
    (hd : declared.Textual) : ∃ ds, (consider loaded declared).result = .ok ds ∧ Loaded ds := by
  classical
  obtain ⟨d, hc, ht⟩ := Definition.coerce_textual hd
  refine ⟨_, consider_result h.textual hc ht, ?_⟩
  split
  · next hd =>
    refine ⟨fun d' hd' => ?_, fun d' hd' => ?_, hd.2⟩ <;> rcases List.mem_append.1 hd' with hd' | hd'
    · exact h.textual d' hd'
    · exact List.mem_singleton.1 hd' ▸ ht
    · exact h.valid d' hd'
    · exact List.mem_singleton.1 hd' ▸ hd.1
  · exact h

private theorem foldlM_consider_loaded {loaded : List Definition} (h : Loaded loaded)
    {declared : List Declaration} (hd : ∀ d ∈ declared, d.Textual) :
    ∃ ds, (declared.foldlM consider loaded).result = .ok ds ∧ Loaded ds := by
  induction declared generalizing loaded with
  | nil => exact ⟨loaded, rfl, h⟩
  | cons d declared ih =>
    obtain ⟨ds, hds, hl⟩ := consider_loaded h (hd d (List.mem_cons_self ..))
    obtain ⟨ds', hds', hl'⟩ := ih hl fun d' hd' => hd d' (List.mem_cons_of_mem _ hd')
    exact ⟨ds', by rw [List.foldlM_cons, Report.result_bind, hds, ok_bind, hds'], hl'⟩

/-- Declarations in texts are always loaded. -/
theorem load_loaded {hooks : Hooks} (hh : hooks.relationships = none) {source : Source}
    (hd : ∀ d ∈ source.getD [], d.Textual) : ∃ ds, (load hooks source).result = .ok ds ∧ Loaded ds := by
  obtain ⟨ds, hds, hl⟩ := foldlM_consider_loaded loaded_nil hd
  refine ⟨ds, ?_, hl⟩
  rw [load, hh]
  simp only [Hooks.adjust, Report.result_bind, Report.result_lift, ok_bind, hds, Report.result_note,
    Report.result_pure]

/-- A declaration of a valid definition whose pairs share no key is loaded if it is the only one. -/
theorem load_one (hooks : Hooks) (hh : hooks.relationships = none) {declared : Declaration} {d : Definition}
    (hc : Definition.coerce declared = .ok d) (ht : d.Textual) (hv : d.isValid = true)
    (ha : FieldKey.Apart (FieldKey.pairs [d])) : (load hooks (some [declared])).result = .ok [d] := by
  classical
  have hconsider := consider_result (List.forall_mem_nil Definition.Textual) hc ht
  rw [List.nil_append, if_pos ⟨hv, ha⟩] at hconsider
  simp [load, hh, Hooks.adjust, hconsider]

theorem load_single (hooks : Hooks) (hh : hooks.relationships = none) (name fromType toType : String)
    (hn : name ≠ "") (hf : fromType ≠ "") (ht : toType ≠ "")
    (hne : FieldKey.identifierOf fromType ≠ FieldKey.identifierOf toType) :
    (load hooks (some [.between name fromType toType])).result =
      .ok [⟨.string name, [.string fromType], [.string toType]⟩] := by
  generalize hd : (⟨.string name, [.string fromType], [.string toType]⟩ : Definition) = d
  have hc : Definition.coerce (.between name fromType toType) = .ok d := by
    simp [← hd, Declaration.between, Definition.coerce, Definition.firstMember, Definition.ofParts,
      Definition.typesOf, List.lookup_cons, Value.truthy, hn, hf, ht]
  have htextual : d.Textual := by
    subst hd
    refine ⟨⟨_, rfl⟩, ?_, by simp, by simp⟩
    simp [Value.truthy, Value.isText_string, hf, ht]
  refine load_one hooks hh hc htextual (by simp [← hd, Definition.isValid, Value.truthy, hn]) ?_
  rintro ⟨n, t⟩ hr ⟨n', t'⟩ hr' hb
  rw [FieldKey.mem_pairs (by simpa using htextual)] at hr hr'
  simp only [List.mem_singleton, exists_eq_left, ← hd] at hr hr'
  obtain ⟨-, rfl, hside⟩ := hr
  obtain ⟨-, rfl, hside'⟩ := hr'
  rcases hside with rfl | rfl <;> rcases hside' with rfl | rfl <;>
    simp [FieldKey.body, FieldKey.textPart, hne, hne.symm] at hb ⊢

theorem load_sponsors : (load {} (some [.between "sponsors" "event" "company"])).result =
    .ok [⟨.string "sponsors", [.string "event"], [.string "company"]⟩] := by
  have hevent : FieldKey.identifierOf "event" = "event" := FieldKey.identifierOf_eq_self (by decide)
  have hcompany : FieldKey.identifierOf "company" = "company" := FieldKey.identifierOf_eq_self (by decide)
  exact load_single {} rfl "sponsors" "event" "company" (by simp) (by simp) (by simp) (by simp [hevent, hcompany])

/-! ### Look-ups in a catalogue -/

/-- A catalogue that has loaded nothing yet, or these definitions. -/
def Holds (c : Catalogue) (ds : List Definition) : Prop := c.cached = none ∨ c.cached = some ds

variable {hooks : Hooks} {source : Source} {ds : List Definition} {c : Catalogue}

private theorem outcome_definitions (hl : (load hooks source).result = .ok ds) (hc : c.Holds ds) :
    ∃ c', (definitions hooks source).outcome c = (c', .ok ds) ∧ c'.Holds ds := by
  rcases hc with hc | hc
  · refine ⟨{ c with cached := some ds, loads := c.loads + 1 }, ?_, .inr rfl⟩
    simp [Session.outcome, definitions, hc, hl, Except.toOption]
  · refine ⟨c, ?_, .inr hc⟩
    simp [Session.outcome, definitions, hc]

@[simp] theorem outcome_found? (k : Key) (c : Catalogue) :
    (found? k).outcome c = (c, .ok (c.byType.lookup k)) := rfl

@[simp] theorem outcome_keepFound (k : Key) (m : List (Value × List Value)) (c : Catalogue) :
    (keepFound k m).outcome c = ({ c with byType := Assoc.insert k m c.byType }, .ok ()) := rfl

theorem outcome_contains (hl : (load hooks source).result = .ok ds) (hc : c.Holds ds) (name : Value) :
    ∃ c', (contains hooks source name).outcome c = (c', .ok (find? ds name).isSome) ∧ c'.Holds ds := by
  obtain ⟨c', hd, hc'⟩ := outcome_definitions hl hc
  exact ⟨c', by simp [contains, get, hd], hc'⟩

private theorem outcome_related (hl : (load hooks source).result = .ok ds) (hc : c.Holds ds) {type : Value} {k : Key}
    (hk : type.toKey = .ok k) :
    ∃ c', (related hooks source type).outcome c =
        (c', .ok ((c.byType.lookup k).getD (relatedTypes ds type))) ∧ c'.Holds ds := by
  simp only [related, Session.outcome_bind, Session.outcome_lift, hk, Session.continueWith_ok, outcome_found?]
  cases hfound : c.byType.lookup k with
  | some m => exact ⟨c, rfl, hc⟩
  | none =>
    obtain ⟨c', hd, hc'⟩ := outcome_definitions hl hc
    refine ⟨{ c' with byType := Assoc.insert k (relatedTypes ds type) c'.byType }, ?_, hc'⟩
    simp [hd]

theorem outcome_definitionsFor (hl : (load hooks source).result = .ok ds) (hc : c.Holds ds) {type : Value}
    (ht : type.IsText) :
    ∃ c', (definitionsFor hooks source type).outcome c = (c', .ok ds) ∧ c'.Holds ds := by
  obtain ⟨s, rfl⟩ := ht
  obtain ⟨c₁, hrelated, hc₁⟩ := outcome_related hl hc (Value.toKey_string s)
  obtain ⟨c₂, hd, hc₂⟩ := outcome_definitions hl hc₁
  exact ⟨c₂, by simp [definitionsFor, hrelated, hd], hc₂⟩

theorem find?_isSome_iff (hds : Loaded ds) {name : Value} :
    (find? ds name).isSome = true ↔ ∃ d ∈ ds, d.name = name := by
  rw [find?, List.find?_isSome]
  exact ⟨fun ⟨d, hd, h⟩ => ⟨d, hd, ((hds.textual d hd).name.beq_iff).1 h⟩,
    fun ⟨d, hd, h⟩ => ⟨d, hd, ((hds.textual d hd).name.beq_iff).2 h⟩⟩

/-! ### Related types -/

/-- What is known of the related types of `type` once the definitions `ds` are gone through. -/
private structure Gathered (type : Value) (ds : List Definition) (m : List (Value × List Value)) : Prop where
  keys_text : ∀ e ∈ m, e.1.IsText
  keys_nodup : (Assoc.keys m).Nodup
  nodup : ∀ e ∈ m, e.2.Nodup
  mem : ∀ r : Related, (∃ e ∈ m, e.1 = r.1 ∧ r.2 ∈ e.2) ↔ ∃ d ∈ ds, d.name = r.1 ∧ r.2 ∈ d.opposingTypes type

private theorem Gathered.insert {type : Value} (ht : type.IsText) {ds : List Definition}
    {m : List (Value × List Value)} (h : Gathered type ds m) {d : Definition} (hd : d.Textual) :
    Gathered type (ds ++ [d])
      (Assoc.insert d.name (Value.union ((m.lookup d.name).getD []) (d.opposingTypes type)) m) := by
  have hopp : ∀ u ∈ d.opposingTypes type, u.IsText := fun u hu => hd.opposingTypes_text ht hu
  have hunder : ∀ u, u ∈ (m.lookup d.name).getD [] ↔ ∃ e ∈ m, e.1 = d.name ∧ u ∈ e.2 :=
    fun _ => Assoc.mem_getD_lookup h.keys_nodup hd.name
  refine ⟨?_, Assoc.nodup_keys_insert_text h.keys_nodup hd.name _, ?_, ?_⟩
  · intro e he
    rcases (Assoc.mem_insert_text h.keys_nodup hd.name).1 he with rfl | ⟨he, -⟩
    · exact hd.name
    · exact h.keys_text e he
  · intro e he
    rcases (Assoc.mem_insert_text h.keys_nodup hd.name).1 he with rfl | ⟨he, -⟩
    · apply Value.nodup_union hopp
      cases hl : m.lookup d.name with
      | none => exact List.nodup_nil
      | some us => exact h.nodup _ ((Assoc.mem_iff_lookup h.keys_nodup hd.name).2 hl)
    · exact h.nodup e he
  · intro r
    simp only [Assoc.mem_insert_text h.keys_nodup hd.name, List.mem_append, List.mem_singleton]
    constructor
    · rintro ⟨e, rfl | ⟨he, -⟩, hn, hu⟩
      · rcases (Value.mem_union hopp).1 hu with hu | hu
        · obtain ⟨d', hd', h'⟩ := (h.mem r).1 ((hunder _).1 hu |>.imp fun e h => ⟨h.1, h.2.1.trans hn, h.2.2⟩)
          exact ⟨d', .inl hd', h'⟩
        · exact ⟨d, .inr rfl, hn, hu⟩
      · obtain ⟨d', hd', h'⟩ := (h.mem r).1 ⟨e, he, hn, hu⟩
        exact ⟨d', .inl hd', h'⟩
    · rintro ⟨d', hd' | rfl, hn, hu⟩
      · obtain ⟨e, he, hn', hu'⟩ := (h.mem r).2 ⟨d', hd', hn, hu⟩
        by_cases hname : e.1 = d.name
        · exact ⟨_, .inl rfl, hname.symm.trans hn',
            (Value.mem_union hopp).2 (.inl ((hunder _).2 ⟨e, he, hname, hu'⟩))⟩
        · exact ⟨e, .inr ⟨he, hname⟩, hn', hu'⟩
      · exact ⟨_, .inl rfl, hn, (Value.mem_union hopp).2 (.inr hu)⟩

private theorem Gathered.foldl {type : Value} (ht : type.IsText) {ds : List Definition}
    {m : List (Value × List Value)} (h : Gathered type ds m) {ds' : List Definition} (hds' : ∀ d ∈ ds', d.Textual) :
    Gathered type (ds ++ ds') (ds'.foldl
      (fun m d => Assoc.insert d.name (Value.union ((m.lookup d.name).getD []) (d.opposingTypes type)) m) m) := by
  induction ds' generalizing ds m with
  | nil => simpa using h
  | cons d ds' ih =>
    have := ih (h.insert ht (hds' d (List.mem_cons_self ..))) fun d' hd' => hds' d' (List.mem_cons_of_mem _ hd')
    simpa using this

private theorem gathered_relatedTypes {type : Value} (ht : type.IsText) {ds : List Definition}
    (hds : ∀ d ∈ ds, d.Textual) : Gathered type (ds.filter (·.involves type)) (relatedTypes ds type) := by
  have hnil : Gathered type [] [] := ⟨by simp, List.nodup_nil, by simp, by simp⟩
  simpa [relatedTypes] using hnil.foldl ht fun d hd => hds d (List.mem_filter.1 hd).1

/-- Whether two types stand on opposite sides of a definition of a name. -/
def Joins (ds : List Definition) (name type type' : Value) : Prop :=
  ∃ d ∈ ds, d.name = name ∧ ((type ∈ d.fromTypes ∧ type' ∈ d.toTypes) ∨ (type ∈ d.toTypes ∧ type' ∈ d.fromTypes))

theorem Joins.symm {ds : List Definition} {name type type' : Value} (h : Joins ds name type type') :
    Joins ds name type' type := by
  obtain ⟨d, hd, hn, h⟩ := h
  exact ⟨d, hd, hn, h.symm.imp And.symm And.symm⟩

/-- An entity type is related under a name to the types that definitions of that name join it to. -/
theorem mem_relatedPairs {ds : List Definition} (hds : ∀ d ∈ ds, d.Textual) {type : Value} (ht : type.IsText)
    {r : Related} : r ∈ relatedPairs ds type ↔ Joins ds r.1 type r.2 := by
  have hmem := (gathered_relatedTypes ht hds).mem r
  rw [relatedPairs, List.mem_flatMap]
  constructor
  · rintro ⟨e, he, hr⟩
    obtain ⟨u, hu, rfl⟩ := List.mem_map.1 hr
    obtain ⟨d, hd, hn, hu⟩ := hmem.1 ⟨e, he, rfl, hu⟩
    have hd := (List.mem_filter.1 hd).1
    exact ⟨d, hd, hn, ((hds d hd).mem_opposingTypes ht).1 hu⟩
  · rintro ⟨d, hd, hn, hu⟩
    have hinv : d.involves type = true := by
      rw [Definition.involves_iff ht]
      exact hu.imp And.left And.left
    obtain ⟨e, he, hn', hu'⟩ :=
      hmem.2 ⟨d, List.mem_filter.2 ⟨hd, hinv⟩, hn, ((hds d hd).mem_opposingTypes ht).2 hu⟩
    exact ⟨e, he, List.mem_map.2 ⟨r.2, hu', Prod.ext hn' rfl⟩⟩

/-- Under a name a type finds the types that definitions of that name join it to. -/
theorem mem_lookup_relatedTypes {ds : List Definition} (hds : ∀ d ∈ ds, d.Textual) {type name : Value}
    (ht : type.IsText) (hn : name.IsText) {u : Value} :
    u ∈ ((relatedTypes ds type).lookup name).getD [] ↔ Joins ds name type u := by
  have hpair := mem_relatedPairs hds ht (r := (name, u))
  rw [Assoc.mem_getD_lookup (gathered_relatedTypes ht hds).keys_nodup hn, ← hpair, relatedPairs, List.mem_flatMap]
  simp

/-- No type is found twice under a name. -/
theorem nodup_of_mem_relatedTypes {ds : List Definition} (hds : ∀ d ∈ ds, d.Textual) {type : Value} (ht : type.IsText)
    {e : Value × List Value} (he : e ∈ relatedTypes ds type) : e.2.Nodup :=
  (gathered_relatedTypes ht hds).nodup e he

/-- An entity type is related to no pair twice. -/
theorem nodup_relatedPairs {ds : List Definition} (hds : ∀ d ∈ ds, d.Textual) {type : Value} (ht : type.IsText) :
    (relatedPairs ds type).Nodup := by
  have h := gathered_relatedTypes ht hds
  rw [relatedPairs, List.nodup_flatMap]
  constructor
  · intro e he
    exact (h.nodup e he).map fun t t' heq => (Prod.mk.inj heq).2
  · -- Pairs of different entries differ in their names.
    refine (List.pairwise_map.1 h.keys_nodup).imp fun {e e'} hne r hr hr' => ?_
    obtain ⟨t, -, rfl⟩ := List.mem_map.1 hr
    obtain ⟨t', -, heq⟩ := List.mem_map.1 hr'
    exact hne (Prod.mk.inj heq).1.symm

theorem relatedPairs_single (name : String) {fromType toType : String} (hne : fromType ≠ toType) :
    relatedPairs [⟨.string name, [.string fromType], [.string toType]⟩] (.string fromType) =
      [(.string name, .string toType)] := by
  have hother : (fromType == toType) = false := beq_eq_false_iff_ne.2 hne
  have hopposing : Definition.opposingTypes ⟨.string name, [.string fromType], [.string toType]⟩ (.string fromType) =
      [.string toType] := by
    simp [Definition.opposingTypes, hother]
  simp [relatedPairs, relatedTypes, Definition.involves, hopposing, Value.union, Assoc.insert]

end Catalogue

namespace Loaded

variable {ds : List Definition} (h : Loaded ds) {type : Value} (ht : type.IsText) {r : Related}
include h ht

/-- The pairs that a type is related to are pairs of the definitions. -/
theorem mem_pairs_of_mem_relatedPairs (hr : r ∈ Catalogue.relatedPairs ds type) : r ∈ FieldKey.pairs ds := by
  obtain ⟨d, hd, hn, hu⟩ := (Catalogue.mem_relatedPairs h.textual ht).1 hr
  refine (FieldKey.mem_pairs h.textual).2 ⟨d, hd, h.valid d hd, hn, ?_⟩
  exact hu.symm.imp And.right And.right

theorem inTexts_of_mem_relatedPairs (hr : r ∈ Catalogue.relatedPairs ds type) : FieldKey.InTexts r :=
  FieldKey.inTexts_of_mem_pairs h.textual (h.mem_pairs_of_mem_relatedPairs ht hr)

theorem truthy_of_mem_relatedPairs (hr : r ∈ Catalogue.relatedPairs ds type) : r.2.truthy = true := by
  obtain ⟨d, hd, -, hu⟩ := (Catalogue.mem_relatedPairs h.textual ht).1 hr
  refine ((h.textual d hd).types r.2 ?_).2
  rw [List.mem_append]
  exact hu.symm.imp And.right And.right

/-- Two related pairs of a type with one key are the same. -/
theorem eq_of_body_eq {r' : Related} (hr : r ∈ Catalogue.relatedPairs ds type)
    (hr' : r' ∈ Catalogue.relatedPairs ds type) (hb : FieldKey.body r = FieldKey.body r') : r = r' :=
  h.apart r (h.mem_pairs_of_mem_relatedPairs ht hr) r' (h.mem_pairs_of_mem_relatedPairs ht hr') hb

/-- The field keys of the pairs that a type is related to all differ. -/
theorem nodup_keys (stem : String) :
    ((Catalogue.relatedPairs ds type).map fun r => stem ++ FieldKey.body r).Nodup :=
  (Catalogue.nodup_relatedPairs h.textual ht).map_on fun _ hr _ hr' heq =>
    h.eq_of_body_eq ht hr hr' (FieldKey.stem_append_inj.1 heq)

end Loaded

end EdgeFields
