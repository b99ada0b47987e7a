import EdgeFields.Proofs.EdgeHistory
import EdgeFields.Proofs.FilterFaults
import EdgeFields.Proofs.IndexReading
import EdgeFields.Proofs.Spellings

/-!
# Searches for related entities

What edges write and what filters ask for meet in the field keys only.  A search for entities of a type that are
related to one of some others finds those which an edge joins to one of them, and no more
(`Gateway.filterSearch_finds_related`).
-/

namespace EdgeFields

namespace Filter

/-! ### Requests by numbers -/

/-- Numbers of entities that can be asked for, by types that are among those of some related pairs. -/
structure Askable (related : List Related) (wanted : List (String × List Int)) : Prop where
  nonempty : wanted ≠ []
  nodup : (wanted.map (·.1)).Nodup
  types : ∀ w ∈ wanted, ∃ name, (name, .string w.1) ∈ related
  numbers : ∀ w ∈ wanted, w.2 ≠ []
  range : ∀ w ∈ wanted, ∀ n ∈ w.2, leastId ≤ n ∧ n ≤ greatestId

/-- A request for what is related to entities of some numbers, by their types. -/
def requestFor (wanted : List (String × List Int)) : Record :=
  wanted.map fun w => (.string w.1, .list (w.2.map fun n => .string (toString n)))

private theorem isRequested_requestFor (wanted : List (String × List Int)) :
    ∀ e ∈ requestFor wanted, IsRequested e.2 := by
  intro e he
  obtain ⟨w, -, rfl⟩ := List.mem_map.1 he
  intro v hv
  obtain ⟨n, -, rfl⟩ := List.mem_map.1 hv
  exact Value.isText_string _

private theorem lookup_requestFor (wanted : List (String × List Int)) (type : String) :
    (requestFor wanted).lookup (.string type) =
      (wanted.lookup type).map fun ns => .list (ns.map fun n => .string (toString n)) := by
  induction wanted with
  | nil => rfl
  | cons w wanted ih =>
    change List.lookup _ ((_, _) :: requestFor wanted) = _
    rw [List.lookup_cons, List.lookup_cons, Key.beq_string, ih]
    cases type == w.1 <;> rfl

private theorem toString_ne_empty (n : Int) : toString n ≠ "" := by
  intro h
  have hlist := Text.toList_toString n
  rw [h] at hlist
  split at hlist
  · exact Nat.toDigits_ne_nil hlist.symm
  · exact List.cons_ne_nil _ _ hlist.symm

/-- Decimals come through a request as they are. -/
private theorem mem_asked_requestFor {wanted : List (String × List Int)} (hw : (wanted.map (·.1)).Nodup)
    {type t : String} :
    t ∈ asked (requestFor wanted) type ↔ ∃ w ∈ wanted, w.1 = type ∧ ∃ n ∈ w.2, toString n = t := by
  rw [asked, lookup_requestFor, mem_askedTexts]
  cases hl : wanted.lookup type with
  | none =>
    rw [List.lookup_eq_none_iff] at hl
    refine iff_of_false (by simp [requestedTexts]) ?_
    rintro ⟨w, hw', rfl, -⟩
    simpa using hl w hw'
  | some ns =>
    obtain ⟨type', htype, hmem⟩ := Assoc.mem_of_lookup hl
    obtain rfl := eq_of_beq htype
    have honly : ∀ w ∈ wanted, w.1 = type → w.2 = ns := by
      rintro ⟨type', ns'⟩ hw' rfl
      exact Option.some.inj ((Assoc.lookup_of_mem hw hw').symm.trans hl)
    simp only [Option.map_some, Option.getD_some, requestedTexts, List.map_map, List.mem_map, Function.comp_apply,
      Value.toText_string, exists_exists_and_eq_and, Text.clean_toString]
    constructor
    · rintro ⟨-, n, hn, rfl⟩
      exact ⟨_, hmem, rfl, n, hn, rfl⟩
    · rintro ⟨w, hw', htype', n, hn, rfl⟩
      exact ⟨toString_ne_empty n, n, honly w hw' htype' ▸ hn, rfl⟩

private theorem exists_eq_map_toString {p : Int → Prop} {ts : List String} (h : ∀ t ∈ ts, ∃ n, p n ∧ toString n = t) :
    ∃ ns : List Int, ts = ns.map toString ∧ ∀ n ∈ ns, p n := by
  induction ts with
  | nil => exact ⟨[], rfl, List.forall_mem_nil _⟩
  | cons t ts ih =>
    rw [List.forall_mem_cons] at h
    obtain ⟨n, hn, rfl⟩ := h.1
    obtain ⟨ns, rfl, hns⟩ := ih h.2
    exact ⟨n :: ns, rfl, List.forall_mem_cons.2 ⟨hn, hns⟩⟩

/-- The clause for some numbers compares nothing but the numbers of entries. -/
private theorem clauseOf?_numbers {k : String} {ts : List String} {ns : List Int} (hts : ts = ns.map toString)
    (hne : ns ≠ [])
    (hns : ∀ n ∈ ns, leastId ≤ n ∧ n ≤ greatestId) (htexts : textsOf (.list (ts.map .string)) = .ok ts) :
    clauseOf? (.string k, .list (ts.map .string)) =
      .ok (some (nested (.string k) (ns.map fun n => comparison "term" (.string k) "entity_id" (.int n)))) := by
  subst hts
  have hlegible : ∀ n ∈ ns, Legible (toString n) := fun n hn => legible_toString (hns n hn).1 (hns n hn).2
  have hcomparisons : ∀ n ∈ ns,
      comparisonsOf k (toString n) = [comparison "term" (.string k) "entity_id" (.int n)] := by
    intro n hn
    have hdenotes : Denotes (toString n) n := denotes_toString (hns n hn).1 (hns n hn).2
    rw [comparisonsOf, valueClauses_of_denotes _ (hlegible n hn) hdenotes]
    rfl
  rw [clauseOf?_eq htexts (mt List.map_eq_nil_iff.1 hne) (List.forall_mem_map.2 hlegible), List.flatMap_map,
    List.flatMap_congr hcomparisons]
  exact congrArg (fun qs => Except.ok (some (nested _ qs))) (List.flatMap_pure_eq_map _ ns)

section Wanted

variable {ds : List Definition} {type : Value} {wanted : List (String × List Int)}
  (h : Askable (Catalogue.relatedPairs ds type) wanted)
include h

/-- The texts asked for under a type are the decimals of the numbers under it. -/
private theorem Askable.exists_asked_eq {w : String × List Int} (hw : w ∈ wanted) :
    ∃ ns : List Int, asked (requestFor wanted) w.1 = ns.map toString ∧ ∀ n, n ∈ ns ↔ n ∈ w.2 := by
  have hdecimal : ∀ t ∈ asked (requestFor wanted) w.1, ∃ n, n ∈ w.2 ∧ toString n = t := by
    intro t ht
    obtain ⟨w', hw', htype, n, hn, rfl⟩ := (mem_asked_requestFor h.nodup).1 ht
    obtain rfl := List.inj_on_of_nodup_map h.nodup hw' hw htype
    exact ⟨n, hn, rfl⟩
  obtain ⟨ns, hasked, hns⟩ := exists_eq_map_toString hdecimal
  refine ⟨ns, hasked, fun n => ⟨hns n, fun hn => ?_⟩⟩
  have htext : toString n ∈ asked (requestFor wanted) w.1 := (mem_asked_requestFor h.nodup).2 ⟨w, hw, rfl, n, hn, rfl⟩
  obtain ⟨m, hm, heq⟩ := List.mem_map.1 (hasked ▸ htext)
  exact Text.eq_of_toString_eq heq ▸ hm

private theorem Askable.exists_mem {w : String × List Int} (hw : w ∈ wanted) : ∃ n, n ∈ w.2 :=
  List.exists_mem_of_ne_nil _ (h.numbers w hw)

/-- The clause for the numbers under a type finds the documents with an entry that has one of them. -/
private theorem Askable.exists_clauseOf?_eq {w : String × List Int} (hw : w ∈ wanted) (k : String) :
    ∃ c, clauseOf? (.string k, .list ((asked (requestFor wanted) w.1).map .string)) = .ok (some c) ∧
      ∀ (a : Analysis) (doc : Document), (a.document doc).passes c = true ↔
        ∃ v ∈ doc.itemsAt (.string k), ∃ n ∈ w.2,
          (a.entry k v).passes (comparison "term" (.string k) "entity_id" (.int n)) = true := by
  obtain ⟨ns, hasked, hns⟩ := h.exists_asked_eq hw
  obtain ⟨m, hm⟩ := h.exists_mem hw
  have hrange : ∀ n ∈ ns, leastId ≤ n ∧ n ≤ greatestId := fun n hn => h.range w hw n ((hns n).1 hn)
  have hclause := @clauseOf?_numbers k _ _ hasked (List.ne_nil_of_mem ((hns m).2 hm)) hrange (textsOf_askedTexts _)
  refine ⟨_, hclause, fun a doc => ?_⟩
  rw [Analysis.passes_nested]
  simp [hns]

variable (hds : Loaded ds) (ht : type.IsText)
include hds ht

/-- The filters of a request by numbers are the fields of the related pairs whose types are asked for. -/
private theorem Askable.mem_active_iff (stem : String) (f : Key × Value) :
    f ∈ asRecord (chosen (requestFor wanted) (grouped stem (Catalogue.relatedPairs ds type))) ↔
      ∃ r ∈ Catalogue.relatedPairs ds type, ∃ w ∈ wanted, w.1 = r.2.toText ∧
        f = (.string (stem ++ FieldKey.body r), .list ((asked (requestFor wanted) w.1).map .string)) := by
  rw [asRecord, List.mem_map]
  constructor
  · rintro ⟨⟨k, ts⟩, hmem, rfl⟩
    obtain ⟨r, hr, rfl, rfl, hts⟩ := (mem_chosen hds ht stem).1 hmem
    obtain ⟨t, htext⟩ := List.exists_mem_of_ne_nil _ hts
    obtain ⟨w, hw, htype, -⟩ := (mem_asked_requestFor h.nodup).1 htext
    exact ⟨r, hr, w, hw, htype, by rw [htype]⟩
  · rintro ⟨r, hr, w, hw, htype, rfl⟩
    obtain ⟨n, hn⟩ := h.exists_mem hw
    have hasked : toString n ∈ asked (requestFor wanted) w.1 :=
      (mem_asked_requestFor h.nodup).2 ⟨w, hw, rfl, n, hn, rfl⟩
    exact ⟨_, (mem_chosen hds ht stem).2 ⟨r, hr, rfl, by rw [htype], List.ne_nil_of_mem hasked⟩, rfl⟩

/-- A search by numbers is compiled, and finds the documents that have, for every related pair whose type is asked
for, an entry with one of the numbers in the field of the pair. -/
private theorem Askable.compile_eq_ok (stem : String) :
    ∃ body, compile {} (asRecord (chosen (requestFor wanted) (grouped stem (Catalogue.relatedPairs ds type)))) .null =
        .ok (some body) ∧
      ∀ (a : Analysis) (doc : Document), (a.document doc).passes (queryOf body) = true ↔
        ∀ r ∈ Catalogue.relatedPairs ds type, ∀ w ∈ wanted, w.1 = r.2.toText →
          ∃ v ∈ doc.itemsAt (.string (stem ++ FieldKey.body r)), ∃ n ∈ w.2,
            (a.entry (stem ++ FieldKey.body r) v).passes
              (comparison "term" (.string (stem ++ FieldKey.body r)) "entity_id" (.int n)) = true := by
  have hactive := h.mem_active_iff hds ht stem
  generalize asRecord (chosen (requestFor wanted) (grouped stem (Catalogue.relatedPairs ds type))) = active at hactive
  have hclause : ∀ f ∈ active, ∃ c, clauseOf? f = .ok (some c) := by
    intro f hf
    obtain ⟨r, -, w, hw, -, rfl⟩ := (hactive f).1 hf
    obtain ⟨c, hc, -⟩ := h.exists_clauseOf?_eq hw (stem ++ FieldKey.body r)
    exact ⟨c, hc⟩
  obtain ⟨cs, hcs⟩ := clausesOf_eq_ok_iff.2 fun f hf => clauseOf?_eq_ok_iff.1 ⟨_, (hclause f hf).choose_spec⟩
  have hcs' : cs ≠ [] := by
    obtain ⟨w, hw⟩ := List.exists_mem_of_ne_nil _ h.nonempty
    obtain ⟨name, hname⟩ := h.types w hw
    have hf := (hactive _).2 ⟨_, hname, w, hw, rfl, rfl⟩
    obtain ⟨c, hc⟩ := hclause _ hf
    exact List.ne_nil_of_mem ((mem_clausesOf_iff hcs).2 ⟨_, hf, hc⟩)
  obtain ⟨body, hbody, hpasses⟩ := @compile_eq_ok_of_absent {} rfl _ _ hcs hcs'
  refine ⟨body, hbody, fun a doc => ?_⟩
  rw [hpasses]
  constructor
  · intro hall r hr w hw htype
    obtain ⟨c, hc, hentry⟩ := h.exists_clauseOf?_eq hw (stem ++ FieldKey.body r)
    exact (hentry a doc).1 (hall _ ((hactive _).2 ⟨r, hr, w, hw, htype, rfl⟩) c hc)
  · intro hall f hf c hc
    obtain ⟨r, hr, w, hw, htype, rfl⟩ := (hactive f).1 hf
    obtain ⟨c', hc', hentry⟩ := h.exists_clauseOf?_eq hw (stem ++ FieldKey.body r)
    obtain rfl : c' = c := Option.some.inj (Except.ok.inj (hc'.symm.trans hc))
    exact (hentry a doc).2 (hall r hr w hw htype)

end Wanted

end Filter

namespace Gateway

variable {σ : Type}

/-- Once the changes of edges are followed, starting from documents without relationship fields, a search for
entities of a type by the numbers of related ones finds exactly those which an edge that is there joins to one of
them, for every type that is asked for and every name under which the two types are related. -/
theorem filterSearch_finds_related (settings : Settings) {h : Host} (hd : ∀ d ∈ h.source.getD [], d.Textual)
    (hs : h.store.Keyed) :
    ∃ ds, (Catalogue.load {} h.source).result = .ok ds ∧
      ∀ (engine : Engine) (documents : Int → Document) (cs : List EdgeChange), engine.catalogue.Holds ds →
        (∀ e, h.store.entity e.id = some e → ∀ r ∈ Catalogue.relatedPairs ds e.type,
          (documents e.id).lookup (({ settings } : Gateway).projector.keyOf r) = none) →
        (∀ c ∈ cs, Kind.ofValue c.event.kind = .ok .entityToEntity ∧ ∃ x y, c.event.Joins ds h.store x y) →
        ∃ engine' documents',
          Engine.followAll ({ settings } : Gateway).projector h.source h.store (engine, documents) cs =
            .ok (engine', documents') ∧ engine'.catalogue.Holds ds ∧
          ∀ type wanted, Filter.Askable (Catalogue.relatedPairs ds (.string type)) wanted →
            ∀ (s : GatewayState σ) (page : Value), s.engine.catalogue.Holds ds →
              ∃ s' body, (filterSearch { settings } h .null (.string type) (.object (Filter.requestFor wanted))
                  page).outcome s = (s', .ok (some body)) ∧
                ∀ (a : Filter.Analysis) (e : Entity), h.store.entity e.id = some e → e.type = .string type →
                  ((a.document (documents' e.id)).passes (Filter.queryOf body) = true ↔
                    ∀ w ∈ wanted, ∀ name, (name, .string w.1) ∈ Catalogue.relatedPairs ds (.string type) →
                      ∃ n ∈ w.2, ∃ x, h.store.entity n = some x ∧ x.type = .string w.1 ∧
                        EdgeChange.Present h.store cs e x name) := by
  obtain ⟨ds, hl, hds⟩ := @Catalogue.load_loaded {} rfl h.source hd
  refine ⟨ds, hl, fun engine documents cs he hfresh hcs => ?_⟩
  obtain ⟨engine', documents', hfollow, he', hitems⟩ :=
    EdgeHistory.mem_itemsAt_iff (p := ({ settings } : Gateway).projector) hds hs rfl rfl hl he hfresh hcs
  refine ⟨engine', documents', hfollow, he', fun type wanted hwanted s page hcatalogue => ?_⟩
  have ht := Value.isText_string type
  obtain ⟨body, hbody, hpasses⟩ := hwanted.compile_eq_ok hds ht settings.fieldStem.toText
  obtain ⟨s', houtcome, -⟩ :=
    outcome_filterSearch settings hl hds ht (Filter.isRequested_requestFor wanted) .null page hcatalogue
  refine ⟨s', body, hbody ▸ houtcome, fun a e hstored htype => ?_⟩
  rw [hpasses]
  have hkey : ∀ {name u}, (name, u) ∈ Catalogue.relatedPairs ds (.string type) → ∀ v,
      v ∈ (documents' e.id).itemsAt (.string (settings.fieldStem.toText ++ FieldKey.body (name, u))) ↔
        ∃ x, h.store.entity x.id = some x ∧ x.type = u ∧ EdgeChange.Present h.store cs e x name ∧
          v = .object x.summary :=
    fun hr v => hitems e hstored _ (htype ▸ hr) v
  constructor
  · intro hall w hmem name hname
    obtain ⟨v, hv, n, hn, hpass⟩ := hall _ hname w hmem rfl
    obtain ⟨x, hx, htx, hpresent, rfl⟩ := (hkey hname v).1 hv
    rw [Filter.Analysis.passes_entityId, beq_iff_eq] at hpass
    exact ⟨n, hn, x, hpass ▸ hx, htx, hpresent⟩
  · rintro hall ⟨name, u⟩ hr w hmem hu
    obtain ⟨t, rfl⟩ := (hds.inTexts_of_mem_relatedPairs ht hr).2
    obtain rfl : w.1 = t := hu
    obtain ⟨n, hn, x, hx, htx, hpresent⟩ := hall w hmem name hr
    obtain rfl := (hs n x hx).1
    refine ⟨_, (hkey hr _).2 ⟨x, hx, htx, hpresent, rfl⟩, x.id, hn, ?_⟩
    rw [Filter.Analysis.passes_entityId, beq_self_eq_true]

/-- An event with a sponsor. -/
def fair : Entity := { id := 10, type := .string "event" }

/-- Another event. -/
def talk : Entity := { id := 30, type := .string "event" }

/-- Two events and a company, which may sponsor them. -/
def fairHost : Host where
  source := some [.between "sponsors" "event" "company"]
  store := (Graph.ofEntities [fair, { id := 20, type := .string "company" }, talk]).store

/-- The company becomes a sponsor of the first event. -/
def fairSponsored : EdgeChange := ⟨⟨.id (.int 20), .id (.string "10"), .string "sponsors", .null⟩, true⟩

theorem filterSearch_finds_related_fair :
    ∃ engine documents, Engine.followAll ({} : Gateway).projector fairHost.source fairHost.store ({}, fun _ => [])
        [fairSponsored] = .ok (engine, documents) ∧
      ∃ s' body, (filterSearch {} fairHost .null (.string "event")
          (.object (Filter.requestFor [("company", [20, 21])])) .null).outcome ({ index := () } : GatewayState Unit) =
          (s', .ok (some body)) ∧
        ∀ a : Filter.Analysis, (a.document (documents 10)).passes (Filter.queryOf body) = true ∧
          (a.document (documents 30)).passes (Filter.queryOf body) = false := by
  have hs : fairHost.store.Keyed :=
    (Graph.keyed_ofEntities (by simp [fair, talk, Value.isText_string])).entity
  obtain ⟨ds, hl, hruns⟩ := @filterSearch_finds_related Unit {} fairHost
    (by simpa [fairHost] using Declaration.textual_between _ _ _) hs
  obtain rfl := Except.ok.inj (Catalogue.load_sponsors.symm.trans hl)
  obtain ⟨engine, documents, hfollow, -, hsearches⟩ := hruns {} (fun _ => []) [fairSponsored] (.inl rfl)
    (fun _ _ _ _ => rfl) (by
      intro c hc
      obtain rfl := List.mem_singleton.1 hc
      exact ⟨rfl, _, _, rfl, rfl, _, List.mem_singleton.2 rfl, rfl, .inr ⟨by simp, by simp [fair]⟩⟩)
  have hpairs := @Catalogue.relatedPairs_single "sponsors" "event" "company" (by simp)
  have hwanted : Filter.Askable [(.string "sponsors", .string "company")] [("company", [20, 21])] :=
    ⟨by simp, by simp, by simp, by simp, by simp [Filter.leastId, Filter.greatestId]⟩
  obtain ⟨s', body, houtcome, hfound⟩ := hsearches "event" [("company", [20, 21])] (hpairs ▸ hwanted) { index := () }
    .null (.inl rfl)
  refine ⟨engine, documents, hfollow, s', body, houtcome, fun a => ⟨?_, ?_⟩⟩
  · refine (hfound a fair rfl rfl).2 fun w hw name hname => ?_
    obtain rfl := List.mem_singleton.1 hw
    obtain rfl : name = .string "sponsors" := by simpa [hpairs] using hname
    exact ⟨20, by simp, _, rfl, rfl, [], fairSponsored, [], rfl, ⟨rfl, .inr ⟨rfl, rfl⟩⟩, rfl, List.forall_mem_nil _⟩
  · refine Bool.eq_false_iff.2 fun h => ?_
    obtain ⟨n, -, x, -, -, before, c, after, hcs, hof, -⟩ := (hfound a talk rfl rfl).1 h _ (List.mem_singleton.2 rfl)
      (.string "sponsors") (by simp [hpairs])
    have hc : c ∈ [fairSponsored] := hcs ▸ by simp
    obtain rfl := List.mem_singleton.1 hc
    -- Neither end of the edge is the other event.
    rcases hof.2 with ⟨hend, -⟩ | ⟨-, hend⟩
    · exact absurd (congrArg Entity.id (Option.some.inj (Except.ok.inj hend))) (by decide)
    · exact absurd (congrArg Entity.id (Option.some.inj (Except.ok.inj hend))) (by decide)

end Gateway

end EdgeFields
