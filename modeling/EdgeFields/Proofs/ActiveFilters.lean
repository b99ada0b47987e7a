import EdgeFields.Filter.Active
import EdgeFields.Proofs.Loaded
import EdgeFields.Proofs.RequestTexts

/-!
# Active filters

Without a host, the filters of an entity type are the field keys of the pairs that it is related to, grouped by the
types that the filters are known by (`supported_eq_ok`).  A request turns on the fields under whose type it has a text
that is not blank after cleaning, and no others (`outcome_resolve`, `mem_chosen`).
-/

namespace EdgeFields

/-! ### Lists kept under keys -/

namespace Assoc

variable {κ α : Type} [BEq κ]

variable {k : κ} {a : α} {m : List (κ × List α)}

private theorem push_eq_insert : push k a m = insert k ((m.lookup k).getD [] ++ [a]) m := by
  induction m with
  | nil => rfl
  | cons p r ih =>
    obtain ⟨k', as⟩ := p
    cases hk : k == k' with
    | true => simp [push, insert, List.lookup_cons, hk]
    | false => simp [push, insert, lookup_cons_of_ne hk, hk, ih]

/-- Pushing an item adds it to the items of all keys together. -/
private theorem perm_push : ((push k a m).flatMap (·.2)).Perm (m.flatMap (·.2) ++ [a]) := by
  induction m with
  | nil => exact List.Perm.refl _
  | cons p r ih =>
    obtain ⟨k', as⟩ := p
    cases hk : k == k' with
    | true =>
      rw [push, hk, if_pos rfl, List.flatMap_cons, List.flatMap_cons, List.append_assoc, List.append_assoc]
      exact List.perm_append_comm.append_left as
    | false =>
      rw [push, hk, if_neg Bool.false_ne_true, List.flatMap_cons, List.flatMap_cons, List.append_assoc]
      exact ih.append_left as

end Assoc

namespace Filter

/-! ### Filters of a type -/

/-- The field keys of some pairs, grouped by the types that filters are known by. -/
def grouped (stem : String) (rs : List Related) : List (String × List String) :=
  rs.foldl (fun m r => Assoc.push r.2.toText (stem ++ FieldKey.body r) m) []

/-- Lists of texts under texts, as they stand among filters. -/
def asLists (m : List (String × List String)) : List (Key × List Value) :=
  m.map fun e => (.string e.1, e.2.map .string)

/-- Lists of texts under texts, as the members of an object. -/
def asRecord (m : List (String × List String)) : Record :=
  m.map fun e => (.string e.1, .list (e.2.map .string))

theorem asRecord_eq (m : List (String × List String)) :
    (asLists m).map (fun e => (e.1, Value.list e.2)) = asRecord m := by
  rw [asLists, asRecord, List.map_map]
  rfl

variable {stem : String} {rs : List Related} {m : List (String × List String)}

/-- What is grouped are the field keys of all pairs, each under the type of its pair. -/
structure Grouped (stem : String) (rs : List Related) (m : List (String × List String)) : Prop where
  perm : (m.flatMap (·.2)).Perm (rs.map fun r => stem ++ FieldKey.body r)
  origin : ∀ e ∈ m, ∀ k ∈ e.2, ∃ r ∈ rs, r.2.toText = e.1 ∧ stem ++ FieldKey.body r = k

private theorem Grouped.push (h : Grouped stem rs m) (r : Related) :
    Grouped stem (rs ++ [r]) (Assoc.push r.2.toText (stem ++ FieldKey.body r) m) where
  perm := by
    rw [List.map_append, List.map_singleton]
    exact Assoc.perm_push.trans (h.perm.append_right _)
  origin e he k hk := by
    have hold : ∀ e' ∈ m, ∀ k ∈ e'.2, ∃ r' ∈ rs ++ [r], r'.2.toText = e'.1 ∧ stem ++ FieldKey.body r' = k := by
      intro e' he' k hk
      obtain ⟨r', hr', horigin⟩ := h.origin e' he' k hk
      exact ⟨r', List.mem_append_left _ hr', horigin⟩
    rcases Assoc.mem_push he with he | rfl
    · exact hold e he k hk
    · rcases List.mem_append.1 hk with hk | hk
      · cases hl : m.lookup r.2.toText with
        | none => simp [hl] at hk
        | some ks =>
          obtain ⟨t, ht, hmem⟩ := Assoc.mem_of_lookup hl
          rw [hl] at hk
          exact eq_of_beq ht ▸ hold _ hmem k hk
      · exact ⟨r, by simp, rfl, (List.mem_singleton.1 hk).symm⟩

private theorem grouped_append (rs : List Related) (r : Related) :
    grouped stem (rs ++ [r]) = Assoc.push r.2.toText (stem ++ FieldKey.body r) (grouped stem rs) := by
  rw [grouped, List.foldl_append]
  rfl

theorem grouped_grouped (stem : String) (rs : List Related) : Grouped stem rs (grouped stem rs) := by
  induction rs using List.reverseRecOn with
  | nil => exact ⟨List.Perm.refl _, List.forall_mem_nil _⟩
  | append_singleton rs r ih =>
    rw [grouped_append]
    exact ih.push r

/-- Where no two pairs share a key, a key stands under the type of its pair only. -/
private theorem Grouped.mem_iff (h : Grouped stem rs m) (hrs : (rs.map fun r => stem ++ FieldKey.body r).Nodup)
    {t k : String} : (∃ e ∈ m, e.1 = t ∧ k ∈ e.2) ↔ ∃ r ∈ rs, r.2.toText = t ∧ stem ++ FieldKey.body r = k := by
  constructor
  · rintro ⟨e, he, rfl, hk⟩
    exact h.origin e he k hk
  · rintro ⟨r, hr, rfl, rfl⟩
    obtain ⟨e, he, hk⟩ := List.mem_flatMap.1 (h.perm.mem_iff.2 (List.mem_map.2 ⟨r, hr, rfl⟩))
    obtain ⟨r', hr', ht, hk'⟩ := h.origin e he _ hk
    obtain rfl : r' = r := List.inj_on_of_nodup_map hrs hr' hr hk'
    exact ⟨e, he, ht.symm, hk⟩

private theorem lookup_asLists (m : List (String × List String)) (t : String) :
    (asLists m).lookup (.string t) = (m.lookup t).map fun ks => ks.map Value.string := by
  induction m with
  | nil => rfl
  | cons e m ih =>
    change List.lookup _ ((_, _) :: asLists m) = _
    rw [List.lookup_cons, List.lookup_cons, Key.beq_string, ih]
    cases t == e.1 <;> rfl

private theorem insert_asLists (m : List (String × List String)) (t : String) (ks : List String) :
    Assoc.insert (.string t) (ks.map .string) (asLists m) = asLists (Assoc.insert t ks m) := by
  induction m with
  | nil => rfl
  | cons e m ih =>
    change Assoc.insert _ _ ((_, _) :: asLists m) = _
    rw [Assoc.insert, Assoc.insert, Key.beq_string, ih]
    cases t == e.1 <;> rfl

/-- Joining texts that are new leaves them as they are. -/
private theorem union_texts {xs ys : List String} (h : (xs ++ ys).Nodup) :
    Value.union (xs.map .string) (ys.map .string) = (xs ++ ys).map .string := by
  rw [Value.union, foldl_addNew_eq_append, List.map_append]
  rw [← List.map_append, List.pairwise_map]
  refine List.Pairwise.imp (fun {s t} hne => ?_) h
  rw [Bool.eq_false_iff, ne_eq, Value.beq_string_left]
  exact fun heq => hne (Value.string.inj heq)

section Supported

variable {ds : List Definition} (hds : Loaded ds) {type : Value} (ht : type.IsText)
include hds ht

private theorem Resolver.fileFilter_eq_ok {r : Related} (hr : r ∈ Catalogue.relatedPairs ds type)
    (hnew : stem ++ FieldKey.body r ∉ m.flatMap (·.2)) (hm : (m.flatMap (·.2)).Nodup) :
    fileFilter { stem } type (asLists m) r =
      .ok (asLists (Assoc.push r.2.toText (stem ++ FieldKey.body r) m)) := by
  have htruthy := hds.truthy_of_mem_relatedPairs ht hr
  obtain ⟨hn, u, hu⟩ := hds.inTexts_of_mem_relatedPairs ht hr
  have hkey : FieldKey.derive stem r.1 r.2 = .ok (stem ++ FieldKey.body r) := FieldKey.derive_eq_ok stem hn ⟨u, hu⟩
  have hold : ((m.lookup u).getD [] ++ [stem ++ FieldKey.body r]).Nodup := by
    cases hl : m.lookup u with
    | none => exact List.pairwise_singleton _ _
    | some ks =>
      obtain ⟨t, -, hmem⟩ := Assoc.mem_of_lookup hl
      have hsub : ∀ k ∈ ks, k ∈ m.flatMap (·.2) := fun k hk => List.mem_flatMap.2 ⟨_, hmem, hk⟩
      rw [Option.getD_some, List.nodup_append]
      refine ⟨(List.nodup_flatMap.1 hm).1 _ hmem, List.pairwise_singleton _ _, ?_⟩
      rintro k hk k' hk' rfl
      exact hnew (List.mem_singleton.1 hk' ▸ hsub k hk)
  have hunion : Value.union (((asLists m).lookup (.string u)).getD []) [.string (stem ++ FieldKey.body r)] =
      ((m.lookup u).getD [] ++ [stem ++ FieldKey.body r]).map .string := by
    rw [← union_texts hold, lookup_asLists]
    cases m.lookup u <;> rfl
  rw [fileFilter]
  simp only [htruthy, ok_bind, hkey, Bool.not_true, Bool.false_eq_true, if_false]
  rw [hu, Value.toKey_string, ok_bind, hunion, insert_asLists, ← Assoc.push_eq_insert]
  rfl

/-- The filters of an entity type: the field keys of its related pairs, grouped by types. -/
theorem Resolver.supported_eq_ok (stem : String) (page : Value) :
    supported { stem } ds type page = .ok (asRecord (grouped stem (Catalogue.relatedPairs ds type))) := by
  have hfold : ∀ rs rs', rs ++ rs' = Catalogue.relatedPairs ds type →
      rs'.foldlM (fileFilter { stem } type) (asLists (grouped stem rs)) =
        .ok (asLists (grouped stem (rs ++ rs'))) := by
    intro rs rs' hsplit
    induction rs' generalizing rs with
    | nil => simp
    | cons r rs' ih =>
      have hnodup := hds.nodup_keys ht stem
      rw [← hsplit, List.map_append, List.map_cons, List.nodup_append] at hnodup
      have hperm := (grouped_grouped stem rs).perm
      have hstep : fileFilter { stem } type (asLists (grouped stem rs)) r =
          .ok (asLists (grouped stem (rs ++ [r]))) := by
        rw [grouped_append]
        refine fileFilter_eq_ok hds ht (by rw [← hsplit]; simp) ?_ (hperm.nodup_iff.2 hnodup.1)
        rw [hperm.mem_iff]
        exact fun hk => hnodup.2.2 _ hk _ (List.mem_cons_self ..) rfl
      have hrest := ih (rs ++ [r]) (by rw [← hsplit, List.append_assoc, List.singleton_append])
      rw [List.foldlM_cons, hstep, ok_bind, hrest, List.append_assoc, List.singleton_append]
  have hall := hfold [] (Catalogue.relatedPairs ds type) (List.nil_append _)
  rw [supported]
  change (List.foldlM (fileFilter { stem } type) (asLists (grouped stem [])) _ >>= _) = _
  rw [hall, ok_bind, List.nil_append, asRecord_eq]
  rfl

end Supported

/-! ### Filters that a request turns on -/

/-- Whether a value stands for texts in a request: one text, or a list of texts. -/
def IsRequested : Value → Prop
  | .string _ => True
  | .list xs => ∀ x ∈ xs, x.IsText
  | _ => False

/-- The texts that a request value stands for. -/
def requestedTexts : Value → List String
  | .string s => [s]
  | .list xs => xs.map Value.toText
  | _ => []

/-- The texts of a list that are not empty, each once. -/
def presentTexts (ts : List String) : List String :=
  (ts.filter (· ≠ "")).foldl (fun kept t => if kept.contains t then kept else kept ++ [t]) []

/-- The texts that a request value asks for: cleaned, without blank ones, each once. -/
def askedTexts (v : Value) : List String :=
  presentTexts ((requestedTexts v).map Text.clean)

/-- The texts that request parameters ask for under a name. -/
def asked (params : Record) (name : String) : List String :=
  askedTexts ((params.lookup (.string name)).getD .null)

/-- The fields of one filter with the texts that request parameters ask for; none without a text. -/
def chosenUnder (params : Record) (e : String × List String) : List (String × List String) :=
  if asked params e.1 = [] then [] else e.2.map fun k => (k, asked params e.1)

/-- The fields that request parameters ask for, each with its texts. -/
def chosen (params : Record) (m : List (String × List String)) : List (String × List String) :=
  m.flatMap (chosenUnder params)

theorem mem_presentTexts {ts : List String} {t : String} : t ∈ presentTexts ts ↔ t ≠ "" ∧ t ∈ ts := by
  refine (mem_foldl_addNew fun _ _ h => (eq_of_beq h).symm).trans ?_
  simp [and_comm]

theorem mem_askedTexts {v : Value} {t : String} :
    t ∈ askedTexts v ↔ t ≠ "" ∧ ∃ s ∈ requestedTexts v, Text.clean s = t := by
  rw [askedTexts, mem_presentTexts, List.mem_map]

theorem nodup_askedTexts (v : Value) : (askedTexts v).Nodup :=
  nodup_foldl_addNew (fun _ _ => beq_self_eq_true _) List.nodup_nil

theorem textsOf_list (ts : List String) :
    textsOf (.list (ts.map .string)) = .ok (presentTexts (ts.map Text.trim)) := by
  have hnull : ((ts.map Value.string).filter fun item => !item.isNull) = ts.map Value.string :=
    List.filter_eq_self.2 fun v hv => by
      obtain ⟨s, -, rfl⟩ := List.mem_map.1 hv
      rfl
  have htexts : (ts.map Value.string).map (fun item => Text.trim item.toText) = ts.map Text.trim := by
    rw [List.map_map]
    rfl
  simp only [textsOf, Value.elements, ok_bind, hnull, htexts]
  rfl

theorem textsOf_string (s : String) : textsOf (.string s) = .ok (presentTexts [Text.trim s]) :=
  textsOf_list [s]

/-- A request value is read as the texts that it asks for. -/
private theorem textsOf_cleanedValue {v : Value} (h : IsRequested v) :
    textsOf (Resolver.cleanedValue v) = .ok (askedTexts v) := by
  cases v with
  | string s =>
    change textsOf (.string (Text.clean s)) = _
    rw [textsOf_string, Text.trim_clean]
    rfl
  | list xs =>
    have hcleaned : xs.map (fun x => Value.string (Resolver.cleaned x)) =
        ((xs.map Value.toText).map Text.clean).map Value.string := by
      simp only [List.map_map]
      refine List.map_congr_left fun x hx => ?_
      obtain ⟨s, rfl⟩ := h x hx
      rfl
    have htrim : ((xs.map Value.toText).map Text.clean).map Text.trim = (xs.map Value.toText).map Text.clean := by
      rw [List.map_map]
      exact List.map_congr_left fun t _ => Text.trim_clean t
    rw [Resolver.cleanedValue, hcleaned, textsOf_list, htrim]
    rfl
  | _ => exact absurd h (by simp [IsRequested])

private theorem askedTexts_of_not_truthy {v : Value} (h : v.truthy = false) : askedTexts v = [] := by
  cases v with
  | string s =>
    have hs : s = "" := by simpa [Value.truthy] using h
    subst hs
    decide
  | list xs =>
    have hxs : xs = [] := by simpa [Value.truthy] using h
    subst hxs
    rfl
  | _ => rfl

theorem sublist_keys_chosenUnder (params : Record) (e : String × List String) :
    (Assoc.keys (chosenUnder params e)).Sublist e.2 := by
  rw [chosenUnder]
  split
  · exact List.nil_sublist _
  · simp [Assoc.keys, Function.comp_def]

/-- Texts are added to fields that have none yet by putting them behind the others. -/
private theorem foldlM_addTexts {ts : List String} (hts : ts.Nodup) {active : List (String × List String)}
    {ks : List String} (hks : (Assoc.keys active ++ ks).Nodup) :
    (ks.map Value.string).foldlM (Resolver.addTexts (ts.map .string)) (asLists active) =
      .ok (asLists (active ++ ks.map fun k => (k, ts))) := by
  induction ks generalizing active with
  | nil => simp
  | cons k ks ih =>
    have hnew : active.lookup k = none := by
      rw [List.lookup_eq_none_iff]
      intro e he
      have hne := (List.nodup_append.1 hks).2.2 e.1 (List.mem_map_of_mem he) k (List.mem_cons_self ..)
      simpa using Ne.symm hne
    have hstep : Resolver.addTexts (ts.map .string) (asLists active) (.string k) =
        .ok (asLists (active ++ [(k, ts)])) := by
      have hunion : Value.union [] (ts.map .string) = ts.map .string := by
        simpa using @union_texts [] ts (by simpa using hts)
      rw [Resolver.addTexts, Value.toKey_string, ok_bind, lookup_asLists, hnew, Option.map_none, Option.getD_none,
        hunion, insert_asLists, Assoc.insert_of_lookup_eq_none hnew]
      rfl
    have hkeys : (Assoc.keys (active ++ [(k, ts)]) ++ ks).Nodup := by
      simpa [Assoc.keys] using hks
    rw [List.map_cons, List.foldlM_cons, hstep, ok_bind, ih hkeys, List.map_cons, List.append_assoc,
      List.singleton_append]

section Requested

variable {params : Record} (hp : ∀ e ∈ params, IsRequested e.2)
include hp

private theorem isRequested_of_truthy {name : String}
    (h : ((params.lookup (.string name)).getD .null).truthy = true) :
    IsRequested ((params.lookup (.string name)).getD .null) := by
  cases hl : params.lookup (.string name) with
  | none => simp [hl, Value.truthy] at h
  | some v =>
    obtain ⟨k, -, hmem⟩ := Assoc.mem_of_lookup hl
    exact hp _ hmem

private theorem Resolver.addFilter_eq_ok {active : List (String × List String)} {e : String × List String}
    (hnew : (Assoc.keys active ++ e.2).Nodup) :
    addFilter { stem } (.object params) (asLists active) (.string e.1, .list (e.2.map .string)) =
      .ok (asLists (active ++ chosenUnder params e)) := by
  have hmember : (Value.object params).member (.string e.1) = .ok ((params.lookup (.string e.1)).getD .null) := rfl
  rw [addFilter]
  dsimp only
  rw [hmember, ok_bind, chosenUnder, asked]
  generalize hraw : (params.lookup (.string e.1)).getD .null = raw
  cases htruthy : raw.truthy with
  | false => simp [askedTexts_of_not_truthy htruthy]
  | true =>
    have htexts := textsOf_cleanedValue (hraw ▸ isRequested_of_truthy hp (hraw ▸ htruthy) : IsRequested raw)
    have hadjust : Hooks.adjust none (cleanedValue raw) = .ok (cleanedValue raw) := rfl
    simp only [Bool.not_true, Bool.false_eq_true, if_false, Option.map_none, hadjust, ok_bind, htexts,
      List.isEmpty_iff]
    split
    · simp
    · exact foldlM_addTexts (nodup_askedTexts raw) hnew

private theorem Resolver.foldlM_addFilter {active : List (String × List String)}
    (hnew : (Assoc.keys active ++ m.flatMap (·.2)).Nodup) :
    (asRecord m).foldlM (addFilter { stem } (.object params)) (asLists active) =
      .ok (asLists (active ++ chosen params m)) := by
  induction m generalizing active with
  | nil => simp [asRecord, chosen]
  | cons e m ih =>
    rw [List.flatMap_cons, ← List.append_assoc] at hnew
    have hstep := @addFilter_eq_ok stem _ hp _ e (List.nodup_append.1 hnew).1
    have hrest : (Assoc.keys (active ++ chosenUnder params e) ++ m.flatMap (·.2)).Nodup := by
      rw [Assoc.keys, List.map_append]
      exact hnew.sublist (((sublist_keys_chosenUnder params e).append_left _).append_right _)
    change (_ :: asRecord m).foldlM _ _ = _
    rw [List.foldlM_cons, hstep, ok_bind, ih hrest, List.append_assoc]
    rfl

end Requested

section Loaded

variable {ds : List Definition} (hds : Loaded ds) {type : Value} (ht : type.IsText)
include hds ht

/-- A field is turned on exactly if the request has a text under the type of its pair; it gets all of them. -/
theorem mem_chosen (stem : String) {params : Record} {k : String} {ts : List String} :
    (k, ts) ∈ chosen params (grouped stem (Catalogue.relatedPairs ds type)) ↔
      ∃ r ∈ Catalogue.relatedPairs ds type,
        stem ++ FieldKey.body r = k ∧ asked params r.2.toText = ts ∧ ts ≠ [] := by
  have hmem := @Grouped.mem_iff _ _ _ (grouped_grouped stem _) (hds.nodup_keys ht stem)
  rw [chosen, List.mem_flatMap]
  constructor
  · rintro ⟨e, he, hk⟩
    unfold chosenUnder at hk
    split at hk
    · cases hk
    · next hne =>
      obtain ⟨k', hk', heq⟩ := List.mem_map.1 hk
      obtain ⟨rfl, rfl⟩ := Prod.mk.inj heq
      obtain ⟨r, hr, ht', hkey⟩ := hmem.1 ⟨e, he, rfl, hk'⟩
      exact ⟨r, hr, hkey, by rw [ht'], hne⟩
  · rintro ⟨r, hr, hkey, rfl, hne⟩
    obtain ⟨e, he, ht', hk⟩ := hmem.2 ⟨r, hr, rfl, hkey⟩
    refine ⟨e, he, ?_⟩
    rw [chosenUnder, ht', if_neg hne]
    exact List.mem_map.2 ⟨k, hk, rfl⟩

private theorem chosen_eq_nil (stem : String) {params : Record} (h : params = [] ∨ type.truthy = false) :
    chosen params (grouped stem (Catalogue.relatedPairs ds type)) = [] := by
  rw [List.eq_nil_iff_forall_not_mem]
  rintro ⟨k, ts⟩ hmem
  obtain ⟨r, hr, -, rfl, hne⟩ := (mem_chosen hds ht stem).1 hmem
  rcases h with rfl | h
  · exact hne rfl
  · -- Only types that are not empty are related to anything.
    obtain ⟨d, hd, -, hsides⟩ := (Catalogue.mem_relatedPairs hds.textual ht).1 hr
    have hside := hsides.imp And.left And.left
    have htruthy := ((hds.textual d hd).types type (List.mem_append.2 hside)).2
    rw [h] at htruthy
    exact Bool.false_ne_true htruthy

variable {params : Record} (hp : ∀ e ∈ params, IsRequested e.2)
include hp

private theorem Resolver.requested_eq_ok (stem : String) (page : Value) :
    requested { stem } ds type (.object params) page =
      .ok (asRecord (chosen params (grouped stem (Catalogue.relatedPairs ds type)))) := by
  have hnodup := (grouped_grouped stem _).perm.nodup_iff.2 (hds.nodup_keys ht stem)
  have hfold := @foldlM_addFilter stem _ _ hp [] hnodup
  rw [requested, supported_eq_ok hds ht, ok_bind]
  change (List.foldlM _ (asLists []) _ >>= _) = _
  rw [hfold, ok_bind, List.nil_append, asRecord_eq]
  rfl

/-- Without a host, the active filters of a request are the fields that it asks for. -/
theorem Resolver.outcome_resolve (stem : String) {source : Source}
    (hl : (Catalogue.load {} source).result = .ok ds) {c : Catalogue} (hc : c.Holds ds) (page : Value) :
    ∃ c', (resolve { stem } source type (.object params) page).outcome c =
        (c', .ok (asRecord (chosen params (grouped stem (Catalogue.relatedPairs ds type))))) ∧ c'.Holds ds := by
  by_cases h : params = [] ∨ type.truthy = false
  · refine ⟨c, ?_, hc⟩
    have habsent : (!(Value.object params).truthy || !type.truthy) = true := by
      rcases h with rfl | h
      · rfl
      · rw [h, Bool.not_false, Bool.or_true]
    rw [resolve, habsent, chosen_eq_nil hds ht stem h]
    rfl
  · rw [not_or, Bool.not_eq_false] at h
    have hpresent : (!(Value.object params).truthy || !type.truthy) = false := by
      rw [h.2]
      simp [Value.truthy, h.1]
    obtain ⟨c', hdefinitions, hc'⟩ := Catalogue.outcome_definitionsFor hl hc ht
    refine ⟨c', ?_, hc'⟩
    have hrequested := Resolver.requested_eq_ok hds ht hp stem page
    simp only [resolve, hpresent, Bool.false_eq_true, if_false, isFilterable, Session.outcome_bind,
      Session.outcome_lift, Session.continueWith_ok, Bool.not_true, hdefinitions, hrequested]
    split <;> simp

end Loaded

end Filter

end EdgeFields
