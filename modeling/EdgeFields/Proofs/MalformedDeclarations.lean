import EdgeFields.Proofs.KeptDefinitions

/-!
# Malformed declarations

What loading makes of objects with any members at all.  Some stop it (`Parts.stops`): those with a side that holds
nothing, such as a number, and those that lack nothing and have something in them that is no text.  The others are
taken in if their name and types are texts (`Parts.passes`), and skipped otherwise.  So a catalogue answers exactly if
no declaration stops it, and then as if only those that pass were declared (`definitions_skip_malformed`).
-/

namespace EdgeFields

/-! ### Types of any value -/

namespace Value

/-- The types that a value offers, some of which may not be present: null offers none, a text itself, anything else
what it holds. -/
def candidates : Value → Option (List Value)
  | null => some []
  | string s => some [string s]
  | v => v.elements.toOption

/-- The types that a value offers and that are present. -/
def present (v : Value) : List Value :=
  (v.candidates.getD []).filter truthy

/-- Whether a value is a text that is not empty. -/
def isName : Value → Bool
  | string s => s != ""
  | _ => false

/-- Whether a value is a text that is not empty, or a list of texts and nulls with such a text among them. -/
def declaresTypes : Value → Bool
  | string s => s != ""
  | list xs => xs.any isName && xs.all fun x => x.isNull || (x matches string _)
  | _ => false

private theorem isName_iff {v : Value} : v.isName = true ↔ v.IsText ∧ v.truthy = true := by
  cases v <;> simp [isName, IsText, truthy]

private theorem typesOf_of_candidates {v : Value} (h : v.candidates.isNone = false) :
    Definition.typesOf v = .ok (dedup v.present) := by
  cases v with
  | null => rfl
  | string s =>
    by_cases hs : s = ""
    · simp [Definition.typesOf, present, candidates, truthy, hs, dedup, union]
    · simp [Definition.typesOf, present, candidates, truthy, hs, dedup, union, List.filter_cons]
  | list xs => rfl
  | tuple xs => rfl
  | object ms => rfl
  | _ => simp [candidates, elements, Except.toOption] at h

private theorem typesOf_of_candidates_eq_none {v : Value} (h : v.candidates.isNone = true) :
    Definition.typesOf v = .error .wrongType := by
  cases v with
  | null | string s | list xs | tuple xs | object ms => simp [candidates, elements, Except.toOption] at h
  | _ => rfl

private theorem present_of_declaresTypes {v : Value} (h : v.declaresTypes = true) :
    v.present ≠ [] ∧ ∀ t ∈ v.present, t.isName = true := by
  cases v with
  | string s =>
    have hpresent : (string s).present = [string s] := by
      rw [present, candidates, Option.getD_some, List.filter_cons_of_pos (by exact h), List.filter_nil]
    rw [hpresent]
    exact ⟨List.cons_ne_nil _ _, List.forall_mem_singleton.2 h⟩
  | list xs =>
    rw [declaresTypes, Bool.and_eq_true, List.any_eq_true, List.all_eq_true] at h
    obtain ⟨⟨x, hx, hname⟩, hitems⟩ := h
    refine ⟨List.ne_nil_of_mem (List.mem_filter.2 ⟨hx, (isName_iff.1 hname).2⟩), fun t ht => ?_⟩
    obtain ⟨hmem, htruthy⟩ := List.mem_filter.1 ht
    have hitem := hitems t hmem
    cases t with
    | string s => exact htruthy
    | null => cases htruthy
    | _ => simp [isNull] at hitem
  | _ => cases h

end Value

/-! ### Objects that declare relationships -/

/-- What is looked for in an object that declares a relationship. -/
structure Parts where
  name : Value
  fromTypes : Value
  toTypes : Value

namespace Parts

/-- The parts of an object; those that it does not have are null. -/
def of (ms : Record) : Parts where
  name := Definition.firstMember ms ["name"]
  fromTypes := Definition.firstMember ms ["from", "from_types"]
  toTypes := Definition.firstMember ms ["to", "to_types"]

def sides (p : Parts) : List Value := [p.fromTypes, p.toTypes]

/-- Whether the name is a text that is not empty, and so is each side, or it is a list of texts and nulls with such a
text among them. -/
def wellFormed (p : Parts) : Bool :=
  p.name.isName && p.sides.all Value.declaresTypes

/-- Whether there are a name and types on both sides, and all of them that are present are texts. -/
def passes (p : Parts) : Bool :=
  p.name.isName && p.sides.all fun v => !v.present.isEmpty && v.present.all Value.isName

example : passes ⟨.string "sponsors", .list [.string "event", .int 0], .object [("company", .null)]⟩ = true := rfl

/-- Whether a name and types on both sides are present. -/
def complete (p : Parts) : Bool :=
  p.name.truthy && p.sides.all fun v => !v.present.isEmpty

/-- Whether a side can hold no types at all, or nothing is missing and something is no text. -/
def stops (p : Parts) : Bool :=
  p.sides.any (fun v => v.candidates.isNone) || (p.complete && !p.passes)

/-- The definition that is read from the parts, if no side stops it. -/
def definition (p : Parts) : Definition :=
  ⟨if p.name.truthy then p.name else .string "", Value.dedup p.fromTypes.present, Value.dedup p.toTypes.present⟩

variable {p : Parts} {ms : Record}

private theorem coerce_eq (ms : Record) : Definition.coerce (.plain (.object ms)) =
    Definition.ofParts (of ms).name (of ms).fromTypes (of ms).toTypes := rfl

private theorem coerce_of_sides (h : (of ms).sides.any (fun v => v.candidates.isNone) = false) :
    Definition.coerce (.plain (.object ms)) = .ok (of ms).definition := by
  simp only [sides, List.any_cons, List.any_nil, Bool.or_false, Bool.or_eq_false_iff] at h
  rw [coerce_eq, Definition.ofParts, Value.typesOf_of_candidates h.1, Value.typesOf_of_candidates h.2]
  rfl

private theorem coerce_of_side (h : (of ms).sides.any (fun v => v.candidates.isNone) = true) :
    Definition.coerce (.plain (.object ms)) = .error .wrongType := by
  simp only [sides, List.any_cons, List.any_nil, Bool.or_false, Bool.or_eq_true] at h
  rw [coerce_eq, Definition.ofParts]
  cases hfrom : (of ms).fromTypes.candidates.isNone with
  | true =>
    rw [Value.typesOf_of_candidates_eq_none hfrom]
    rfl
  | false =>
    rw [Value.typesOf_of_candidates hfrom, Value.typesOf_of_candidates_eq_none (h.resolve_left (by simp [hfrom]))]
    rfl

private theorem isValid_definition (p : Parts) : p.definition.isValid = p.complete := by
  have hname : (if p.name.truthy then p.name else Value.string "").truthy = p.name.truthy := by
    cases h : p.name.truthy with
    | true => exact h
    | false => rfl
  rw [Definition.isValid, definition, hname]
  simp [complete, sides, Value.isEmpty_dedup, Bool.and_assoc]

private theorem passes_iff : p.passes = true ↔ p.complete = true ∧ p.name.IsText ∧
    ∀ t ∈ p.fromTypes.present ++ p.toTypes.present, t.IsText := by
  have hsides : ∀ v : Value, v.present.all Value.isName = true ↔ ∀ t ∈ v.present, t.IsText := by
    intro v
    rw [List.all_eq_true]
    refine forall₂_congr fun t ht => ?_
    rw [Value.isName_iff, and_iff_left (List.mem_filter.1 ht).2]
  simp only [passes, complete, sides, List.all_cons, List.all_nil, Bool.and_true, Bool.and_eq_true, hsides,
    Value.isName_iff, List.forall_mem_append]
  tauto

private theorem any_isNone_of_complete (h : p.complete = true) :
    p.sides.any (fun v => v.candidates.isNone) = false := by
  rw [complete, Bool.and_eq_true, List.all_eq_true] at h
  rw [List.any_eq_false]
  intro v hv hnone
  have hpresent := h.2 v hv
  rw [Value.present, Option.isNone_iff_eq_none.1 hnone] at hpresent
  cases hpresent

private theorem stops_of_passes (h : p.passes = true) : p.stops = false := by
  rw [stops, h, any_isNone_of_complete (passes_iff.1 h).1]
  simp

private theorem passes_of_wellFormed (h : p.wellFormed = true) : p.passes = true := by
  rw [wellFormed, Bool.and_eq_true, List.all_eq_true] at h
  rw [passes, Bool.and_eq_true, List.all_eq_true]
  refine ⟨h.1, fun v hv => ?_⟩
  rw [Bool.and_eq_true, Bool.not_eq_true', List.isEmpty_eq_false_iff, List.all_eq_true]
  exact Value.present_of_declaresTypes (h.2 v hv)

private theorem truthy_name_of_complete (h : p.complete = true) : p.name.truthy = true := by
  rw [complete, Bool.and_eq_true] at h
  exact h.1

private theorem textual_definition (h : p.passes = true) : p.definition.Textual := by
  obtain ⟨hcomplete, hname, htypes⟩ := passes_iff.1 h
  rw [List.forall_mem_append] at htypes
  have hpresent : ∀ v : Value, (∀ t ∈ v.present, t.IsText) →
      ∀ t ∈ Value.dedup v.present, t.IsText ∧ t.truthy = true := by
    intro v hv t ht
    have hmem := Value.mem_of_mem_dedup ht
    exact ⟨hv t hmem, (List.mem_filter.1 hmem).2⟩
  refine ⟨?_, List.forall_mem_append.2 ⟨hpresent _ htypes.1, hpresent _ htypes.2⟩, Value.nodup_dedup htypes.1,
    Value.nodup_dedup htypes.2⟩
  rw [definition, if_pos (truthy_name_of_complete hcomplete)]
  exact hname

private theorem truthy_of_mem_definition (p : Parts) :
    ∀ t ∈ p.definition.fromTypes ++ p.definition.toTypes, t.truthy = true := by
  refine List.forall_mem_append.2 ⟨fun t ht => ?_, fun t ht => ?_⟩
  · exact (List.mem_filter.1 (Value.mem_of_mem_dedup ht)).2
  · exact (List.mem_filter.1 (Value.mem_of_mem_dedup ht)).2

private theorem not_texts_definition (hcomplete : p.complete = true) (h : p.passes = false) :
    ¬ (p.definition.name.IsText ∧ ∀ t ∈ p.definition.fromTypes ++ p.definition.toTypes, t.IsText) := by
  rintro ⟨hname, htypes⟩
  have htexts : ∀ t ∈ p.fromTypes.present ++ p.toTypes.present, t.IsText := by
    rw [List.forall_mem_append] at htypes ⊢
    exact htypes.imp Value.forall_isText_dedup.1 Value.forall_isText_dedup.1
  rw [definition, if_pos (truthy_name_of_complete hcomplete)] at hname
  rw [passes_iff.2 ⟨hcomplete, hname, htexts⟩] at h
  cases h

end Parts

/-! ### Taking in a declaration -/

namespace FieldKey

/-- A name or a type that is present and no text has no part in a key. -/
private theorem part_eq_error {v : Value} (htruthy : v.truthy = true) (h : ¬ v.IsText) :
    part v = .error .wrongType := by
  cases v with
  | string s => exact absurd ⟨s, rfl⟩ h
  | _ => simp [part, htruthy]

private theorem eq_wrongType_of_part {v : Value} {f : Fault} (h : part v = .error f) : f = .wrongType := by
  unfold part at h
  split at h
  · cases h
  · split at h <;> simp_all

private theorem eq_wrongType_of_derive {stem : String} {name type : Value} {f : Fault}
    (h : derive stem name type = .error f) : f = .wrongType := by
  rw [derive] at h
  cases hname : part name with
  | error g =>
    rw [hname] at h
    obtain rfl := Except.error.inj h
    exact eq_wrongType_of_part hname
  | ok s =>
    cases htype : part type with
    | error g =>
      rw [hname, htype] at h
      obtain rfl := Except.error.inj h
      exact eq_wrongType_of_part htype
    | ok t =>
      rw [hname, htype] at h
      cases h

private theorem isText_of_part {v : Value} {s : String} (h : part v = .ok s) (htruthy : v.truthy = true) :
    v.IsText := by
  by_contra htext
  rw [part_eq_error htruthy htext] at h
  cases h

private theorem isText_of_derive {stem key : String} {name type : Value} (h : derive stem name type = .ok key)
    (hname : name.truthy = true) (htype : type.truthy = true) : name.IsText ∧ type.IsText := by
  obtain ⟨s, hs, h⟩ := exists_of_bind_eq_ok h
  obtain ⟨t, ht, -⟩ := exists_of_bind_eq_ok h
  exact ⟨isText_of_part hs hname, isText_of_part ht htype⟩

/-- Keys can be refused for no other reason than a name or a type of a wrong type. -/
private theorem eq_wrongType_of_pairsByKey {stem : String} {ds : List Definition} {f : Fault}
    (h : pairsByKey stem ds = .error f) : f = .wrongType := by
  rw [pairsByKey] at h
  cases hentries : (pairs ds).mapM (fun r => do return (← derive stem r.1 r.2, r)) with
  | ok entries =>
    rw [hentries] at h
    cases h
  | error g =>
    rw [hentries] at h
    obtain rfl := Except.error.inj h
    obtain ⟨r, -, hr⟩ := exists_of_mapM_eq_error hentries
    cases hkey : derive stem r.1 r.2 with
    | ok key =>
      rw [hkey] at hr
      cases hr
    | error g =>
      rw [hkey] at hr
      obtain rfl := Except.error.inj hr
      exact eq_wrongType_of_derive hkey

private theorem isText_of_pairsByKey {stem : String} {ds : List Definition} {m : List (String × List Related)}
    (h : pairsByKey stem ds = .ok m) {r : Related} (hr : r ∈ pairs ds) (hname : r.1.truthy = true)
    (htype : r.2.truthy = true) : r.1.IsText ∧ r.2.IsText := by
  obtain ⟨entries, hentries, -⟩ := exists_of_bind_eq_ok h
  obtain ⟨entry, hentry⟩ := exists_mapM_eq_ok_iff.1 ⟨entries, hentries⟩ r hr
  obtain ⟨key, hkey, -⟩ := exists_of_bind_eq_ok hentry
  exact isText_of_derive hkey hname htype

/-- Of a valid definition that is not in texts no keys can be made, whatever definitions there are besides. -/
private theorem collisions_eq_error (stem : String) {ds : List Definition} {d : Definition} (hd : d ∈ ds)
    (hvalid : d.isValid = true) (htypes : ∀ t ∈ d.fromTypes ++ d.toTypes, t.truthy = true)
    (htexts : ¬ (d.name.IsText ∧ ∀ t ∈ d.fromTypes ++ d.toTypes, t.IsText)) :
    collisions stem ds = .error .wrongType := by
  cases hkeys : pairsByKey stem ds with
  | error f =>
    rw [collisions, hkeys, eq_wrongType_of_pairsByKey hkeys]
    rfl
  | ok m =>
    refine absurd ?_ htexts
    have hall : d.allTypes = Value.dedup (d.fromTypes ++ d.toTypes) := by
      rw [Definition.allTypes, List.filter_eq_self.2 htypes]
    have hpairs : ∀ t ∈ d.allTypes, (d.name, t) ∈ pairs ds := fun t ht =>
      List.mem_flatMap.2 ⟨d, List.mem_filter.2 ⟨hd, hvalid⟩, List.mem_map_of_mem ht⟩
    simp only [Definition.isValid, Bool.and_eq_true, Bool.not_eq_true'] at hvalid
    have htext : ∀ t ∈ Value.dedup (d.fromTypes ++ d.toTypes), d.name.IsText ∧ t.IsText := fun t ht =>
      isText_of_pairsByKey hkeys (hpairs t (hall ▸ ht)) hvalid.1.1 (htypes t (Value.mem_of_mem_dedup ht))
    obtain ⟨t, hmem⟩ := List.exists_mem_of_ne_nil _ (List.isEmpty_eq_false_iff.1 hvalid.1.2)
    obtain ⟨t', ht', -⟩ := Value.exists_mem_dedup (List.mem_append_left d.toTypes hmem)
    exact ⟨(htext t' ht').1, Value.forall_isText_dedup.1 fun t ht => (htext t ht).2⟩

end FieldKey

namespace Catalogue

variable {loaded : List Definition} {ms : Record}

/-- A declaration that stops does so whatever was loaded before. -/
private theorem consider_stops (h : (Parts.of ms).stops = true) (loaded : List Definition) :
    (consider loaded (.plain (.object ms))).result = .error .wrongType := by
  rw [consider]
  simp only [Report.result_bind, Report.result_lift]
  cases hsides : (Parts.of ms).sides.any (fun v => v.candidates.isNone) with
  | true =>
    rw [Parts.coerce_of_side hsides]
    rfl
  | false =>
    rw [Parts.stops, hsides, Bool.false_or, Bool.and_eq_true, Bool.not_eq_true'] at h
    have hvalid := (Parts.isValid_definition (Parts.of ms)).trans h.1
    have hcollisions := FieldKey.collisions_eq_error FieldKey.defaultStem
      (List.mem_append_right loaded (List.mem_singleton.2 rfl)) hvalid (Parts.truthy_of_mem_definition _)
      (Parts.not_texts_definition h.1 h.2)
    rw [Parts.coerce_of_sides hsides, ok_bind, if_pos hvalid, Report.result_bind, Report.result_lift, hcollisions]
    rfl

/-- A declaration that neither stops nor passes is skipped. -/
private theorem consider_skips (hstops : (Parts.of ms).stops = false) (hpasses : (Parts.of ms).passes = false)
    (loaded : List Definition) : (consider loaded (.plain (.object ms))).result = .ok loaded := by
  rw [Parts.stops, hpasses, Bool.not_false, Bool.and_true, Bool.or_eq_false_iff] at hstops
  have hvalid := (Parts.isValid_definition (Parts.of ms)).trans hstops.2
  rw [consider]
  simp only [Report.result_bind, Report.result_lift]
  rw [Parts.coerce_of_sides hstops.1, ok_bind, if_neg (by simp [hvalid])]
  rfl

/-- A declaration that passes is considered, and what is loaded stays in texts. -/
private theorem consider_passes (h : (Parts.of ms).passes = true) (hl : ∀ d ∈ loaded, d.Textual) :
    ∃ ds, (consider loaded (.plain (.object ms))).result = .ok ds ∧ ∀ d ∈ ds, d.Textual := by
  classical
  have htextual := Parts.textual_definition h
  have hcoerce := Parts.coerce_of_sides (Parts.any_isNone_of_complete (Parts.passes_iff.1 h).1)
  refine ⟨_, consider_result hl hcoerce htextual, ?_⟩
  split
  · exact List.forall_mem_append.2 ⟨hl, List.forall_mem_singleton.2 htextual⟩
  · exact hl

/-- A declaration that does not stop leaves definitions in texts. -/
private theorem consider_answers (h : (Parts.of ms).stops = false) (hl : ∀ d ∈ loaded, d.Textual) :
    ∃ ds, (consider loaded (.plain (.object ms))).result = .ok ds ∧ ∀ d ∈ ds, d.Textual := by
  cases hpasses : (Parts.of ms).passes with
  | true => exact consider_passes hpasses hl
  | false => exact ⟨loaded, consider_skips h hpasses loaded, hl⟩

private theorem foldlM_consider_stops {declared : List Record} (hl : ∀ d ∈ loaded, d.Textual)
    (h : ∃ ms ∈ declared, (Parts.of ms).stops = true) :
    ((declared.map fun ms => .plain (.object ms)).foldlM consider loaded).result = .error .wrongType := by
  induction declared generalizing loaded with
  | nil => simp at h
  | cons ms declared ih =>
    rw [List.map_cons, List.foldlM_cons, Report.result_bind]
    cases hstops : (Parts.of ms).stops with
    | true =>
      rw [consider_stops hstops]
      rfl
    | false =>
      obtain ⟨ds, hds, htextual⟩ := consider_answers hstops hl
      have hrest : ∃ ms ∈ declared, (Parts.of ms).stops = true := by
        obtain ⟨ms', hmem, hms'⟩ := h
        rcases List.mem_cons.1 hmem with rfl | hmem
        · rw [hstops] at hms'
          cases hms'
        · exact ⟨ms', hmem, hms'⟩
      rw [hds, ok_bind, ih htextual hrest]

/-- Where nothing stops, the declarations that do not pass make no difference. -/
private theorem foldlM_consider_passing {declared : List Record} (hl : ∀ d ∈ loaded, d.Textual)
    (h : ∀ ms ∈ declared, (Parts.of ms).stops = false) :
    ∃ ds, ((declared.map fun ms => .plain (.object ms)).foldlM consider loaded).result = .ok ds ∧
      (((declared.filter fun ms => (Parts.of ms).passes).map fun ms => .plain (.object ms)).foldlM consider
        loaded).result = .ok ds := by
  induction declared generalizing loaded with
  | nil => exact ⟨loaded, rfl, rfl⟩
  | cons ms declared ih =>
    rw [List.forall_mem_cons] at h
    rw [List.map_cons, List.foldlM_cons, Report.result_bind]
    cases hpasses : (Parts.of ms).passes with
    | true =>
      obtain ⟨ds, hds, htextual⟩ := consider_passes hpasses hl
      rw [hds, ok_bind, List.filter_cons_of_pos (by exact hpasses), List.map_cons, List.foldlM_cons,
        Report.result_bind, hds, ok_bind]
      exact ih htextual h.2
    | false =>
      rw [consider_skips h.1 hpasses, ok_bind, List.filter_cons_of_neg (by simp [hpasses])]
      exact ih hl h.2

/-- What a new catalogue answers to the declarations of a host. -/
def answer (hooks : Hooks) (declared : List Record) : Except Fault (List Definition) :=
  ((definitions hooks (some (declared.map fun ms => .plain (.object ms)))).outcome {}).2

private theorem answer_eq {hooks : Hooks} (hh : hooks.relationships = none) (declared : List Record) :
    answer hooks declared = ((declared.map fun ms => .plain (.object ms)).foldlM consider []).result := by
  rw [← Option.getD_some (a := declared.map fun ms => Declaration.plain (.object ms)) (b := []),
    ← load_result hooks hh]
  rfl

private theorem answer_passing {hooks : Hooks} (hh : hooks.relationships = none) {declared : List Record}
    (h : ∀ ms ∈ declared, (Parts.of ms).stops = false) : ∃ ds, answer hooks declared = .ok ds ∧
      answer hooks (declared.filter fun ms => (Parts.of ms).passes) = .ok ds := by
  rw [answer_eq hh, answer_eq hh]
  exact foldlM_consider_passing (List.forall_mem_nil Definition.Textual) h

/-- A catalogue answers exactly if no declaration stops it, and then what it answers without those that do not pass.
So the malformed ones make no difference if none of them stops it and none of them passes. -/
theorem definitions_skip_malformed {hooks : Hooks} (hh : hooks.relationships = none) (declared : List Record) :
    ((∃ ds, answer hooks declared = .ok ds) ↔ ∀ ms ∈ declared, (Parts.of ms).stops = false) ∧
    ((∃ ms ∈ declared, (Parts.of ms).stops = true) → answer hooks declared = .error .wrongType) ∧
    ((∀ ms ∈ declared, (Parts.of ms).stops = false) →
      answer hooks declared = answer hooks (declared.filter fun ms => (Parts.of ms).passes)) ∧
    ((∀ ms ∈ declared, (Parts.of ms).wellFormed = false →
        (Parts.of ms).stops = false ∧ (Parts.of ms).passes = false) →
      (∃ ds, answer hooks declared = .ok ds) ∧
        answer hooks declared = answer hooks (declared.filter fun ms => (Parts.of ms).wellFormed)) := by
  have hstopped : (∃ ms ∈ declared, (Parts.of ms).stops = true) → answer hooks declared = .error .wrongType := by
    intro h
    rw [answer_eq hh]
    exact foldlM_consider_stops (List.forall_mem_nil Definition.Textual) h
  refine ⟨⟨fun ⟨ds, hds⟩ ms hms => ?_, fun h => ?_⟩, hstopped, fun h => ?_, fun h => ?_⟩
  · rw [← Bool.not_eq_true]
    intro hstops
    rw [hstopped ⟨ms, hms, hstops⟩] at hds
    cases hds
  · obtain ⟨ds, hds, -⟩ := answer_passing hh h
    exact ⟨ds, hds⟩
  · obtain ⟨ds, hds, hpassing⟩ := answer_passing hh h
    rw [hds, hpassing]
  · have hstops : ∀ ms ∈ declared, (Parts.of ms).stops = false := by
      intro ms hms
      cases hwell : (Parts.of ms).wellFormed with
      | true => exact Parts.stops_of_passes (Parts.passes_of_wellFormed hwell)
      | false => exact (h ms hms hwell).1
    have hsame : (declared.filter fun ms => (Parts.of ms).passes) =
        declared.filter fun ms => (Parts.of ms).wellFormed := by
      refine List.filter_congr fun ms hms => ?_
      cases hwell : (Parts.of ms).wellFormed with
      | true => exact Parts.passes_of_wellFormed hwell
      | false => exact (h ms hms hwell).2
    obtain ⟨ds, hds, hpassing⟩ := answer_passing hh hstops
    rw [hsame] at hpassing
    exact ⟨⟨ds, hds⟩, hds.trans hpassing.symm⟩

/-- Members for a relationship of the given name, with any types. -/
def membersOf (name fromTypes toTypes : Value) : Record := [("name", name), ("from", fromTypes), ("to", toTypes)]

def sponsorMembers : Record := membersOf (.string "sponsors") (.string "event") (.string "company")

private theorem answer_sponsors : answer {} [sponsorMembers] =
    .ok [⟨.string "sponsors", [.string "event"], [.string "company"]⟩] := load_sponsors

/-- Of three relationships, one has no name and another no type on a side. -/
theorem definitions_skip_malformed_sponsors :
    answer {} [membersOf .null (.string "event") (.string "company"), sponsorMembers,
        membersOf (.string "hosts") (.list [.string "", .null]) (.string "event")] =
      .ok [⟨.string "sponsors", [.string "event"], [.string "company"]⟩] := by
  obtain ⟨-, -, -, hskip⟩ := @definitions_skip_malformed {} rfl
    [membersOf .null (.string "event") (.string "company"), sponsorMembers,
      membersOf (.string "hosts") (.list [.string "", .null]) (.string "event")]
  obtain ⟨-, hsame⟩ := hskip (by decide)
  rw [hsame]
  exact answer_sponsors

/-- A number in the place of types is no reason to skip its declaration, but stops the others too. -/
theorem definitions_number_stops :
    answer {} [sponsorMembers, membersOf (.string "u") (.int 5) (.string "b")] = .error .wrongType ∧
      answer {} ([sponsorMembers, membersOf (.string "u") (.int 5) (.string "b")].filter
        fun ms => (Parts.of ms).wellFormed) = .ok [⟨.string "sponsors", [.string "event"], [.string "company"]⟩] := by
  refine ⟨?_, answer_sponsors⟩
  rw [answer_eq rfl]
  exact foldlM_consider_stops (List.forall_mem_nil _) ⟨_, List.mem_cons_of_mem _ (List.mem_singleton.2 rfl), rfl⟩

end Catalogue

end EdgeFields
