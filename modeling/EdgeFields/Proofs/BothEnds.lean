import EdgeFields.Proofs.Snapshots

/-!
# Both ends of a relationship

A type finds under a name the types that definitions of that name join it to, and a definition joins two types in both
directions, whether they stand on one side, on the other or on both.  What a catalogue answers about one end of a
relationship therefore agrees with what it answers about the other one, whatever it was asked before
(`Catalogue.related_both_ends`).
-/

namespace EdgeFields.Catalogue

variable {hooks : Hooks} {source : Source} {ds : List Definition} {c : Catalogue}

/-- A catalogue that has loaded nothing, or these definitions, finds in them what a type is related to. -/
private theorem outcome_related_string (hl : (load hooks source).result = .ok ds) (hds : Loaded ds)
    (hc : c.Empty ∨ c.Primed ds) (type : String) :
    ∃ c', (related hooks source (.string type)).outcome c = (c', .ok (relatedTypes ds (.string type))) ∧
      c'.Primed ds := by
  obtain ⟨c', hask, hc'⟩ : ∃ c', ((Question.related type).ask hooks source).outcome c =
      (c', .ok ((Question.related type).answer ds)) ∧ c'.Primed ds := by
    rcases hc with hc | hc
    · obtain ⟨c', hask, hc', -⟩ := hc.outcome_ask hl hds.textual (.related type)
      exact ⟨c', hask, hc'⟩
    · obtain ⟨c', hask, hc', -⟩ := hc.outcome_ask hds.textual (.related type)
      exact ⟨c', hask, hc'⟩
  obtain ⟨c₁, found, hfound, hanswer⟩ := Session.exists_of_outcome_bind hask
  cases hanswer
  exact ⟨c₁, hfound, hc'⟩

/-- Asked about several types in turn, a catalogue answers about each as if it were the only one. -/
private theorem outcome_mapM_related (hl : (load hooks source).result = .ok ds) (hds : Loaded ds)
    (hc : c.Empty ∨ c.Primed ds) (types : List String) :
    ((types.mapM fun type => related hooks source (.string type)).outcome c).2 =
      .ok (types.map fun type => relatedTypes ds (.string type)) := by
  induction types generalizing c with
  | nil => rfl
  | cons type types ih =>
    obtain ⟨c', hrelated, hc'⟩ := outcome_related_string hl hds hc type
    have hrest := ih (.inr hc')
    rw [List.mapM_cons, Session.outcome_bind, hrelated, Session.continueWith_ok, Session.outcome_bind]
    rcases hmapM : (types.mapM fun type => related hooks source (.string type)).outcome c' with ⟨c'', answers⟩
    obtain rfl : answers = .ok (types.map fun type => relatedTypes ds (.string type)) := by
      rw [hmapM] at hrest
      exact hrest
    rfl

/-- A catalogue whose host declares relationships in texts finds the same for a type whenever it is asked: under
every name the types that a loaded definition of that name joins it to, each of them once.  One type finds another
exactly if the other one finds it. -/
theorem related_both_ends (hh : hooks.relationships = none) (hd : ∀ d ∈ source.getD [], d.Textual) :
    ∃ (ds : List Definition) (found : String → List (Value × List Value)),
      (load hooks source).result = .ok ds ∧
      (∀ types : List String, ((types.mapM fun type => related hooks source (.string type)).outcome {}).2 =
        .ok (types.map found)) ∧
      (∀ name s t : String, .string t ∈ ((found s).lookup (.string name)).getD [] ↔
        .string s ∈ ((found t).lookup (.string name)).getD []) ∧
      (∀ name s t : String, .string t ∈ ((found s).lookup (.string name)).getD [] ↔
        Joins ds (.string name) (.string s) (.string t)) ∧
      ∀ s, ∀ e ∈ found s, e.2.Nodup := by
  obtain ⟨ds, hl, hds⟩ := load_loaded hh hd
  have hjoins : ∀ name s t : String,
      .string t ∈ ((relatedTypes ds (.string s)).lookup (.string name)).getD [] ↔
        Joins ds (.string name) (.string s) (.string t) := fun name s t =>
    mem_lookup_relatedTypes hds.textual (Value.isText_string s) (Value.isText_string name)
  refine ⟨ds, fun type => relatedTypes ds (.string type), hl, fun types => ?_, fun name s t => ?_, hjoins,
    fun s e he => ?_⟩
  · exact outcome_mapM_related hl hds (.inl ⟨rfl, rfl⟩) types
  · rw [hjoins, hjoins]
    exact ⟨Joins.symm, Joins.symm⟩
  · exact nodup_of_mem_relatedTypes hds.textual (Value.isText_string s) he

/-- A relationship of persons with persons and companies. -/
def knows : Declaration :=
  .plain (.object [("name", .string "knows"), ("from", .string "person"),
    ("to", .list [.string "person", .string "company"])])

private theorem textual_knows : knows.Textual := by
  refine ⟨⟨"knows", rfl⟩, trivial, ?_⟩
  simp [Definition.firstMember, List.lookup_cons, Value.NamesTypes, Value.isText_string]

private theorem load_knows : (load {} (some [knows])).result =
    .ok [⟨.string "knows", [.string "person"], [.string "person", .string "company"]⟩] := by
  have hcoerce : Definition.coerce knows =
      .ok ⟨.string "knows", [.string "person"], [.string "person", .string "company"]⟩ := by
    simp [knows, Definition.coerce, Definition.firstMember, Definition.ofParts, Definition.typesOf, List.lookup_cons,
      List.filter_cons, Value.truthy, Value.elements, Value.dedup, Value.union]
  obtain ⟨d, hd, htextual⟩ := Definition.coerce_textual textual_knows
  obtain rfl := Except.ok.inj (hcoerce.symm.trans hd)
  have hperson : FieldKey.identifierOf "person" = "person" := FieldKey.identifierOf_eq_self (by decide)
  have hcompany : FieldKey.identifierOf "company" = "company" := FieldKey.identifierOf_eq_self (by decide)
  refine load_one {} rfl hcoerce htextual rfl ?_
  rintro ⟨n, t⟩ hr ⟨n', t'⟩ hr' hb
  rw [FieldKey.mem_pairs (by simpa using htextual)] at hr hr'
  simp only [exists_eq_left, List.mem_cons, List.not_mem_nil, or_false] at hr hr'
  obtain ⟨-, rfl, hside⟩ := hr
  obtain ⟨-, rfl, hside'⟩ := hr'
  rcases hside with rfl | rfl | rfl <;> rcases hside' with rfl | rfl | rfl <;>
    simp [FieldKey.body, FieldKey.textPart, hperson, hcompany] at hb ⊢

/-- A person knows companies, so that a company is known by persons. -/
theorem related_both_ends_knows :
    knows.Textual ∧ ∃ person company,
      ((["person", "company", "person"].mapM fun type => related {} (some [knows]) (.string type)).outcome {}).2 =
        .ok [person, company, person] ∧
      .string "company" ∈ (person.lookup (.string "knows")).getD [] ∧
      .string "person" ∈ (company.lookup (.string "knows")).getD [] := by
  obtain ⟨ds, found, hl, hfound, hends, hjoins, -⟩ :=
    @related_both_ends {} (some [knows]) rfl (by simpa using textual_knows)
  obtain rfl := Except.ok.inj (load_knows.symm.trans hl)
  have hcompany : .string "company" ∈ ((found "person").lookup (.string "knows")).getD [] :=
    (hjoins "knows" "person" "company").2 ⟨_, List.mem_singleton_self _, rfl, .inl (by simp)⟩
  exact ⟨textual_knows, found "person", found "company", hfound ["person", "company", "person"], hcompany,
    (hends "knows" "person" "company").1 hcompany⟩

end EdgeFields.Catalogue
