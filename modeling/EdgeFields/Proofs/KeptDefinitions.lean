import EdgeFields.Proofs.WrittenFields

/-!
# What loading keeps

Loading goes through the declarations once and keeps a definition if no two pairs share a field key with it.  That
decision looks only at the definitions kept before, but it stays right for all that are kept in the end
(`Catalogue.Chosen`): the definitions that were left out are those that cannot be added.  So as many definitions are
kept as possible, with every stem, and loading them once more changes nothing (`load_keeps_addable`).
-/

namespace EdgeFields

namespace FieldKey

private theorem pairs_subset {ds ds' : List Definition} (h : ds ⊆ ds') : pairs ds ⊆ pairs ds' := by
  intro r hr
  obtain ⟨d, hd, ht⟩ := List.mem_flatMap.1 hr
  exact List.mem_flatMap.2 ⟨d, List.filter_subset _ h hd, ht⟩

private theorem Apart.subset {rs rs' : List Related} (h : Apart rs') (hsub : rs ⊆ rs') : Apart rs := by
  intro r hr r' hr' hb
  exact h r (hsub hr) r' (hsub hr') hb

/-- Whether a definition can be added without two pairs sharing a key. -/
def Addable (ds : List Definition) (d : Definition) : Prop := Apart (pairs (ds ++ [d]))

variable {ds ds' : List Definition} {d : Definition}

theorem Addable.of_mem (h : Apart (pairs ds)) (hd : d ∈ ds) : Addable ds d :=
  h.subset (pairs_subset (List.append_subset_of_subset_of_subset (List.Subset.refl ds) (by simpa using hd)))

private theorem Addable.of_subset (h : Addable ds' d) (hsub : ds ⊆ ds') : Addable ds d := by
  apply Apart.subset h
  apply pairs_subset
  intro x hx
  rcases List.mem_append.1 hx with hx | hx
  · exact List.mem_append_left _ (hsub hx)
  · exact List.mem_append_right _ hx

/-- Looking for collisions finds some exactly when the definition cannot be added, whatever the stem is. -/
private theorem not_addable_iff (stem : String) (hds : ∀ d ∈ ds, d.Textual) (hd : d.Textual) :
    ¬ Addable ds d ↔ ∃ shared, collisions stem (ds ++ [d]) = .ok shared ∧ shared ≠ [] := by
  have htextual : ∀ x ∈ ds ++ [d], x.Textual := by
    intro x hx
    rcases List.mem_append.1 hx with hx | hx
    · exact hds x hx
    · rw [List.mem_singleton.1 hx]
      exact hd
  obtain ⟨shared, hshared, hiff⟩ := collisions_isEmpty_iff stem htextual
  rw [Addable, ← hiff, List.isEmpty_iff]
  constructor
  · intro hne
    exact ⟨shared, hshared, hne⟩
  · rintro ⟨shared', hshared', hne⟩
    rw [hshared] at hshared'
    rw [Except.ok.inj hshared']
    exact hne

private theorem collisions_eq_nil (stem : String) (hds : Loaded ds) : collisions stem ds = .ok [] := by
  obtain ⟨shared, hshared, hiff⟩ := collisions_isEmpty_iff stem hds.textual
  rw [hshared, List.isEmpty_iff.1 (hiff.2 hds.apart)]

end FieldKey

namespace Catalogue

open FieldKey (Addable)

/-- Whether `kept` are those of the definitions `ds` that can be added to `kept`. -/
def Chosen (ds kept : List Definition) : Prop :=
  ∃ keep : Definition → Bool, kept = ds.filter keep ∧ ∀ d ∈ ds, keep d = true ↔ Addable kept d

private theorem chosen_nil : Chosen [] [] := ⟨fun _ => true, rfl, by simp⟩

variable {ds kept loaded : List Definition} {d : Definition}

private theorem Chosen.mem_iff (h : Chosen ds kept) (hd : d ∈ ds) : d ∈ kept ↔ Addable kept d := by
  obtain ⟨keep, hkept, hkeep⟩ := h
  rw [← hkeep d hd]
  constructor
  · intro hmem
    rw [hkept] at hmem
    exact (List.mem_filter.1 hmem).2
  · intro hk
    rw [hkept]
    exact List.mem_filter.2 ⟨hd, hk⟩

/-- A definition that cannot be added is left out, and the choice stays as it is. -/
private theorem Chosen.skip (h : Chosen ds kept) (hd : ¬ Addable kept d) : Chosen (ds ++ [d]) kept := by
  classical
  obtain ⟨keep, hkept, hkeep⟩ := h
  refine ⟨fun x => decide (Addable kept x), ?_, fun x _ => decide_eq_true_iff⟩
  have hsame : ds.filter (fun x => decide (Addable kept x)) = ds.filter keep := by
    apply List.filter_congr
    intro x hx
    rw [Bool.eq_iff_iff, decide_eq_true_iff, hkeep x hx]
  rw [List.filter_append, hsame, ← hkept]
  simp [hd]

/-- Once a definition is added, no other one that was kept has to go, and none that was left out can come back. -/
private theorem Chosen.take (h : Chosen ds kept) (hd : Addable kept d) : Chosen (ds ++ [d]) (kept ++ [d]) := by
  classical
  refine ⟨fun x => decide (Addable (kept ++ [d]) x), ?_, fun x _ => decide_eq_true_iff⟩
  have hown : Addable (kept ++ [d]) d := Addable.of_mem hd (by simp)
  have hold : ∀ x ∈ ds, Addable (kept ++ [d]) x ↔ Addable kept x := by
    intro x hx
    constructor
    · intro ha
      exact ha.of_subset (List.subset_append_left _ _)
    · intro ha
      have hmem : x ∈ kept := (h.mem_iff hx).2 ha
      exact Addable.of_mem hd (List.mem_append_left _ hmem)
  obtain ⟨keep, hkept, hkeep⟩ := h
  have hsame : ds.filter (fun x => decide (Addable (kept ++ [d]) x)) = ds.filter keep := by
    apply List.filter_congr
    intro x hx
    rw [Bool.eq_iff_iff, decide_eq_true_iff, hkeep x hx]
    exact hold x hx
  rw [List.filter_append, hsame, ← hkept]
  simp [hown]

/-- Going through declarations keeps the choice among all valid definitions that were read. -/
private theorem foldlM_consider_chosen (hl : Loaded loaded) (hc : Chosen ds loaded) {declared : List Declaration}
    (hd : ∀ d ∈ declared, d.Textual) :
    ∃ read kept, declared.mapM Definition.coerce = .ok read ∧ (∀ d ∈ read, d.Textual) ∧
      (declared.foldlM consider loaded).result = .ok kept ∧ Loaded kept ∧
      Chosen (ds ++ read.filter Definition.isValid) kept := by
  classical
  induction declared generalizing ds loaded with
  | nil => exact ⟨[], loaded, rfl, by simp, rfl, hl, by simpa using hc⟩
  | cons declaration declared ih =>
    have htextual := hd declaration (List.mem_cons_self ..)
    obtain ⟨d, hcoerce, hdt⟩ := Definition.coerce_textual htextual
    obtain ⟨loaded', hconsider, hl'⟩ := consider_loaded hl htextual
    have hchoice := consider_result hl.textual hcoerce hdt
    rw [hconsider] at hchoice
    have hc' : Chosen (ds ++ [d].filter Definition.isValid) loaded' := by
      rw [Except.ok.inj hchoice]
      by_cases hv : d.isValid = true
      · have hone : [d].filter Definition.isValid = [d] := by simp [hv]
        rw [hone]
        by_cases ha : Addable loaded d
        · rw [if_pos ⟨hv, ha⟩]
          exact hc.take ha
        · rw [if_neg fun h => ha h.2]
          exact hc.skip ha
      · have hnone : [d].filter Definition.isValid = [] := by simp [hv]
        rw [hnone, List.append_nil, if_neg fun h => hv h.1]
        exact hc
    obtain ⟨read, kept, hread, hrt, hfold, hkept, hchosen⟩ :=
      ih hl' hc' fun x hx => hd x (List.mem_cons_of_mem _ hx)
    refine ⟨d :: read, kept, ?_, ?_, ?_, hkept, ?_⟩
    · rw [List.mapM_cons, hcoerce, hread]
      rfl
    · intro x hx
      rcases List.mem_cons.1 hx with rfl | hx
      · exact hdt
      · exact hrt x hx
    · rw [List.foldlM_cons, Report.result_bind, hconsider, ok_bind, hfold]
    · rw [List.append_assoc, ← List.filter_append] at hchosen
      exact hchosen

theorem load_result (hooks : Hooks) (hh : hooks.relationships = none) (source : Source) :
    (load hooks source).result = ((source.getD []).foldlM consider []).result := by
  rw [load, hh]
  simp only [Hooks.adjust, Report.result_bind, Report.result_lift, ok_bind, Report.result_note, Report.result_pure]
  cases ((source.getD []).foldlM consider []).result <;> rfl

/-- Definitions that were loaded are all kept when they are loaded once more. -/
private theorem load_definitions (hooks : Hooks) (hh : hooks.relationships = none) (hds : Loaded ds) :
    (load hooks (some (ds.map .definition))).result = .ok ds := by
  classical
  have hfold : ∀ rest done, done ++ rest = ds →
      ((rest.map Declaration.definition).foldlM consider done).result = .ok ds := by
    intro rest
    induction rest with
    | nil =>
      intro done hdone
      rw [List.append_nil] at hdone
      rw [hdone]
      rfl
    | cons d rest ih =>
      intro done hdone
      have hsplit : (done ++ [d]) ++ rest = ds := by rw [List.append_assoc, List.singleton_append, hdone]
      have hsub : done ++ [d] ⊆ ds := by
        rw [← hsplit]
        exact List.subset_append_left _ _
      have hd : d ∈ ds := hsub (by simp)
      have hadd : Addable done d := hds.apart.subset (FieldKey.pairs_subset hsub)
      have hcoerce : Definition.coerce (.definition d) = .ok d := rfl
      have htaken := consider_result (fun x hx => hds.textual x (hsub (List.mem_append_left _ hx))) hcoerce
        (hds.textual d hd)
      rw [if_pos ⟨hds.valid d hd, hadd⟩] at htaken
      rw [List.map_cons, List.foldlM_cons, Report.result_bind, htaken, ok_bind]
      exact ih (done ++ [d]) hsplit
  rw [load_result hooks hh]
  exact hfold ds [] (List.nil_append _)

/-- Of two relationships whose names differ in a hyphen only the first one is loaded. -/
private theorem load_speaksAt :
    (load {} (some [.between "speaks-at" "person" "event", .between "speaks_at" "person" "event"])).result =
      .ok [⟨.string "speaks-at", [.string "person"], [.string "event"]⟩] := by
  classical
  have htypes : FieldKey.identifierOf "person" ≠ FieldKey.identifierOf "event" := by
    rw [FieldKey.identifierOf_eq, FieldKey.identifierOf_eq]
    decide
  have hone := load_single {} rfl "speaks-at" "person" "event" (by simp) (by simp) (by simp) htypes
  obtain ⟨ds, hds, hloaded⟩ := @load_loaded {} rfl (some [.between "speaks-at" "person" "event"])
    (by simpa using Declaration.textual_between _ _ _)
  obtain rfl := Except.ok.inj (hone.symm.trans hds)
  have hcoerce : Definition.coerce (.between "speaks_at" "person" "event") =
      .ok ⟨.string "speaks_at", [.string "person"], [.string "event"]⟩ := rfl
  obtain ⟨d, hd, hdt⟩ := Definition.coerce_textual (Declaration.textual_between "speaks_at" "person" "event")
  obtain rfl := Except.ok.inj (hcoerce.symm.trans hd)
  have htwo := consider_result hloaded.textual hcoerce hdt
  rw [if_neg ?_] at htwo
  · rw [load_result {} rfl] at hone ⊢
    simp only [Option.getD_some, List.foldlM_cons, List.foldlM_nil, bind_pure, Report.result_bind] at hone ⊢
    rw [hone, ok_bind, htwo]
  · rintro ⟨-, hapart⟩
    have hnames : FieldKey.identifierOf "speaks-at" = FieldKey.identifierOf "speaks_at" := by
      rw [FieldKey.identifierOf_eq, FieldKey.identifierOf_eq]
      decide
    have hsame : FieldKey.body (.string "speaks-at", .string "person") =
        FieldKey.body (.string "speaks_at", .string "person") := by
      simp only [FieldKey.body, FieldKey.textPart, hnames]
    have htexts := List.forall_mem_append.2 ⟨hloaded.textual, List.forall_mem_singleton.2 hdt⟩
    have heq := hapart _ ((FieldKey.mem_pairs htexts).2 ⟨_, List.mem_cons_self .., rfl, rfl, by simp⟩)
      _ ((FieldKey.mem_pairs htexts).2 ⟨_, List.mem_cons_of_mem _ (List.mem_cons_self ..), rfl, rfl, by simp⟩) hsame
    simp at heq

/-- Loading declarations in texts keeps some of the valid definitions that they give, in order.  With every stem,
those that are kept share no field key, can be loaded again and are mapped, and each of those that are left out
would share a field key with them. -/
theorem load_keeps_addable {hooks : Hooks} (hh : hooks.relationships = none) {source : Source}
    (hd : ∀ d ∈ source.getD [], d.Textual) :
    ∃ (read kept : List Definition) (keep : Definition → Bool),
      (source.getD []).mapM Definition.coerce = .ok read ∧ (load hooks source).result = .ok kept ∧
      kept = (read.filter Definition.isValid).filter keep ∧
      (∀ stem, FieldKey.collisions stem kept = .ok []) ∧
      (∀ d ∈ read.filter Definition.isValid, keep d = false →
        ∀ stem, ∃ shared, FieldKey.collisions stem (kept ++ [d]) = .ok shared ∧ shared ≠ []) ∧
      (load hooks (some (kept.map .definition))).result = .ok kept ∧
      ∀ stem, ∃ properties, (Schema.properties { stem } (kept.map .definition)).result = .ok properties := by
  obtain ⟨read, kept, hread, hrt, hfold, hkept, keep, hsplit, hkeep⟩ :=
    foldlM_consider_chosen loaded_nil chosen_nil hd
  rw [List.nil_append] at hsplit hkeep
  refine ⟨read, kept, keep, hread, ?_, hsplit, fun stem => FieldKey.collisions_eq_nil stem hkept, ?_,
    load_definitions hooks hh hkept, fun stem => ?_⟩
  · rw [load_result hooks hh, hfold]
  · intro d hmem hout stem
    have hleft : ¬ Addable kept d := by
      intro ha
      rw [(hkeep d hmem).2 ha] at hout
      contradiction
    exact (FieldKey.not_addable_iff stem hkept.textual (hrt d (List.mem_filter.1 hmem).1)).1 hleft
  · obtain ⟨keys, hproperties, -⟩ := Schema.properties_eq_ok stem hkept
    exact ⟨_, hproperties⟩

theorem load_keeps_addable_speaksAt :
    (∀ d ∈ [Declaration.between "speaks-at" "person" "event", .between "speaks_at" "person" "event"], d.Textual) ∧
      ∃ shared, shared ≠ [] ∧ FieldKey.collisions "nx_"
        [⟨.string "speaks-at", [.string "person"], [.string "event"]⟩,
          ⟨.string "speaks_at", [.string "person"], [.string "event"]⟩] = .ok shared := by
  have htextual : ∀ d ∈ [Declaration.between "speaks-at" "person" "event", .between "speaks_at" "person" "event"],
      d.Textual := by
    simpa using ⟨Declaration.textual_between "speaks-at" "person" "event", Declaration.textual_between _ _ _⟩
  obtain ⟨read, kept, keep, hread, hload, hkept, -, hout, -, -⟩ :=
    @load_keeps_addable {} rfl (some [.between "speaks-at" "person" "event", .between "speaks_at" "person" "event"])
      htextual
  obtain rfl := Except.ok.inj (load_speaksAt.symm.trans hload)
  obtain ⟨d, hd⟩ : ∃ d : Definition, d = ⟨.string "speaks_at", [.string "person"], [.string "event"]⟩ := ⟨_, rfl⟩
  have hmem : d ∈ read.filter Definition.isValid := by
    rw [← Except.ok.inj hread, hd]
    exact List.mem_cons_of_mem _ (List.mem_cons_self ..)
  have hleft : keep d = false := by
    rw [← Bool.not_eq_true]
    intro hk
    have hin := List.mem_filter.2 ⟨hmem, hk⟩
    rw [← hkept, hd] at hin
    simp at hin
  obtain ⟨shared, hshared, hne⟩ := hout d hmem hleft "nx_"
  rw [hd] at hshared
  exact ⟨htextual, shared, hne, hshared⟩

end Catalogue

end EdgeFields
