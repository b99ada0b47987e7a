import EdgeFields.Gateway
import EdgeFields.Proofs.ActiveFilters
import EdgeFields.Proofs.FilteredSearch

/-!
# Searches that cannot be filtered

A request may hold any texts.  A search is filtered whatever they are, except where one of them is a decimal with more
digits than are read as an integer: then there is no search at all (`Gateway.filterSearch_answers_iff`).
-/

namespace EdgeFields

namespace Filter

/-! ### Faults of clauses -/

/-- The only texts that cannot be compared are decimals with too many digits. -/
private theorem eq_tooLong_of_entityNumber? {s : String} {f : Fault} (h : entityNumber? s = .error f) :
    ∃ n, Text.digitLimit < n ∧ f = .tooLongInteger n := by
  unfold entityNumber? at h
  cases hdecimal : isDecimal (Text.trimChars s.toList) with
  | false => simp [hdecimal] at h
  | true =>
    have hdigits := hdecimal
    simp only [isDecimal, Bool.and_eq_true, Bool.not_eq_true', List.isEmpty_eq_false_iff, List.all_eq_true] at hdigits
    simp only [hdecimal, Bool.not_true, Bool.false_eq_true, if_false, Text.readInteger_eq hdigits.1 hdigits.2] at h
    by_cases hlong : Text.digitLimit < (Text.splitSign (Text.trimChars s.toList)).2.length
    · rw [if_pos hlong] at h
      exact ⟨_, hlong, (Except.error.inj h).symm⟩
    · rw [if_neg hlong] at h
      simp [Except.mapError] at h

private theorem eq_tooLong_of_clauseOf? {e : Key × Value} {ts : List String} (hts : textsOf e.2 = .ok ts) {f : Fault}
    (h : clauseOf? e = .error f) : ∃ n, Text.digitLimit < n ∧ f = .tooLongInteger n := by
  rw [clauseOf?, hts, ok_bind, clauseFor?] at h
  split at h
  · cases h
  · rw [Value.elements, ok_bind] at h
    cases hclauses : (ts.map Value.string).mapM (valueClauses e.1.toValue) with
    | ok cs => simp [hclauses] at h
    | error f' =>
      rw [hclauses] at h
      obtain rfl : f' = f := Except.error.inj h
      obtain ⟨v, hv, hfault⟩ := exists_of_mapM_eq_error hclauses
      obtain ⟨t, -, rfl⟩ := List.mem_map.1 hv
      rw [valueClauses, textOf, ok_bind] at hfault
      cases hnumber : entityNumber? t with
      | error f'' =>
        rw [hnumber] at hfault
        obtain rfl : f'' = f' := Except.error.inj hfault
        exact eq_tooLong_of_entityNumber? hnumber
      | ok n =>
        rw [hnumber, ok_bind] at hfault
        cases n <;> cases hfault

private theorem eq_tooLong_of_clausesOf {active : Record} (htexts : ∀ e ∈ active, ∃ ts, textsOf e.2 = .ok ts)
    {f : Fault} (h : clausesOf active = .error f) : ∃ n, Text.digitLimit < n ∧ f = .tooLongInteger n := by
  induction active with
  | nil => cases h
  | cons e active ih =>
    rw [List.forall_mem_cons] at htexts
    rw [clausesOf_cons] at h
    cases hclause : clauseOf? e with
    | error f' =>
      rw [hclause] at h
      obtain rfl : f' = f := Except.error.inj h
      obtain ⟨ts, hts⟩ := htexts.1
      exact eq_tooLong_of_clauseOf? hts hclause
    | ok c =>
      rw [hclause, ok_bind] at h
      cases hclauses : clausesOf active with
      | error f' =>
        rw [hclauses] at h
        obtain rfl : f' = f := Except.error.inj h
        exact ih htexts.2 hclauses
      | ok cs =>
        rw [hclauses] at h
        cases h

/-- Without a host, a search with filters of texts is compiled unless a decimal has too many digits. -/
private theorem eq_tooLong_of_compile {hooks : Hooks} (hhooks : hooks.filterQueries = none) {active : Record}
    (htexts : ∀ e ∈ active, ∃ ts, textsOf e.2 = .ok ts) {base : Value} (hbase : SearchBody base) {f : Fault}
    (h : compile hooks active base = .error f) : ∃ n, Text.digitLimit < n ∧ f = .tooLongInteger n := by
  cases hclauses : clauses hooks active with
  | error f' =>
    rw [compile, hclauses] at h
    rw [clauses_eq_clausesOf hhooks] at hclauses
    obtain rfl : f' = f := Except.error.inj h
    exact eq_tooLong_of_clausesOf htexts hclauses
  | ok cs =>
    cases cs with
    | nil =>
      rw [compile, hclauses] at h
      cases h
    | cons c cs =>
      obtain ⟨body, hbody, -⟩ := compile_eq_ok hclauses (List.cons_ne_nil _ _) hbase
      rw [hbody] at h
      cases h

/-- Too many digits alone are not legible. -/
private theorem not_legible_of_isDigit {s : String} (h : ∀ c ∈ s.toList, c.isDigit = true)
    (hlong : Text.digitLimit < s.toList.length) : ¬ Legible s := by
  have htrim : Text.trimChars s.toList = s.toList :=
    Text.trimWith_eq_self fun c hc => Text.isBlank_of_isDigit (h c hc)
  have hdecimal : isDecimal s.toList = true := by
    rw [isDecimal, Text.splitSign_of_isDigit h, Bool.and_eq_true, Bool.not_eq_true', List.isEmpty_eq_false_iff,
      List.all_eq_true]
    exact ⟨List.ne_nil_of_length_pos (Nat.zero_lt_of_lt hlong), h⟩
  intro hlegible
  rw [Legible, htrim, Text.splitSign_of_isDigit h] at hlegible
  exact Nat.not_le_of_lt hlong (hlegible hdecimal)

/-! ### Texts of requests -/

private theorem trim_of_mem_askedTexts {v : Value} {t : String} (h : t ∈ askedTexts v) : Text.trim t = t := by
  obtain ⟨-, s, -, rfl⟩ := mem_askedTexts.1 h
  exact Text.trim_clean s

/-- The texts that a request asks for stand for themselves. -/
theorem textsOf_askedTexts (v : Value) : textsOf (.list ((askedTexts v).map .string)) = .ok (askedTexts v) := by
  have htrim : (askedTexts v).map Text.trim = askedTexts v :=
    (List.map_congr_left fun _ h => trim_of_mem_askedTexts h).trans (List.map_id' _)
  have hpresent : (askedTexts v).filter (· ≠ "") = askedTexts v :=
    List.filter_eq_self.2 fun t ht => by simpa using (mem_askedTexts.1 ht).1
  rw [textsOf_list, htrim, presentTexts, hpresent, foldl_addNew_of_nodup (nodup_askedTexts v)]

private theorem textsOf_of_mem_chosen {params : Record} {m : List (String × List String)} {e : Key × Value}
    (h : e ∈ asRecord (chosen params m)) : ∃ k name, (k, asked params name) ∈ chosen params m ∧
      e = (.string k, .list ((asked params name).map .string)) ∧ textsOf e.2 = .ok (asked params name) := by
  obtain ⟨⟨k, ts⟩, hmem, rfl⟩ := List.mem_map.1 h
  obtain ⟨e, he, hk⟩ := List.mem_flatMap.1 hmem
  have hts : ts = asked params e.1 := by
    unfold chosenUnder at hk
    split at hk
    · cases hk
    · obtain ⟨k', -, heq⟩ := List.mem_map.1 hk
      exact (Prod.mk.inj heq).2.symm
  subst hts
  exact ⟨k, e.1, hmem, rfl, textsOf_askedTexts _⟩

/-- The filters of a request can be read exactly if all texts that it asks for are legible. -/
private theorem readable_chosen_iff {ds : List Definition} (hds : Loaded ds) {type : Value} (ht : type.IsText)
    (stem : String) {params : Record} :
    (∀ f ∈ asRecord (chosen params (grouped stem (Catalogue.relatedPairs ds type))), Readable f.2) ↔
      ∀ r ∈ Catalogue.relatedPairs ds type, ∀ t ∈ asked params r.2.toText, Legible t := by
  constructor
  · intro h r hr t htext
    have hmem := (mem_chosen hds ht stem).2 ⟨r, hr, rfl, rfl, List.ne_nil_of_mem htext⟩
    obtain ⟨ts, hts, hlegible⟩ := h _ (List.mem_map.2 ⟨_, hmem, rfl⟩)
    obtain rfl := Except.ok.inj ((textsOf_askedTexts _).symm.trans hts)
    exact hlegible t htext
  · intro h f hf
    obtain ⟨k, name, hmem, -, hts⟩ := textsOf_of_mem_chosen hf
    obtain ⟨r, hr, -, hasked, -⟩ := (mem_chosen hds ht stem).1 hmem
    exact ⟨_, hts, hasked ▸ h r hr⟩

end Filter

namespace Gateway

variable {σ : Type} {ds : List Definition} {type : Value} {params : Record}

/-- Without a host, a filtered search is compiled from the fields that the request asks for. -/
theorem outcome_filterSearch (settings : Settings) {h : Host} (hl : (Catalogue.load {} h.source).result = .ok ds)
    (hds : Loaded ds) (ht : type.IsText) (hp : ∀ e ∈ params, Filter.IsRequested e.2) (body page : Value)
    {s : GatewayState σ} (hs : s.engine.catalogue.Holds ds) :
    ∃ s', (filterSearch { settings } h body type (.object params) page).outcome s =
        (s', Filter.compile {} (Filter.asRecord (Filter.chosen params (Filter.grouped settings.fieldStem.toText
          (Catalogue.relatedPairs ds type)))) body) ∧ s'.engine.catalogue.Holds ds := by
  obtain ⟨c, hresolve, hc⟩ :=
    Filter.Resolver.outcome_resolve hds ht hp settings.fieldStem.toText hl hs page
  refine ⟨{ s with engine := { s.engine with catalogue := c } }, ?_, hc⟩
  rw [filterSearch, Session.outcome_bind, activeFilters, onCatalogue, onEngine, Session.outcome_on, Engine.lookUp,
    Session.outcome_on]
  dsimp only
  rw [resolver, stem, hresolve]
  rfl

/-- Filtering a search, for any request of texts, either answers or stops at a decimal with more digits than are
read as an integer.  It answers exactly if none of the texts that the request asks for under a related type is such
a decimal. -/
theorem filterSearch_answers_iff (settings : Settings) {h : Host} (hd : ∀ d ∈ h.source.getD [], d.Textual)
    (ht : type.IsText) (hp : ∀ e ∈ params, Filter.IsRequested e.2) {body : Value} (hb : Filter.SearchBody body)
    (page : Value) :
    ∃ ds, (Catalogue.load {} h.source).result = .ok ds ∧
      ∀ s : GatewayState σ, s.engine.catalogue.Holds ds →
        ∃ s' answer, (filterSearch { settings } h body type (.object params) page).outcome s = (s', answer) ∧
          ((∃ found, answer = .ok found) ↔
            ∀ r ∈ Catalogue.relatedPairs ds type, ∀ t ∈ Filter.asked params r.2.toText, Filter.Legible t) ∧
          ∀ f, answer = .error f → ∃ n, Text.digitLimit < n ∧ f = .tooLongInteger n := by
  obtain ⟨ds, hl, hds⟩ := @Catalogue.load_loaded {} rfl h.source hd
  refine ⟨ds, hl, fun s hs => ?_⟩
  obtain ⟨s', houtcome, -⟩ := outcome_filterSearch settings hl hds ht hp body page hs
  refine ⟨s', _, houtcome, ?_, fun f hf => ?_⟩
  · rw [← Filter.readable_chosen_iff hds ht]
    exact Filter.compile_eq_ok_iff rfl hb
  · refine Filter.eq_tooLong_of_compile rfl (fun e he => ?_) hb hf
    obtain ⟨k, name, -, -, hts⟩ := Filter.textsOf_of_mem_chosen he
    exact ⟨_, hts⟩

/-- Events and their sponsors, with no entities yet. -/
def sponsorsHost : Host where
  source := some [.between "sponsors" "event" "company"]
  store := ({} : Graph).store

/-- A request for sponsors by one value. -/
def onCompany (v : Value) : Record := [(.string "company", v)]

private theorem asked_onCompany (v : Value) (name : String) :
    Filter.asked (onCompany v) name = if name = "company" then Filter.askedTexts v else [] := by
  rw [Filter.asked, onCompany, List.lookup_cons, Key.beq_string]
  by_cases h : name = "company"
  · simp [h]
  · rw [beq_eq_false_iff_ne.2 h, if_neg h]
    rfl

theorem filterSearch_answers_iff_number :
    (∀ d ∈ sponsorsHost.source.getD [], d.Textual) ∧ (Value.string "event").IsText ∧
      (∀ e ∈ onCompany (.list [.string "42"]), Filter.IsRequested e.2) ∧ Filter.SearchBody Filter.titled ∧
      ∃ s' found, (filterSearch {} sponsorsHost Filter.titled (.string "event")
        (.object (onCompany (.list [.string "42"]))) .null).outcome ({ index := () } : GatewayState Unit) =
          (s', .ok found) := by
  have hd : ∀ d ∈ sponsorsHost.source.getD [], d.Textual := by
    simpa [sponsorsHost] using Declaration.textual_between _ _ _
  have hp : ∀ e ∈ onCompany (.list [.string "42"]), Filter.IsRequested e.2 := by
    simp [onCompany, Filter.IsRequested, Value.isText_string]
  obtain ⟨ds, -, hstates⟩ := @filterSearch_answers_iff Unit _ _ {} sponsorsHost hd (Value.isText_string "event") hp _
    Filter.searchBody_titled .null
  obtain ⟨s', answer, houtcome, hiff, -⟩ := hstates { index := () } (.inl rfl)
  obtain ⟨found, rfl⟩ := hiff.2 fun r _ t ht => by
    -- The only text that is asked for is short.
    rw [asked_onCompany] at ht
    split at ht
    · obtain ⟨-, s, hs, rfl⟩ := Filter.mem_askedTexts.1 ht
      obtain rfl := List.mem_singleton.1 hs
      exact Filter.legible_of_length_le (Text.clean_toString 42 ▸ by decide)
    · cases ht
  exact ⟨hd, Value.isText_string _, hp, Filter.searchBody_titled, s', found, houtcome⟩

/-- A decimal of one digit more than are read as an integer. -/
def nines : String := String.ofList (List.replicate (Text.digitLimit + 1) '9')

private theorem toList_nines : nines.toList = List.replicate (Text.digitLimit + 1) '9' := String.toList_ofList

private theorem eq_nine_of_mem {c : Char} (h : c ∈ nines.toList) : c = '9' :=
  List.eq_of_mem_replicate (toList_nines ▸ h)

private theorem askedTexts_nines : Filter.askedTexts (.string nines) = [nines] := by
  have hclean : Text.clean nines = nines :=
    Text.clean_eq_self (fun h => absurd (eq_nine_of_mem h) (by decide))
      (fun c hc => eq_nine_of_mem hc ▸ by decide) fun c hc => eq_nine_of_mem hc ▸ by decide
  have hne : nines ≠ "" := by
    intro h
    have hlist := toList_nines
    rw [h, List.replicate_succ] at hlist
    exact List.cons_ne_nil _ _ hlist.symm
  rw [Filter.askedTexts, Filter.requestedTexts, List.map_singleton, hclean]
  simp [Filter.presentTexts, hne]

private theorem not_legible_nines : ¬ Filter.Legible nines := by
  refine Filter.not_legible_of_isDigit (fun c hc => eq_nine_of_mem hc ▸ by decide) ?_
  rw [toList_nines, List.length_replicate]
  exact Nat.lt_succ_self _

/-- A request for the sponsor of such a number stops the search. -/
theorem filterSearch_stops :
    ∃ s' n, (filterSearch {} sponsorsHost .null (.string "event") (.object (onCompany (.string nines))) .null).outcome
      ({ index := () } : GatewayState Unit) = (s', .error (.tooLongInteger n)) := by
  have hevent := Value.isText_string "event"
  obtain ⟨ds, hl, hds⟩ := @Catalogue.load_loaded {} rfl sponsorsHost.source
    (by simpa [sponsorsHost] using Declaration.textual_between _ _ _)
  obtain rfl := Except.ok.inj (Catalogue.load_sponsors.symm.trans hl)
  have hp : ∀ e ∈ onCompany (.string nines), Filter.IsRequested e.2 := List.forall_mem_singleton.2 trivial
  obtain ⟨s', houtcome, -⟩ := outcome_filterSearch {} hl hds hevent hp .null .null
    (.inl rfl : ({ index := () } : GatewayState Unit).engine.catalogue.Holds _)
  generalize hactive : Filter.asRecord _ = active at houtcome
  have hpairs := @Catalogue.relatedPairs_single "sponsors" "event" "company" (by simp)
  have hunreadable : ¬ ∃ found, Filter.compile {} active .null = .ok found := by
    rw [Filter.compile_eq_ok_iff rfl .absent, ← hactive, Filter.readable_chosen_iff hds hevent]
    intro h
    refine not_legible_nines (h _ (hpairs ▸ List.mem_singleton_self _) nines ?_)
    rw [asked_onCompany, Value.toText_string, if_pos rfl, askedTexts_nines]
    exact List.mem_singleton_self _
  cases hcompile : Filter.compile {} active .null with
  | ok found => exact absurd ⟨found, hcompile⟩ hunreadable
  | error f =>
    obtain ⟨n, -, rfl⟩ := Filter.eq_tooLong_of_compile rfl (fun e he => by
      obtain ⟨k, name, -, -, hts⟩ := Filter.textsOf_of_mem_chosen (hactive ▸ he)
      exact ⟨_, hts⟩) .absent hcompile
    exact ⟨s', n, hcompile ▸ houtcome⟩

end Gateway

end EdgeFields
