import EdgeFields.Proofs.Loaded
import Mathlib.Data.List.DropRight

/-!
# Snapshots

A catalogue keeps what it has loaded and what it has found for an entity type, while its host may declare something
else at any time.  Its steps fall into periods that end with a reset.  All questions of a period are answered from
what the host declared when the first of them was asked, as by a catalogue that is asked nothing else, and the host is
asked once in each period with a question (`ask_eq_fresh`).  A catalogue that has loaded is `Primed`; every question
keeps it so.
-/

namespace EdgeFields.Catalogue

/-- A question to a catalogue. -/
inductive Question where
  | definitions
  | get (name : Value)
  | contains (name : Value)
  | related (type : Key)

/-- What a catalogue answers. -/
inductive Answer where
  | definitions (ds : List Definition)
  | get (d : Option Definition)
  | contains (there : Bool)
  | related (found : List (Value × List Value))

/-- Asks a catalogue whose host declares this. -/
def Question.ask (hooks : Hooks) (source : Source) : Question → Session Catalogue Answer
  | definitions => do return .definitions (← Catalogue.definitions hooks source)
  | get name => do return .get (← Catalogue.get hooks source name)
  | contains name => do return .contains (← Catalogue.contains hooks source name)
  | related type => do return .related (← Catalogue.related hooks source type.toValue)

/-- What can happen to a catalogue and its host. -/
inductive Step where
  /-- The host declares this from now on. -/
  | declare (source : Source)
  | ask (q : Question)
  | reset

namespace Step

def isAsk : Step → Bool
  | ask _ => true
  | _ => false

def isReset : Step → Bool
  | reset => true
  | _ => false

/-- What a step does to what the host declares and to the catalogue. -/
def take (hooks : Hooks) (step : Step) (s : Source × Catalogue) : Source × Catalogue :=
  match step with
  | declare source => (source, s.2)
  | ask q => (s.1, ((q.ask hooks s.1).outcome s.2).1)
  | reset => (s.1, (Catalogue.reset.outcome s.2).1)

/-- What the host declares after some steps. -/
def declared (start : Source) (steps : List Step) : Source :=
  steps.foldl (fun source step => match step with | declare source' => source' | _ => source) start

/-- The steps since the last reset. -/
def period (steps : List Step) : List Step :=
  steps.rtakeWhile fun step => !step.isReset

/-- What the host declared at the first question since the last reset, or declares now if there was none. -/
def snapshot (start : Source) (steps : List Step) : Source :=
  declared start (steps.rdropWhile (fun step => !step.isReset) ++ (period steps).takeWhile fun step => !step.isAsk)

/-- The number of periods with a question. -/
def periodsAsked (steps : List Step) : Nat :=
  (steps.splitOnP isReset).countP fun steps => steps.any isAsk

/-- A host that begins with these declarations, and its catalogue, after some steps. -/
def run (hooks : Hooks) (start : Source) (steps : List Step) : Source × Catalogue :=
  steps.foldl (fun s step => step.take hooks s) (start, {})

variable {hooks : Hooks} {start : Source} {steps : List Step} {step : Step}

/-! ### One more step -/

private theorem run_concat : run hooks start (steps ++ [step]) = step.take hooks (run hooks start steps) := by
  rw [run, List.foldl_append]
  rfl

private theorem period_concat (h : step.isReset = false) : period (steps ++ [step]) = period steps ++ [step] :=
  List.rtakeWhile_concat_pos _ _ _ (by rw [h]; rfl)

private theorem takeWhile_eq_self (h : steps.any isAsk = false) :
    steps.takeWhile (fun step => !step.isAsk) = steps := by
  rw [List.takeWhile_eq_self_iff]
  intro x hx
  have hx' := List.any_eq_false.1 h x hx
  simpa using hx'

private theorem takeWhile_append_of_asked (h : steps.any isAsk = true) (more : List Step) :
    (steps ++ more).takeWhile (fun step => !step.isAsk) = steps.takeWhile fun step => !step.isAsk := by
  have hstop : (steps.takeWhile fun step => !step.isAsk).length ≠ steps.length := by
    intro hlen
    have hall := List.takeWhile_eq_self_iff.1 ((List.takeWhile_prefix _).eq_of_length hlen)
    obtain ⟨x, hx, hask⟩ := List.any_eq_true.1 h
    have hx' := hall x hx
    rw [hask] at hx'
    contradiction
  rw [List.takeWhile_append, if_neg hstop]

private theorem snapshot_of_not_asked (h : (period steps).any isAsk = false) :
    snapshot start steps = declared start steps := by
  rw [snapshot, takeWhile_eq_self h, period, List.rdropWhile_append_rtakeWhile]

/-- The snapshot of a period is fixed by its first question. -/
private theorem snapshot_concat (hreset : step.isReset = false)
    (h : (period steps).any isAsk = true ∨ step.isAsk = true) :
    snapshot start (steps ++ [step]) = snapshot start steps := by
  have hbefore : (steps ++ [step]).rdropWhile (fun step => !step.isReset) =
      steps.rdropWhile fun step => !step.isReset := List.rdropWhile_concat_pos _ _ _ (by rw [hreset]; rfl)
  have hfirst : (period steps ++ [step]).takeWhile (fun step => !step.isAsk) =
      (period steps).takeWhile fun step => !step.isAsk := by
    cases hasked : (period steps).any isAsk with
    | true => exact takeWhile_append_of_asked hasked [step]
    | false =>
      have hask : step.isAsk = true := h.resolve_left (by simp [hasked])
      have hall := takeWhile_eq_self hasked
      rw [List.takeWhile_append, if_pos (congrArg List.length hall), hall]
      simp [hask]
  rw [snapshot, hbefore, period_concat hreset, hfirst, snapshot]

/-- A run falls into the periods that have ended and the present one. -/
private theorem exists_splitOnP_eq (steps : List Step) :
    ∃ ended, ∀ more : List Step, (∀ step ∈ more, step.isReset = false) →
      (steps ++ more).splitOnP isReset = ended ++ [period steps ++ more] := by
  induction steps using List.reverseRecOn with
  | nil => exact ⟨[], fun more hmore => List.splitOnP_eq_singleton hmore⟩
  | append_singleton steps step ih =>
    obtain ⟨ended, ih⟩ := ih
    cases hreset : step.isReset with
    | true =>
      have hperiod : period (steps ++ [step]) = [] := List.rtakeWhile_concat_neg _ _ _ (by simp [hreset])
      refine ⟨steps.splitOnP isReset, fun more hmore => ?_⟩
      rw [List.append_assoc, List.singleton_append, List.splitOnP_append_cons _ _ hreset,
        List.splitOnP_eq_singleton hmore, hperiod, List.nil_append]
    | false =>
      refine ⟨ended, fun more hmore => ?_⟩
      have hmore' : ∀ x ∈ step :: more, x.isReset = false := List.forall_mem_cons.2 ⟨hreset, hmore⟩
      rw [List.append_assoc, List.singleton_append, ih _ hmore', period_concat hreset, List.append_assoc,
        List.singleton_append]

/-- A step adds a period with a question when it is the first question of its period. -/
private theorem periodsAsked_concat : periodsAsked (steps ++ [step]) =
    periodsAsked steps + if step.isAsk && !(period steps).any isAsk then 1 else 0 := by
  obtain ⟨ended, hended⟩ := exists_splitOnP_eq steps
  have hnow := hended [] (by simp)
  rw [List.append_nil, List.append_nil] at hnow
  cases hreset : step.isReset with
  | true =>
    have hask : step.isAsk = false := by
      cases step <;> simp_all [isReset, isAsk]
    rw [periodsAsked, List.splitOnP_append_cons _ _ hreset, List.countP_append, periodsAsked, hask]
    simp
  | false =>
    have hnext := hended [step] (by simp [hreset])
    rw [periodsAsked, hnext, periodsAsked, hnow, List.countP_append, List.countP_append, Nat.add_assoc]
    congr 1
    cases hasked : (period steps).any isAsk <;> cases hask : step.isAsk <;> simp [List.any_append, hasked, hask]

end Step

/-! ### What a catalogue has kept -/

private theorem relatedTypes_eq_nil {ds : List Definition} (hds : ∀ d ∈ ds, d.Textual) {type : Value}
    (ht : ¬ type.IsText) : relatedTypes ds type = [] := by
  have hnone : ds.filter (·.involves type) = [] := by
    rw [List.filter_eq_nil_iff]
    intro d hd hinv
    have hside : ∀ ts : List Value, (∀ t ∈ ts, t.IsText) → ts.contains type = false := by
      intro ts hts
      rw [← Bool.not_eq_true]
      intro hcontains
      obtain ⟨t, hmem, hbeq⟩ := List.contains_iff_exists_mem_beq.1 hcontains
      obtain ⟨s, rfl⟩ := hts t hmem
      exact ht ⟨s, Value.beq_string_right.1 hbeq⟩
    rw [Definition.involves, hside _ fun t h => (hds d hd).from_text h,
      hside _ fun t h => (hds d hd).to_text h] at hinv
    contradiction
  rw [relatedTypes, hnone]
  rfl

private theorem eq_string_of_isText {k : Key} (h : k.toValue.IsText) : ∃ s, k = .string s := by
  obtain ⟨s, hs⟩ := h
  have hkey := congrArg Value.key? hs
  rw [Value.key?_toValue] at hkey
  exact ⟨s, Option.some.inj hkey⟩

/-- Equal keys are related to the same types. -/
private theorem relatedTypes_congr {ds : List Definition} (hds : ∀ d ∈ ds, d.Textual) {k l : Key}
    (h : (k == l) = true) : relatedTypes ds k.toValue = relatedTypes ds l.toValue := by
  by_cases hk : k.toValue.IsText
  · obtain ⟨s, rfl⟩ := eq_string_of_isText hk
    rw [Key.beq_string_left.1 h]
  · have hl : ¬ l.toValue.IsText := by
      intro hl
      obtain ⟨s, rfl⟩ := eq_string_of_isText hl
      have hsame := Key.beq_string_left.1 (PartialEquivBEq.symm h)
      exact hk (hsame ▸ hl)
    rw [relatedTypes_eq_nil hds hk, relatedTypes_eq_nil hds hl]

/-- A catalogue that has loaded these definitions, and has found nothing but in them. -/
structure Primed (c : Catalogue) (ds : List Definition) : Prop where
  cached : c.cached = some ds
  byType : ∀ k m, c.byType.lookup k = some m → m = relatedTypes ds k.toValue

/-- A catalogue that has loaded nothing. -/
structure Empty (c : Catalogue) : Prop where
  cached : c.cached = none
  byType : c.byType = []

/-- What a question is answered with from some definitions. -/
def Question.answer (ds : List Definition) : Question → Answer
  | definitions => .definitions ds
  | get name => .get (find? ds name)
  | contains name => .contains (find? ds name).isSome
  | related type => .related (relatedTypes ds type.toValue)

variable {hooks : Hooks} {source : Source} {ds : List Definition} {c : Catalogue}

private theorem Primed.outcome_definitions (h : c.Primed ds) :
    (definitions hooks source).outcome c = (c, .ok ds) := by
  simp [Session.outcome, definitions, h.cached]

private theorem Primed.keepFound (h : c.Primed ds) (hds : ∀ d ∈ ds, d.Textual) (k : Key) :
    Primed { c with byType := Assoc.insert k (relatedTypes ds k.toValue) c.byType } ds := by
  refine ⟨h.cached, fun l m hl => ?_⟩
  cases hkl : l == k with
  | true =>
    rw [Assoc.lookup_eq_of_beq hkl, Assoc.lookup_insert_self] at hl
    rw [← Option.some.inj hl]
    exact (relatedTypes_congr hds hkl).symm
  | false =>
    rw [Assoc.lookup_insert_of_ne hkl] at hl
    exact h.byType l m hl

/-- A catalogue that has loaded answers from what it has, whatever its host declares. -/
theorem Primed.outcome_ask (h : c.Primed ds) (hds : ∀ d ∈ ds, d.Textual) (q : Question) :
    ∃ c', (q.ask hooks source).outcome c = (c', .ok (q.answer ds)) ∧ c'.Primed ds ∧ c'.loads = c.loads := by
  cases q with
  | definitions => exact ⟨c, by simp [Question.ask, Question.answer, h.outcome_definitions], h, rfl⟩
  | get name => exact ⟨c, by simp [Question.ask, Question.answer, Catalogue.get, h.outcome_definitions], h, rfl⟩
  | contains name =>
    exact ⟨c, by simp [Question.ask, Question.answer, Catalogue.contains, Catalogue.get, h.outcome_definitions], h,
      rfl⟩
  | related type =>
    cases hfound : c.byType.lookup type with
    | some m =>
      refine ⟨c, ?_, h, rfl⟩
      simp [Question.ask, Question.answer, Catalogue.related, hfound, h.byType type m hfound]
    | none =>
      refine ⟨_, ?_, h.keepFound hds type, rfl⟩
      simp [Question.ask, Question.answer, Catalogue.related, hfound, h.outcome_definitions]

/-- A catalogue that has loaded nothing asks its host once, for any question. -/
theorem Empty.outcome_ask (h : c.Empty) (hl : (load hooks source).result = .ok ds) (hds : ∀ d ∈ ds, d.Textual)
    (q : Question) :
    ∃ c', (q.ask hooks source).outcome c = (c', .ok (q.answer ds)) ∧ c'.Primed ds ∧ c'.loads = c.loads + 1 := by
  have hload : (definitions hooks source).outcome c =
      ({ c with cached := some ds, loads := c.loads + 1 }, .ok ds) := by
    simp [Session.outcome, definitions, h.cached, hl, Except.toOption]
  generalize hc' : { c with cached := some ds, loads := c.loads + 1 } = c' at hload
  have hprimed : c'.Primed ds := by
    rw [← hc']
    exact ⟨rfl, by simp [h.byType]⟩
  have hbyType : c'.byType = c.byType := by rw [← hc']
  -- From here on every question goes as if the definitions had been there before.
  have hsame : (q.ask hooks source).outcome c = (q.ask hooks source).outcome c' := by
    cases q with
    | related type =>
      simp [Question.ask, Catalogue.related, hbyType, h.byType, hload, hprimed.outcome_definitions]
    | _ => simp [Question.ask, Catalogue.get, Catalogue.contains, hload, hprimed.outcome_definitions]
  obtain ⟨c'', hask, hprimed', hloads⟩ := hprimed.outcome_ask hds q
  refine ⟨c'', hsame.trans hask, hprimed', ?_⟩
  rw [hloads, ← hc']

/-! ### Runs -/

namespace Step

/-- Whether all that a host declares in a run is declared in texts. -/
def Textual (start : Source) (steps : List Step) : Prop :=
  ∀ source, source = start ∨ .declare source ∈ steps → ∀ d ∈ source.getD [], d.Textual

/-- How a host and its catalogue stand after some steps. -/
structure Inv (hooks : Hooks) (start : Source) (steps : List Step) (s : Source × Catalogue) : Prop where
  source : s.1 = declared start steps
  loads : s.2.loads = periodsAsked steps
  empty : (period steps).any isAsk = false → s.2.Empty
  primed : (period steps).any isAsk = true →
    ∃ ds, (load hooks (snapshot start steps)).result = .ok ds ∧ Loaded ds ∧ s.2.Primed ds

variable {start : Source} {steps : List Step} {step : Step}

private theorem declared_concat : declared start (steps ++ [step]) =
    match step with
    | declare source => source
    | _ => declared start steps := by
  rw [declared, List.foldl_append]
  rfl

private theorem Textual.of_concat (h : Textual start (steps ++ [step])) : Textual start steps := by
  rintro source (hsource | hsource)
  · exact h source (.inl hsource)
  · exact h source (.inr (List.mem_append_left _ hsource))

private theorem Textual.declared (h : Textual start steps) : ∀ d ∈ (declared start steps).getD [], d.Textual := by
  induction steps using List.reverseRecOn with
  | nil => exact h start (.inl rfl)
  | append_singleton steps step ih =>
    rw [declared_concat]
    cases step with
    | declare source => exact h source (.inr (by simp))
    | _ => exact ih h.of_concat

private theorem Inv.init : Inv hooks start [] (run hooks start []) where
  source := rfl
  loads := rfl
  empty _ := ⟨rfl, rfl⟩
  primed h := by
    rw [period, List.rtakeWhile_nil] at h
    contradiction

variable {s : Source × Catalogue}

private theorem Inv.declare (h : Inv hooks start steps s) (source : Source) :
    Inv hooks start (steps ++ [.declare source]) ((Step.declare source).take hooks s) := by
  have hperiod : (period (steps ++ [Step.declare source])).any isAsk = (period steps).any isAsk := by
    rw [period_concat rfl, List.any_append]
    simp [isAsk]
  refine ⟨?_, ?_, ?_, ?_⟩
  · rw [declared_concat]
    rfl
  · rw [periodsAsked_concat]
    exact h.loads
  · rw [hperiod]
    exact h.empty
  · rw [hperiod]
    intro hasked
    rw [snapshot_concat rfl (.inl hasked)]
    exact h.primed hasked

private theorem Inv.reset (h : Inv hooks start steps s) :
    Inv hooks start (steps ++ [.reset]) (Step.reset.take hooks s) where
  source := by
    rw [declared_concat]
    exact h.source
  loads := by
    rw [periodsAsked_concat]
    exact h.loads
  empty _ := ⟨rfl, rfl⟩
  primed hasked := by
    rw [period, List.rtakeWhile_concat_neg _ _ _ (by simp [isReset])] at hasked
    contradiction

/-- A question is answered from the snapshot of its period, and fixes it if it is the first one. -/
private theorem Inv.outcome_ask (hh : hooks.relationships = none) (h : Inv hooks start steps s)
    (ht : Textual start steps) (q : Question) :
    ∃ ds c, (load hooks (snapshot start steps)).result = .ok ds ∧ Loaded ds ∧
      (q.ask hooks s.1).outcome s.2 = (c, .ok (q.answer ds)) ∧ c.Primed ds ∧
      c.loads = periodsAsked (steps ++ [.ask q]) := by
  rw [periodsAsked_concat, ← h.loads]
  cases hasked : (period steps).any isAsk with
  | true =>
    obtain ⟨ds, hload, hds, hprimed⟩ := h.primed hasked
    obtain ⟨c, hask, hprimed', hloads⟩ := @Primed.outcome_ask hooks s.1 _ _ hprimed hds.textual q
    exact ⟨ds, c, hload, hds, hask, hprimed', by simpa using hloads⟩
  | false =>
    obtain ⟨ds, hload, hds⟩ := load_loaded hh ht.declared
    have hhost : (load hooks s.1).result = .ok ds := by rw [h.source, hload]
    obtain ⟨c, hask, hprimed, hloads⟩ := (h.empty hasked).outcome_ask hhost hds.textual q
    rw [snapshot_of_not_asked hasked]
    exact ⟨ds, c, hload, hds, hask, hprimed, by simpa [isAsk] using hloads⟩

private theorem Inv.ask (hh : hooks.relationships = none) (h : Inv hooks start steps s) (ht : Textual start steps)
    (q : Question) : Inv hooks start (steps ++ [.ask q]) ((Step.ask q).take hooks s) := by
  obtain ⟨ds, c, hload, hds, hask, hprimed, hloads⟩ := h.outcome_ask hh ht q
  have htake : (Step.ask q).take hooks s = (s.1, c) := by rw [take, hask]
  rw [htake]
  refine ⟨?_, hloads, ?_, fun _ => ⟨ds, ?_, hds, hprimed⟩⟩
  · rw [declared_concat]
    exact h.source
  · intro hquiet
    rw [period_concat rfl, List.any_append] at hquiet
    simp [isAsk] at hquiet
  · rw [snapshot_concat rfl (.inr rfl)]
    exact hload

private theorem Inv.of_run (hh : hooks.relationships = none) (ht : Textual start steps) :
    Inv hooks start steps (run hooks start steps) := by
  induction steps using List.reverseRecOn with
  | nil => exact Inv.init
  | append_singleton steps step ih =>
    have h := ih ht.of_concat
    rw [run_concat]
    cases step with
    | declare source => exact h.declare source
    | ask q => exact h.ask hh ht.of_concat q
    | reset => exact h.reset

/-- Whatever happened before, a question is answered as by a new catalogue whose host declares what it declared at the
first question since the last reset, and the host has been asked once in every period with a question. -/
theorem ask_eq_fresh (hh : hooks.relationships = none) (ht : Textual start steps) (q : Question) :
    (∃ answer, ((q.ask hooks (run hooks start steps).1).outcome (run hooks start steps).2).2 = .ok answer ∧
      ((q.ask hooks (snapshot start steps)).outcome {}).2 = .ok answer) ∧
      (run hooks start steps).2.loads = periodsAsked steps := by
  have hinv := Inv.of_run hh ht
  refine ⟨?_, hinv.loads⟩
  obtain ⟨ds, c, hload, hds, hask, -, -⟩ := hinv.outcome_ask hh ht q
  have hfresh : Empty ({} : Catalogue) := ⟨rfl, rfl⟩
  obtain ⟨c', hask', -, -⟩ := hfresh.outcome_ask hload hds.textual q
  exact ⟨q.answer ds, by rw [hask], by rw [hask']⟩

/-- A catalogue that has found nothing before a relationship is declared has no definitions until it is reset. -/
theorem ask_eq_fresh_declaredLater :
    Textual none [.ask (.related "event"), .declare (some [.between "sponsors" "event" "company"])] ∧
      ((Question.definitions.ask {} (some [.between "sponsors" "event" "company"])).outcome
        (run {} none [.ask (.related "event"), .declare (some [.between "sponsors" "event" "company"])]).2).2 =
        .ok (.definitions []) ∧
      (run {} none [.ask (.related "event"),
        .declare (some [.between "sponsors" "event" "company"])]).2.loads = 1 := by
  have htextual :
      Textual none [.ask (.related "event"), .declare (some [.between "sponsors" "event" "company"])] := by
    intro source hsource
    have hcases : source = none ∨ source = some [.between "sponsors" "event" "company"] := by simpa using hsource
    rcases hcases with rfl | rfl
    · simp
    · simpa using Declaration.textual_between _ _ _
  obtain ⟨⟨answer, hask, hfresh⟩, hloads⟩ :=
    @ask_eq_fresh {} none [.ask (.related "event"), .declare (some [.between "sponsors" "event" "company"])] rfl
      htextual .definitions
  have hnone : (Except.ok (Answer.definitions []) : Except Fault Answer) = .ok answer := hfresh
  rw [← hnone] at hask
  exact ⟨htextual, hask, hloads⟩

end Step

end EdgeFields.Catalogue
