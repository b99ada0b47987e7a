import EdgeFields.Proofs.Dispatch

/-!
# Reports of a batch

The index answers a bulk request with a response that can have any shape, and what the operations did is done by then.
A response that lists as many answers as there are operations, each empty or with an integer for its status, is
reported answer by answer (`Batch.collect_eq_ok_iff`), and one that lists another number of answers is refused as a
whole (`Batch.collect_eq_bulk_iff`).  Other responses cannot be read, and end with neither (`Batch.dispatch_reports`).
-/

namespace EdgeFields

/-! ### What a response says -/

namespace BulkResponse

/-- A member of a response, or what stands for one that is missing. -/
def memberOr (v : Value) (k : Key) (ms : Record) : Value :=
  (ms.lookup k).getD v

/-- The answers that a response lists; a member that is missing or empty lists none. -/
def listed (response : Record) : Except Fault (List Value) :=
  if (memberOr .null "items" response).truthy then (memberOr .null "items" response).elements else .ok []

/-- Whether an answer tells these members: those of its first member, none if it is empty. -/
inductive Tells : Value → Record → Prop where
  | empty {answer : Value} (h : answer.truthy = false) : Tells answer []
  | first (k : Key) (told rest : Record) : Tells (.object ((k, .object told) :: rest)) told

/-- Whether the status of an answer is this integer; a missing one is zero. -/
def HasStatus (told : Record) (status : Int) : Prop :=
  (memberOr (.int 0) "status" told).toInteger = .ok status

/-- Whether a response took this time; a member that is missing or empty is zero. -/
def Took (response : Record) (took : Int) : Prop :=
  (Batch.orZero (memberOr .null "took" response)).toInteger = .ok took

/-- Whether a response to `n` operations can be read: it lists its answers and, if there is one for each operation,
every answer tells an integer as its status, and the response one as its time. -/
def Readable (response : Record) (n : Nat) : Prop :=
  ∃ answers, listed response = .ok answers ∧ (answers.length = n →
    (∀ answer ∈ answers, ∃ told status, Tells answer told ∧ HasStatus told status) ∧ ∃ took, Took response took)

private theorem Tells.eq_nil {answer : Value} {told : Record} (h : Tells answer told) (ht : answer.truthy = false) :
    told = [] := by
  cases h with
  | empty => rfl
  | first => contradiction

end BulkResponse

open BulkResponse

/-- Whether an outcome carries an operation and what an answer tells of it. -/
structure ItemResult.Reports (r : ItemResult) (op : Operation) (answer : Value) : Prop where
  operation : r.operation = op
  told : ∃ told, Tells answer told ∧ HasStatus told r.status ∧ r.result = memberOr .null "result" told ∧
    r.error = memberOr .null "error" told

/-- An empty answer tells of no success. -/
private theorem ItemResult.Reports.success_eq_false {r : ItemResult} {op : Operation} {answer : Value}
    (h : r.Reports op answer) (hempty : answer.truthy = false) : r.success = false := by
  obtain ⟨told, htells, hstatus, -⟩ := h.told
  obtain rfl := htells.eq_nil hempty
  obtain hzero : r.status = 0 := (Except.ok.inj hstatus).symm
  simp [success, hzero]

namespace Batch

variable {op : Operation} {ops : List Operation} {response : Record}

private theorem outcome_of_tells {answer : Value} {told : Record} (h : Tells answer told) : outcome op answer = do
    return ⟨op, ← (memberOr (.int 0) "status" told).toInteger, memberOr .null "result" told,
      memberOr .null "error" told⟩ := by
  cases h with
  | empty h => simp [outcome, h, memberOr]
  | first => rfl

/-- An answer that tells nothing is refused: it is no object, or its first member is none. -/
private theorem exists_tells_or (op : Operation) (answer : Value) :
    (∃ told, Tells answer told) ∨ ∃ action v, outcome op answer = .error (Value.cannot action v) := by
  cases ht : answer.truthy with
  | false => exact .inl ⟨[], .empty ht⟩
  | true =>
    unfold outcome
    rw [if_pos ht]
    cases answer with
    | object ms => cases ms with
      | nil => contradiction
      | cons m rest =>
        obtain ⟨k, v⟩ := m
        cases v with
        | object told => exact .inl ⟨told, .first k told rest⟩
        | _ => exact .inr ⟨"get", _, rfl⟩
    | _ => exact .inr ⟨"values", _, rfl⟩

/-- An outcome is made of an answer exactly if it reports what the answer tells. -/
private theorem outcome_eq_ok_iff {answer : Value} {r : ItemResult} :
    outcome op answer = .ok r ↔ r.Reports op answer := by
  constructor
  · intro h
    rcases exists_tells_or op answer with ⟨told, htells⟩ | ⟨action, v, hfault⟩
    · rw [outcome_of_tells htells] at h
      obtain ⟨status, hstatus, h⟩ := exists_of_bind_eq_ok h
      obtain rfl := Except.ok.inj h
      exact ⟨rfl, told, htells, hstatus, rfl, rfl⟩
    · rw [hfault] at h
      contradiction
  · rintro ⟨rfl, told, htells, hstatus, hresult, herror⟩
    rw [outcome_of_tells htells, hstatus, ← hresult, ← herror]
    rfl

private theorem exists_outcome_eq_ok_iff {answer : Value} :
    (∃ r, outcome op answer = .ok r) ↔ ∃ told status, Tells answer told ∧ HasStatus told status := by
  constructor
  · rintro ⟨r, h⟩
    obtain ⟨told, htells, hstatus, -⟩ := (outcome_eq_ok_iff.1 h).told
    exact ⟨told, r.status, htells, hstatus⟩
  · rintro ⟨told, status, htells, hstatus⟩
    exact ⟨⟨op, status, memberOr .null "result" told, memberOr .null "error" told⟩,
      outcome_eq_ok_iff.2 ⟨rfl, told, htells, hstatus, rfl, rfl⟩⟩

private theorem toInteger_ne_bulk (v : Value) (f : BulkFault) : v.toInteger ≠ .error (.bulk f) := by
  cases v with
  | string s => cases h : Text.readInteger s.toList with
    | ok n => simp [Value.toInteger, h, Except.mapError]
    | error e => cases e <;> simp [Value.toInteger, h, Except.mapError, Text.IntegerFault.fault]
  | float x => cases h : x.truncate? with
    | some n => simp [Value.toInteger, h]
    | none => cases x <;> simp [Value.toInteger, h]
  | _ => simp [Value.toInteger]

private theorem cannot_ne_bulk (action : String) (v : Value) (f : BulkFault) : v.cannot action ≠ .bulk f := by
  unfold Value.cannot
  split <;> simp

private theorem outcome_ne_bulk (answer : Value) (f : BulkFault) : outcome op answer ≠ .error (.bulk f) := by
  rcases exists_tells_or op answer with ⟨told, htells⟩ | ⟨action, v, hfault⟩
  · rw [outcome_of_tells htells]
    cases h : (memberOr (.int 0) "status" told).toInteger with
    | ok status => simp
    | error e =>
      rw [error_bind]
      intro heq
      exact toInteger_ne_bulk _ f (h.trans (congrArg Except.error (Except.error.inj heq)))
  · rw [hfault]
    exact fun heq => cannot_ne_bulk action v f (Except.error.inj heq)

private theorem collect_eq (ops : List Operation) (response : Record) :
    collect ops (.object response) = listed response >>= fun answers =>
      if answers.length ≠ ops.length then .error (.bulk (.itemCount answers.length ops.length)) else do
        return {
          items := ← (ops.zip answers).mapM fun q => outcome q.1 q.2
          took := ← (orZero (memberOr .null "took" response)).toInteger } := by
  have hmember : ∀ k, (Value.object response).member k = .ok (memberOr .null k response) := fun _ => rfl
  unfold collect listed
  simp only [hmember, ok_bind]
  split
  · cases (memberOr .null "items" response).elements with
    | error e => rfl
    | ok answers => simp only [ok_bind]; split <;> rfl
  · simp only [ok_bind]; split <;> rfl

/-- The outcomes are made exactly of a response that lists an answer for each operation which the outcome reports. -/
theorem collect_eq_ok_iff {r : BulkResult} : collect ops (.object response) = .ok r ↔
    ∃ answers, listed response = .ok answers ∧ answers.length = ops.length ∧
      List.Forall₂ (fun q item => ItemResult.Reports item q.1 q.2) (ops.zip answers) r.items ∧
      Took response r.took := by
  rw [collect_eq]
  constructor
  · intro h
    obtain ⟨answers, hlisted, h⟩ := exists_of_bind_eq_ok h
    split at h
    · contradiction
    · next hlength =>
      obtain ⟨items, hitems, h⟩ := exists_of_bind_eq_ok h
      obtain ⟨took, htook, h⟩ := exists_of_bind_eq_ok h
      obtain rfl := Except.ok.inj h
      refine ⟨answers, hlisted, not_not.1 hlength, ?_, htook⟩
      simpa only [outcome_eq_ok_iff] using mapM_eq_ok_iff_forall₂.1 hitems
  · rintro ⟨answers, hlisted, hlength, hitems, htook⟩
    have hitems' : (ops.zip answers).mapM (fun q => outcome q.1 q.2) = .ok r.items :=
      mapM_eq_ok_iff_forall₂.2 (by simpa only [outcome_eq_ok_iff] using hitems)
    rw [hlisted, ok_bind, if_neg (not_not.2 hlength), hitems', ok_bind, htook]
    rfl

private theorem listed_ne_bulk (response : Record) (f : BulkFault) : listed response ≠ .error (.bulk f) := by
  unfold listed
  split
  · cases memberOr .null "items" response <;> simp [Value.elements]
  · simp

/-- The request is refused as a whole exactly if the response lists another number of answers. -/
theorem collect_eq_bulk_iff {f : BulkFault} : collect ops (.object response) = .error (.bulk f) ↔
    ∃ answers, listed response = .ok answers ∧ answers.length ≠ ops.length ∧
      f = .itemCount answers.length ops.length := by
  rw [collect_eq]
  cases hlisted : listed response with
  | error e =>
    rw [error_bind]
    have hne : ∀ f, e ≠ .bulk f := fun f he => listed_ne_bulk response f (he ▸ hlisted)
    simp [hne]
  | ok answers =>
    rw [ok_bind]
    split
    · next hlength =>
      constructor
      · intro h
        exact ⟨answers, rfl, hlength, (Fault.bulk.inj (Except.error.inj h)).symm⟩
      · rintro ⟨_, heq, -, rfl⟩
        rw [Except.ok.inj heq]
    · next hlength =>
      cases hitems : (ops.zip answers).mapM fun q => outcome q.1 q.2 with
      | error e =>
        obtain ⟨q, -, hq⟩ := exists_of_mapM_eq_error hitems
        have hne : ∀ f, e ≠ .bulk f := fun f he => outcome_ne_bulk q.2 f (he ▸ hq)
        simp [hne, hlength]
      | ok items =>
        cases htook : (orZero (memberOr .null "took" response)).toInteger with
        | error e =>
          have hne : ∀ f, e ≠ .bulk f := fun f he => toInteger_ne_bulk _ f (he ▸ htook)
          simp [hne, hlength]
        | ok took => simp [hlength]

private theorem collect_iff_readable :
    ((∃ r, collect ops (.object response) = .ok r) ∨ ∃ f, collect ops (.object response) = .error (.bulk f)) ↔
      Readable response ops.length := by
  constructor
  · rintro (⟨r, h⟩ | ⟨f, h⟩)
    · obtain ⟨answers, hlisted, hlength, hitems, htook⟩ := collect_eq_ok_iff.1 h
      refine ⟨answers, hlisted, fun _ => ⟨fun answer hanswer => ?_, r.took, htook⟩⟩
      have hzip : (ops.zip answers).map Prod.snd = answers := List.map_snd_zip (Nat.le_of_eq hlength)
      rw [← hzip] at hanswer
      obtain ⟨q, hq, rfl⟩ := List.mem_map.1 hanswer
      simp only [← outcome_eq_ok_iff] at hitems
      exact exists_outcome_eq_ok_iff.1 (exists_mapM_eq_ok_iff.1 ⟨_, mapM_eq_ok_iff_forall₂.2 hitems⟩ q hq)
    · obtain ⟨answers, hlisted, hlength, -⟩ := collect_eq_bulk_iff.1 h
      exact ⟨answers, hlisted, fun heq => absurd heq hlength⟩
  · rintro ⟨answers, hlisted, h⟩
    by_cases hlength : answers.length = ops.length
    · obtain ⟨htells, took, htook⟩ := h hlength
      obtain ⟨items, hitems⟩ := exists_mapM_eq_ok_iff.2 fun q (hq : q ∈ ops.zip answers) =>
        exists_outcome_eq_ok_iff.2 (htells q.2 (List.of_mem_zip hq).2)
      refine .inl ⟨⟨items, took⟩, collect_eq_ok_iff.2 ⟨answers, hlisted, hlength, ?_, htook⟩⟩
      simpa only [outcome_eq_ok_iff] using mapM_eq_ok_iff_forall₂.1 hitems
    · exact .inr ⟨_, collect_eq_bulk_iff.2 ⟨answers, hlisted, hlength, rfl⟩⟩

end Batch

/-! ### Outcomes of a batch -/

namespace BulkResult

private theorem perm_succeeded_failed (r : BulkResult) : (r.succeeded ++ r.failed).Perm r.items :=
  List.filter_append_perm ..

private theorem disjoint_succeeded_failed (r : BulkResult) : r.succeeded.Disjoint r.failed := by
  intro item hs hf
  have hs := (List.mem_filter.1 hs).2
  have hf := (List.mem_filter.1 hf).2
  rw [hs] at hf
  contradiction

private theorem errors_iff (r : BulkResult) : r.errors = true ↔ r.failed ≠ [] := by
  rw [errors, failed, ne_eq, List.filter_eq_nil_iff]
  simp

end BulkResult

/-! ### Dispatch -/

/-- An operation that can be sent: its projections are objects, if it has any, and it lacks nothing. -/
structure Operation.Sendable (op : Operation) : Prop where
  projection : op.projection = .null ∨ op.projection.IsObject
  projections : ∀ v ∈ op.projections, v.IsObject
  flawless : ¬ (BatchItem.operation op).Flawed

namespace Batch

variable {b : Batch} {ops : List Operation}

private theorem exists_body_eq_ok {op : Operation} (h : op.Sendable) (a : Action) : ∃ line, body op a = .ok line := by
  rw [body, Operation.params, Document.values_eq_ok h.projections]
  split
  · exact ⟨_, rfl⟩
  · rcases h.projection with hnull | ⟨ms, hms⟩
    · rw [hnull]
      exact ⟨_, rfl⟩
    · rw [hms]
      split <;> exact ⟨_, rfl⟩

/-- Operations that can be sent make a request. -/
theorem exists_pairs_eq_ok (b : Batch) (h : ∀ op ∈ ops, op.Sendable) : ∃ checked ps,
    validate (ops.map .operation) = .ok checked ∧ checked.map (·.1) = ops ∧ b.pairs checked = .ok ps ∧
      ps.length = ops.length := by
  have hitems : ∀ x ∈ ops.map BatchItem.operation, ∃ op a, x = .operation op ∧ op.Sendable ∧
      ∀ position, check position x = .ok (op, a) := by
    intro x hx
    obtain ⟨op, hop, rfl⟩ := List.mem_map.1 hx
    obtain ⟨a, ha, hsubject, hfield⟩ := BatchItem.exists_action_of_not_flawed (h op hop).flawless
    refine ⟨op, a, rfl, h op hop, check_eq_ok ha (fun hne => ?_) hsubject hfield⟩
    refine (h op hop).projection.resolve_left fun hnull => hsubject hne ?_
    rw [hnull]
    rfl
  obtain ⟨checked, hchecked, hops, hsendable⟩ := validateFrom_eq_ok hitems 0
  have hmap : checked.map (·.1) = ops := by
    have hops : ops.map BatchItem.operation = (checked.map (·.1)).map .operation := by
      rw [List.map_map]
      exact hops
    exact ((List.map_inj_right fun _ _ => BatchItem.operation.inj).1 hops).symm
  obtain ⟨ps, hps⟩ : ∃ ps, b.pairs checked = .ok ps := by
    refine exists_mapM_eq_ok_iff.2 fun r hr => ?_
    obtain ⟨op, a⟩ := r
    have hop : op.Sendable := hsendable _ hr
    obtain ⟨line, hline⟩ := exists_body_eq_ok hop a
    refine ⟨(b.header op, line), ?_⟩
    dsimp only
    rw [hline]
    rfl
  refine ⟨checked, ps, hchecked, hmap, hps, ?_⟩
  rw [← hmap, List.length_map, (mapM_eq_ok_iff_forall₂.1 hps).length_eq]

/-- What a batch of operations that can be sent ends with, once the index answers its request with an object.  The
response is reported, or refused as a whole, exactly if it can be read.  It is refused if it lists another number of
answers than there are operations.  A report has one outcome for each operation, in order, with the status, the result
and the error of its answer, and an empty answer is a failure; it tells the time that the response took, its outcomes
are parted into successes and failures, and there are errors if there are failures. -/
theorem dispatch_reports {σ : Type} (b : Batch) (client : Client σ) (hne : ops ≠ []) (h : ∀ op ∈ ops, op.Sendable) :
    ∃ lines, b.lines (ops.map .operation) = .ok lines ∧ ∀ s s' response,
      (client.bulk lines (refreshOptions b.refresh)).outcome s = (s', .ok (.object response)) →
      ∃ answer, (b.dispatch client (ops.map .operation)).outcome s = (s', answer) ∧
        (((∃ r, answer = .ok r) ∨ ∃ f, answer = .error (.bulk f)) ↔ Readable response ops.length) ∧
        (∀ f, answer = .error (.bulk f) ↔ ∃ answers, listed response = .ok answers ∧
          answers.length ≠ ops.length ∧ f = .itemCount answers.length ops.length) ∧
        ∀ r, answer = .ok r → ∃ answers, listed response = .ok answers ∧ answers.length = ops.length ∧
          r.items.length = ops.length ∧
          List.Forall₂ (fun q item => ItemResult.Reports item q.1 q.2 ∧ (q.2.truthy = false → item.success = false))
            (ops.zip answers) r.items ∧
          Took response r.took ∧ (r.succeeded ++ r.failed).Perm r.items ∧ r.succeeded.Disjoint r.failed ∧
          (r.errors = true ↔ r.failed ≠ []) := by
  obtain ⟨checked, ps, hchecked, hmap, hps, hlength⟩ := exists_pairs_eq_ok b h
  have hempty : ps.isEmpty = false := by
    rw [List.isEmpty_eq_false_iff]
    rintro rfl
    exact hne (List.eq_nil_of_length_eq_zero hlength.symm)
  have hlines : b.lines (ops.map .operation) = .ok (flatten ps) := by
    rw [lines, hchecked, ok_bind, hps]
    rfl
  refine ⟨flatten ps, hlines, fun s s' response hbulk => ⟨collect ops (.object response), ?_, collect_iff_readable,
    fun f => collect_eq_bulk_iff, fun r hr => ?_⟩⟩
  · rw [outcome_dispatch_answered hchecked hps hempty hbulk, hmap]
  · obtain ⟨answers, hlisted, hanswers, hitems, htook⟩ := collect_eq_ok_iff.1 hr
    refine ⟨answers, hlisted, hanswers, ?_, ?_, htook, r.perm_succeeded_failed, r.disjoint_succeeded_failed,
      r.errors_iff⟩
    · rw [← hitems.length_eq, List.length_zip, hanswers, Nat.min_self]
    · exact hitems.imp fun q item hq => ⟨hq, hq.success_eq_false⟩

/-- An answer for an operation that reached no copy of the document, and that has no status. -/
def unavailable : Value :=
  .object [("update", .object [("_id", .string "10"), ("status", .null),
    ("error", .object [("type", .string "unavailable_shards_exception")])])]

/-- The response with that answer. -/
def unavailableResponse : Record :=
  [("took", .int 1), ("items", .list [unavailable])]

/-- Null is no integer, so that a response with a null status is neither reported nor refused. -/
theorem dispatch_reports_unavailable : ∃ ix' answer,
    (dispatch ⟨.string "content", .int 3, .null⟩ MemoryIndex.client [.operation (tellSponsor 10)]).outcome
      { plan := some (.response (.object unavailableResponse)) } = (ix', answer) ∧
      (∀ r, answer ≠ .ok r) ∧ ∀ f, answer ≠ .error (.bulk f) := by
  have hsendable : ∀ op ∈ [tellSponsor 10], op.Sendable := by
    intro op hop
    rw [List.mem_singleton.1 hop]
    refine ⟨.inr ⟨_, rfl⟩, List.forall_mem_nil _, ?_⟩
    rintro (h | ⟨-, h⟩ | h)
    · exact h .upsert rfl
    · contradiction
    · contradiction
  have hunreadable : ¬ Readable unavailableResponse 1 := by
    rintro ⟨answers, hlisted, hread⟩
    obtain rfl := Except.ok.inj ((rfl : listed unavailableResponse = .ok [unavailable]).symm.trans hlisted)
    obtain ⟨told, status, htells, hstatus⟩ := (hread rfl).1 unavailable (List.mem_singleton.2 rfl)
    cases htells with
    | empty h => contradiction
    | first => contradiction
  obtain ⟨lines, hlines, h⟩ := dispatch_reports ⟨.string "content", .int 3, .null⟩ MemoryIndex.client
    (List.cons_ne_nil (tellSponsor 10) []) hsendable
  obtain rfl := Except.ok.inj ((rfl : _ = Except.ok [_, _]).symm.trans hlines)
  obtain ⟨answer, hanswer, hiff, -⟩ := h { plan := some (.response (.object unavailableResponse)) } _ _ rfl
  exact ⟨_, answer, hanswer, fun r hr => hunreadable (hiff.1 (.inl ⟨r, hr⟩)),
    fun f hf => hunreadable (hiff.1 (.inr ⟨f, hf⟩))⟩

end Batch

end EdgeFields
