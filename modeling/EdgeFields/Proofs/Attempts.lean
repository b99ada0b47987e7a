import EdgeFields.Index.Memory
import EdgeFields.Index.Writer
import EdgeFields.Proofs.Outcome

/-!
# The attempts of a write

A conditional write is tried again after a conflict, up to a number of attempts.  What one attempt asks the index and
how it goes depends on the answers to that attempt alone (`IndexAnswers.course`, `Writer.outcome_turn`).  A write is
the attempts up to the first one that meets no conflict; only if all of them meet one, the conflict of the last is its
end (`Writer.write_attempts`).
-/

namespace EdgeFields

/-! ### Answers in turn -/

/-- A document as the index tells it, with what a conditional write of it has to name. -/
structure ReadDocument where
  source : Value
  seqNo : Value
  primaryTerm : Value

/-- Whether a request reads a document. -/
def Request.isGet : Request → Bool
  | get _ _ => true
  | _ => false

/-- Whether a request writes a document on a condition. -/
def Request.isPut : Request → Bool
  | put _ _ _ _ _ _ => true
  | _ => false

/-- What an index answers, in turn, to the reads and to the conditional writes that it gets. -/
structure IndexAnswers where
  read : Nat → Except IndexFailure ReadDocument
  put : Nat → Except IndexFailure Unit

/-- How an attempt of a write goes: there is no document, the operation leaves it as it is, the result is stored, or
it is refused because somebody else changed the document. -/
inductive Course where
  | missing
  | unchanged
  | stored (source : Value) (d : ReadDocument)
  | refused (source : Value) (d : ReadDocument) (f : IndexFailure)

namespace Course

/-- How an attempt ends the write, if it does. -/
def ending : Course → Option Written
  | missing => some .notFound
  | unchanged => some .noop
  | stored _ _ => some .updated
  | refused _ _ _ => none

/-- The requests of an attempt: the document is read, and a result goes back with what was told of that document. -/
def requests (w : Writer) (id : String) : Course → List Request
  | missing | unchanged => [.get w.indexName id]
  | stored source d | refused source d _ =>
    [.get w.indexName id, .put w.indexName id source d.seqNo d.primaryTerm (refreshOptions w.refresh)]

private theorem eq_put_of_mem_requests {w : Writer} {id : String} {c : Course} {r : Request}
    (hr : r ∈ c.requests w id)
    (hput : r.isPut = true) : ∃ source d, (c = .stored source d ∨ ∃ f, c = .refused source d f) ∧
      r = .put w.indexName id source d.seqNo d.primaryTerm (refreshOptions w.refresh) := by
  cases c with
  | missing | unchanged =>
    obtain rfl := List.mem_singleton.1 hr
    cases hput
  | stored source d =>
    rcases List.mem_pair.1 hr with rfl | rfl
    · cases hput
    · exact ⟨source, d, .inl rfl, rfl⟩
  | refused source d f =>
    rcases List.mem_pair.1 hr with rfl | rfl
    · cases hput
    · exact ⟨source, d, .inr ⟨f, rfl⟩, rfl⟩

end Course

namespace IndexAnswers

/-- An index that gives its answers in turn and records what it is asked. -/
def client (a : IndexAnswers) : Client (List Request) where
  get index id := fun asked =>
    (asked ++ [.get index id], ⟨[], match a.read (asked.countP Request.isGet) with
      | .ok d => .ok ⟨d.source, some d.seqNo, some d.primaryTerm⟩
      | .error f => .error (.index f)⟩)
  put index id source seqNo primaryTerm options := fun asked =>
    (asked ++ [.put index id source seqNo primaryTerm options],
      ⟨[], (a.put (asked.countP Request.isPut)).mapError Fault.index⟩)
  bulk _ _ := throw .wrongType
  putMapping _ _ := throw .wrongType
  describe _ := throw .wrongType

/-- How the attempt goes that gets the answers with number `k`. -/
def course (a : IndexAnswers) (op : Operation) (k : Nat) : Course :=
  match a.read k with
  | .error _ => .missing
  | .ok d =>
    match (Document.perform (.operation op)).outcome d.source with
    | (source, .ok true) =>
      match a.put k with
      | .ok () => .stored source d
      | .error f => .refused source d f
    | _ => .unchanged

/-- The requests of the first `m` attempts. -/
def requests (a : IndexAnswers) (w : Writer) (op : Operation) (m : Nat) : List Request :=
  (List.range m).flatMap fun k => (a.course op k).requests w op.owner.toText

/-- Whether the operation changes the document that the attempt with number `k` reads, and the result is refused. -/
def Conflicts (a : IndexAnswers) (op : Operation) (k : Nat) : Prop :=
  ∃ source d f, a.course op k = .refused source d f

/-- Answers that a write can get: that there is no document, or one that the operation can be carried out on; that the
result is stored, or that it is refused for a conflict. -/
structure Suit (a : IndexAnswers) (op : Operation) : Prop where
  missing : ∀ k f, a.read k = .error f → f.hasStatus 404 = true
  found : ∀ k d, a.read k = .ok d → ∃ source changed,
    (Document.perform (.operation op)).outcome d.source = (source, .ok changed)
  refused : ∀ k f, a.put k = .error f → f.hasStatus 409 = true

variable {a : IndexAnswers} {op : Operation} {k : Nat}

private theorem outcome_get (index : Value) (id : String) (asked : List Request) :
    (a.client.get index id).outcome asked = (asked ++ [.get index id],
      match a.read (asked.countP Request.isGet) with
      | .ok d => .ok ⟨d.source, some d.seqNo, some d.primaryTerm⟩
      | .error f => .error (.index f)) := rfl

theorem outcome_put (index : Value) (id : String) (source seqNo primaryTerm : Value) (options : Record)
    (asked : List Request) : (a.client.put index id source seqNo primaryTerm options).outcome asked =
      (asked ++ [.put index id source seqNo primaryTerm options],
        (a.put (asked.countP Request.isPut)).mapError Fault.index) := rfl

private theorem conflicts_iff : a.Conflicts op k ↔ (a.course op k).ending = none := by
  unfold Conflicts
  cases a.course op k <;> simp [Course.ending]

/-- Either all attempts meet a conflict, or there is a first one that ends the write. -/
private theorem conflicts_or_exists_ending (a : IndexAnswers) (op : Operation) (n : Nat) :
    (∀ k < n, a.Conflicts op k) ∨
      ∃ k < n, (∀ i < k, a.Conflicts op i) ∧ ∃ r, (a.course op k).ending = some r := by
  induction n with
  | zero => exact .inl fun k hk => by omega
  | succ n ih =>
    rcases ih with hall | ⟨k, hk, hfirst⟩
    · cases hend : (a.course op n).ending with
      | none => exact .inl (Nat.forall_lt_succ_right.2 ⟨hall, conflicts_iff.2 hend⟩)
      | some r => exact .inr ⟨n, by omega, hall, r, hend⟩
    · exact .inr ⟨k, by omega, hfirst⟩

private theorem requests_succ (w : Writer) (m : Nat) :
    a.requests w op (m + 1) = a.requests w op m ++ (a.course op m).requests w op.owner.toText := by
  simp [requests, List.range_succ]

private theorem countP_isGet_requests (a : IndexAnswers) (w : Writer) (op : Operation) (m : Nat) :
    (a.requests w op m).countP Request.isGet = m := by
  induction m with
  | zero => rfl
  | succ m ih =>
    rw [requests_succ, List.countP_append, ih]
    cases a.course op m <;> rfl

private theorem countP_isPut_requests_le (a : IndexAnswers) (w : Writer) (op : Operation) (m : Nat) :
    (a.requests w op m).countP Request.isPut ≤ m := by
  induction m with
  | zero => exact Nat.le_refl 0
  | succ m ih =>
    rw [requests_succ, List.countP_append]
    refine Nat.add_le_add ih ?_
    cases a.course op m <;> simp [Course.requests, Request.isPut]

private theorem countP_isPut_requests (w : Writer) {m : Nat} (hm : ∀ i < m, a.Conflicts op i) :
    (a.requests w op m).countP Request.isPut = m := by
  induction m with
  | zero => rfl
  | succ m ih =>
    obtain ⟨source, d, f, hcourse⟩ := hm m (by omega)
    rw [requests_succ, List.countP_append, ih fun i hi => hm i (by omega), hcourse]
    rfl

/-- What an attempt writes is what the operation makes of the document that it read. -/
private theorem outcome_of_course {source : Value} {d : ReadDocument}
    (h : a.course op k = .stored source d ∨ ∃ f, a.course op k = .refused source d f) :
    a.read k = .ok d ∧ (Document.perform (.operation op)).outcome d.source = (source, .ok true) := by
  unfold course at h
  split at h
  · simp at h
  · next d' hread =>
    split at h
    · next source' hperform =>
      have hsame : source' = source ∧ d' = d := by
        split at h <;> simpa using h
      obtain ⟨rfl, rfl⟩ := hsame
      exact ⟨hread, hperform⟩
    · simp at h

private theorem put_of_course {source : Value} {d : ReadDocument} {f : IndexFailure}
    (h : a.course op k = .refused source d f) : a.put k = .error f := by
  unfold course at h
  split at h
  · simp at h
  · split at h
    · split at h
      · simp at h
      · next f' hput =>
        cases h
        exact hput
    · simp at h

private theorem eq_put_of_mem_requests {w : Writer} {m : Nat} {r : Request} (hr : r ∈ a.requests w op m)
    (hput : r.isPut = true) : ∃ k < m, ∃ d source, a.read k = .ok d ∧
      (Document.perform (.operation op)).outcome d.source = (source, .ok true) ∧
      r = .put w.indexName op.owner.toText source d.seqNo d.primaryTerm (refreshOptions w.refresh) := by
  obtain ⟨k, hk, hr⟩ := List.mem_flatMap.1 hr
  obtain ⟨source, d, hcourse, rfl⟩ := Course.eq_put_of_mem_requests hr hput
  obtain ⟨hread, hperform⟩ := outcome_of_course hcourse
  exact ⟨k, List.mem_range.1 hk, d, source, hread, hperform, rfl⟩

end IndexAnswers

/-! ### One attempt after another -/

/-- What follows a session matters only for the answers that it gives. -/
private theorem Session.bind_congr_of_answers {σ α β : Type} {m : Session σ α} {f g : α → Session σ β}
    (h : ∀ s s' x, m.outcome s = (s', .ok x) → f x = g x) : m >>= f = m >>= g := by
  funext s
  change andThen m f s = andThen m g s
  rcases hm : m s with ⟨s₁, notices, e | x⟩
  · simp [andThen, hm]
  · have hfg := h s s₁ x (by simp [outcome, hm])
    simp [andThen, hm, hfg]

namespace Writer

variable {σ : Type} {w : Writer} {client : Client σ} {id : String} {item : BatchItem}

/-- One attempt to write an item: how it ends the write, if it does. -/
def turn (w : Writer) (client : Client σ) (id : String) (item : BatchItem) (last : Bool) :
    Session σ (Option Written) := do
  match ← w.read client id with
  | none => return some .notFound
  | some d =>
    let (source, outcome) := (Document.perform item).run d.source
    if ← outcome then
      if ← w.putBack client id d source last then
        return some .updated
      else
        return none
    else
      return some .noop

/-- Attempts until one of them ends the write, as often as any are left; then something else follows. -/
def attemptOr (rest : Session σ Written) (w : Writer) (client : Client σ) (id : String) (item : BatchItem) :
    Nat → Session σ Written
  | 0 => rest
  | left + 1 => do
    match ← w.turn client id item (left == 0) with
    | some r => return r
    | none => attemptOr rest w client id item left

/-- The write of an item, with something else to follow the attempts. -/
def writeOr (rest : Session σ Written) (w : Writer) (client : Client σ) (item : BatchItem) : Session σ Written := do
  let owner ← item.owner
  w.attemptOr rest client owner.toText item (← w.maxAttempts.toCount).toNat

private theorem attempt_eq_attemptOr (left : Nat) :
    w.attempt client id item left = attemptOr (pure .noop) w client id item left := by
  induction left with
  | zero => rfl
  | succ left ih =>
    rw [attempt, attemptOr, turn, bind_assoc]
    congr 1
    funext found
    cases found with
    | none => simp
    | some d =>
      rw [ih]
      simp only [bind_assoc]
      congr 1
      funext changed
      cases changed with
      | false => simp
      | true =>
        simp only [if_true, bind_assoc]
        congr 1
        funext stored
        cases stored <;> simp

private theorem write_eq_writeOr : w.write client item = writeOr (pure .noop) w client item := by
  simp only [write, writeOr, attempt_eq_attemptOr]

/-- At the last attempt a result is stored, or the attempt fails. -/
private theorem putBack_last_ne_false {d : Fetched} {source : Value} {s s' : σ} :
    (w.putBack client id d source true).outcome s ≠ (s', .ok false) := by
  intro h
  obtain ⟨seqNo, -, h⟩ := Session.exists_of_outcome_lift_bind h
  obtain ⟨primaryTerm, -, h⟩ := Session.exists_of_outcome_lift_bind h
  rw [Session.outcome_tryCatch, Session.outcome_bind] at h
  generalize (client.put w.indexName id source seqNo primaryTerm (refreshOptions w.refresh)).outcome s = put at h
  obtain ⟨s₁, fault | _⟩ := put
  · cases fault with
    | index f => cases hf : f.hasStatus 409 <;> simp [hf] at h
    | _ => simp at h
  · simp at h

/-- The last attempt does not leave the write without an end. -/
private theorem turn_last_ne_none {s s' : σ} : (w.turn client id item true).outcome s ≠ (s', .ok none) := by
  intro h
  obtain ⟨s₁, found, -, h⟩ := Session.exists_of_outcome_bind h
  cases found with
  | none => simp at h
  | some d =>
    obtain ⟨s₂, changed, -, h⟩ := Session.exists_of_outcome_bind h
    cases changed with
    | false => simp at h
    | true =>
      obtain ⟨s₃, stored, hstored, h⟩ := Session.exists_of_outcome_bind h
      cases stored with
      | false => exact putBack_last_ne_false hstored
      | true => simp at h

/-- Nothing that follows the attempts is ever reached. -/
private theorem attemptOr_succ_eq (rest rest' : Session σ Written) (left : Nat) :
    attemptOr rest w client id item (left + 1) = attemptOr rest' w client id item (left + 1) := by
  induction left with
  | zero =>
    refine Session.bind_congr_of_answers fun s s' r hr => ?_
    cases r with
    | none => exact absurd hr turn_last_ne_none
    | some r => rfl
  | succ left ih =>
    refine Session.bind_congr_of_answers fun s s' r _ => ?_
    cases r with
    | none => exact ih
    | some r => rfl

section InTurn

variable {a : IndexAnswers} {op : Operation} {k : Nat} (ha : a.Suit op) {asked : List Request}
  (hgets : asked.countP Request.isGet = k) (hputs : asked.countP Request.isPut = k)
include ha

include hgets in
private theorem outcome_read : (w.read a.client id).outcome asked = (asked ++ [.get w.indexName id],
    .ok (match a.read k with
      | .ok d => some ⟨d.source, some d.seqNo, some d.primaryTerm⟩
      | .error _ => none)) := by
  rw [read, Session.outcome_tryCatch, Session.outcome_bind, IndexAnswers.outcome_get, hgets]
  cases hread : a.read k with
  | ok d => rfl
  | error f => simp [ha.missing k f hread]

include hputs in
private theorem outcome_putBack {source : Value} {d : ReadDocument} (last : Bool) :
    (w.putBack a.client id ⟨d.source, some d.seqNo, some d.primaryTerm⟩ source last).outcome asked =
      (asked ++ [.put w.indexName id source d.seqNo d.primaryTerm (refreshOptions w.refresh)],
        match a.put k with
        | .ok () => .ok true
        | .error f => if last then .error (.index f) else .ok false) := by
  simp only [putBack, told, Session.outcome_bind, Session.outcome_lift, Session.continueWith_ok,
    Session.outcome_tryCatch, IndexAnswers.outcome_put, hputs]
  cases hput : a.put k with
  | ok _ => rfl
  | error f => cases last <;> simp [Except.mapError, ha.refused k f hput]

include hgets hputs in
theorem outcome_turn (last : Bool) :
    (w.turn a.client id (.operation op) last).outcome asked = (asked ++ (a.course op k).requests w id,
      match a.course op k with
      | .refused _ _ f => if last then .error (.index f) else .ok none
      | c => .ok c.ending) := by
  have hputs' : (asked ++ [Request.get w.indexName id]).countP Request.isPut = k := by
    rw [List.countP_append, hputs]
    rfl
  rw [turn, Session.outcome_bind, outcome_read ha hgets, Session.continueWith_ok]
  unfold IndexAnswers.course
  cases hread : a.read k with
  | error f => rfl
  | ok d =>
    obtain ⟨source, changed, hperform⟩ := ha.found k d hread
    have hrun : (Document.perform (.operation op)).outcome d.source =
      (((Document.perform (.operation op)).run d.source).1,
        ((Document.perform (.operation op)).run d.source).2.result) := rfl
    dsimp only
    rw [hrun] at hperform ⊢
    generalize (Document.perform (.operation op)).run d.source = performed at hperform ⊢
    obtain ⟨result, notices, answer⟩ := performed
    obtain ⟨rfl, rfl⟩ := Prod.mk.inj hperform
    dsimp only
    rw [Session.outcome_bind, Session.outcome_lift_report, Session.continueWith_ok]
    cases changed with
    | false => rfl
    | true =>
      rw [if_pos rfl, Session.outcome_bind, outcome_putBack ha hputs', List.append_assoc]
      cases hput : a.put k with
      | ok _ => rfl
      | error f => cases last <;> rfl

end InTurn

/-! ### The write -/

section Write

variable {a : IndexAnswers} {op : Operation} (ha : a.Suit op) {m : Nat}
  (hm : ∀ i < m, a.Conflicts op i) (rest : Session (List Request) Written)
include ha hm

/-- After attempts that met a conflict, the next one begins, and nothing but the requests is left of the others. -/
private theorem outcome_attemptOr_of_conflicts (left : Nat) :
    (attemptOr rest w a.client op.owner.toText (.operation op) (m + (left + 1))).outcome [] =
      (attemptOr rest w a.client op.owner.toText (.operation op) (left + 1)).outcome (a.requests w op m) := by
  -- Over the attempts already made; one more of them is taken from those that are left.
  induction m generalizing left with
  | zero => rw [Nat.zero_add]; rfl
  | succ m ih =>
    have hm' : ∀ i < m, a.Conflicts op i := fun i hi => hm i (by omega)
    obtain ⟨source, d, f, hcourse⟩ := hm m (by omega)
    have hgets := IndexAnswers.countP_isGet_requests a w op m
    have hputs := IndexAnswers.countP_isPut_requests w hm'
    rw [show m + 1 + (left + 1) = m + (left + 1 + 1) by omega, ih hm', attemptOr, Session.outcome_bind,
      outcome_turn ha hgets hputs, hcourse, IndexAnswers.requests_succ, hcourse]
    rfl

/-- The first attempt that meets no conflict ends the write. -/
private theorem outcome_attemptOr_of_ending {n : Nat} (hmn : m < n) {r : Written}
    (hr : (a.course op m).ending = some r) :
    (attemptOr rest w a.client op.owner.toText (.operation op) n).outcome [] =
      (a.requests w op (m + 1), .ok r) := by
  obtain ⟨left, rfl⟩ : ∃ left, n = m + (left + 1) := ⟨n - m - 1, by omega⟩
  have hgets := IndexAnswers.countP_isGet_requests a w op m
  have hputs := IndexAnswers.countP_isPut_requests w hm
  rw [outcome_attemptOr_of_conflicts ha hm, attemptOr, Session.outcome_bind, outcome_turn ha hgets hputs,
    IndexAnswers.requests_succ]
  cases hcourse : a.course op m with
  | refused source d f => simp [hcourse, Course.ending] at hr
  | _ =>
    obtain rfl : _ = r := Option.some.inj (hcourse ▸ hr)
    rfl

/-- If the last attempt meets a conflict too, that conflict is the end. -/
private theorem outcome_attemptOr_of_refused {source : Value} {d : ReadDocument} {f : IndexFailure}
    (hcourse : a.course op m = .refused source d f) :
    (attemptOr rest w a.client op.owner.toText (.operation op) (m + 1)).outcome [] =
      (a.requests w op (m + 1), .error (.index f)) := by
  have hgets := IndexAnswers.countP_isGet_requests a w op m
  have hputs := IndexAnswers.countP_isPut_requests w hm
  rw [outcome_attemptOr_of_conflicts ha hm rest 0, attemptOr, Session.outcome_bind, outcome_turn ha hgets hputs,
    IndexAnswers.requests_succ, hcourse]
  rfl

end Write

private theorem writeOr_eq_attemptOr {n : Nat} (hn : w.maxAttempts = .int n) (rest : Session σ Written) :
    writeOr rest w client item =
      (do w.attemptOr rest client (← item.owner).toText item n) := by
  rw [writeOr, hn]
  rfl

/-- What follows the attempts does not matter if there is one. -/
private theorem writeOr_eq_write {n : Nat} (hn : w.maxAttempts = .int n) (h1 : 1 ≤ n) (rest : Session σ Written) :
    writeOr rest w client item = w.write client item := by
  obtain ⟨left, rfl⟩ : ∃ left, n = left + 1 := ⟨n - 1, by omega⟩
  rw [write_eq_writeOr, writeOr_eq_attemptOr hn, writeOr_eq_attemptOr hn]
  simp only [attemptOr_succ_eq rest (pure .noop)]

private theorem outcome_write {op : Operation} {n : Nat} (hn : w.maxAttempts = .int n) (s : σ) :
    (w.write client (.operation op)).outcome s =
      (attemptOr (pure .noop) w client op.owner.toText (.operation op) n).outcome s := by
  rw [write_eq_writeOr, writeOr_eq_attemptOr hn, Session.outcome_bind]
  rfl

section Answers

variable {a : IndexAnswers} {op : Operation} {n : Nat} (hn : w.maxAttempts = .int n) (h1 : 1 ≤ n) (ha : a.Suit op)
include hn h1 ha

/-- A write makes the attempts up to the first one that ends it, or all of them. -/
private theorem exists_outcome_write : ∃ m ≤ n, ∃ answer,
    (w.write a.client (.operation op)).outcome [] = (a.requests w op m, answer) ∧
      (((∀ k < n, a.Conflicts op k) ∧ ∃ f, f.hasStatus 409 = true ∧ answer = .error (.index f)) ∨
        ∃ k, m = k + 1 ∧ (∀ i < k, a.Conflicts op i) ∧ ∃ r, (a.course op k).ending = some r ∧ answer = .ok r) := by
  rcases a.conflicts_or_exists_ending op n with hall | ⟨k, hk, hbefore, r, hr⟩
  · obtain ⟨m, rfl⟩ : ∃ m, n = m + 1 := ⟨n - 1, by omega⟩
    obtain ⟨source, d, f, hcourse⟩ := hall m (by omega)
    have hf : f.hasStatus 409 = true := ha.refused m f (IndexAnswers.put_of_course hcourse)
    have hbefore : ∀ i < m, a.Conflicts op i := fun i hi => hall i (by omega)
    refine ⟨m + 1, Nat.le_refl _, _, ?_, .inl ⟨hall, f, hf, rfl⟩⟩
    rw [outcome_write hn, outcome_attemptOr_of_refused ha hbefore _ hcourse]
  · refine ⟨k + 1, hk, _, ?_, .inr ⟨k, rfl, hbefore, r, hr, rfl⟩⟩
    rw [outcome_write hn, outcome_attemptOr_of_ending ha hbefore _ hk hr]

/-- A write with `n` attempts makes at most that many: each reads the document once and writes what the operation
makes of it at most once, on the condition that was told with that document.  The first attempt that meets no conflict
ends the write; it fails with a conflict exactly if all of them meet one.  What would follow the attempts is never
reached. -/
theorem write_attempts :
    ∃ asked answer, (w.write a.client (.operation op)).outcome [] = (asked, answer) ∧
      (∃ m ≤ n, asked = a.requests w op m) ∧
      asked.countP Request.isGet ≤ n ∧
      asked.countP Request.isPut ≤ asked.countP Request.isGet ∧
      (∀ r ∈ asked, r.isPut = true → ∃ k < n, ∃ d source, a.read k = .ok d ∧
        (Document.perform (.operation op)).outcome d.source = (source, .ok true) ∧
        r = .put w.indexName op.owner.toText source d.seqNo d.primaryTerm (refreshOptions w.refresh)) ∧
      (∀ k < n, (∀ i < k, a.Conflicts op i) → ∀ r, (a.course op k).ending = some r →
        asked = a.requests w op (k + 1) ∧ answer = .ok r) ∧
      ((∃ f, f.hasStatus 409 = true ∧ answer = .error (.index f)) ↔ ∀ k < n, a.Conflicts op k) ∧
      ∀ rest, writeOr rest w a.client (.operation op) = w.write a.client (.operation op) := by
  obtain ⟨m, hmn, answer, houtcome, hends⟩ := exists_outcome_write hn h1 ha
  refine ⟨_, answer, houtcome, ⟨m, hmn, rfl⟩, ?_, ?_, ?_, ?_, ?_, writeOr_eq_write hn h1⟩
  · rw [IndexAnswers.countP_isGet_requests]
    exact hmn
  · rw [IndexAnswers.countP_isGet_requests]
    exact IndexAnswers.countP_isPut_requests_le a w op m
  · intro r hr hput
    obtain ⟨k, hk, hrest⟩ := IndexAnswers.eq_put_of_mem_requests hr hput
    exact ⟨k, Nat.lt_of_lt_of_le hk hmn, hrest⟩
  · intro k hk hbefore r hr
    have hsame := (outcome_write hn []).trans (outcome_attemptOr_of_ending ha hbefore _ hk hr)
    exact Prod.mk.inj (houtcome.symm.trans hsame)
  · rcases hends with ⟨hall, hfault⟩ | ⟨k, rfl, -, r, hr, rfl⟩
    · exact iff_of_true hfault hall
    · refine iff_of_false ?_ fun hall => ?_
      · rintro ⟨f, -, hanswer⟩
        cases hanswer
      · have hnone := IndexAnswers.conflicts_iff.1 (hall k hmn)
        simp [hnone] at hr

end Answers

/-- An entity as a field holds it. -/
def held (id : Int) : Value := .object [("entity_id", .int id)]

def addFirst : Operation := { owner := .int 10, field := .string "f", action := .known .upsert, projection := held 1 }

/-- A document that somebody adds an entity to after it was read. -/
def rivalled : IndexAnswers where
  read
    | 0 => .ok ⟨.object [], .int 0, .int 1⟩
    | _ + 1 => .ok ⟨.object [("f", .list [held 2])], .int 1, .int 1⟩
  put
    | 0 => .error .conflict
    | _ + 1 => .ok ()

theorem write_attempts_rivalled :
    (write ⟨.string "content", .int 2, .null⟩ rivalled.client (.operation addFirst)).outcome [] =
      ([.get (.string "content") "10",
        .put (.string "content") "10" (.object [("f", .list [held 1])]) (.int 0) (.int 1) [],
        .get (.string "content") "10",
        .put (.string "content") "10" (.object [("f", .list [held 2, held 1])]) (.int 1) (.int 1) []],
        .ok .updated) := by
  have hadded : (Document.perform (.operation addFirst)).outcome (.object [("f", .list [held 2])]) =
      (.object [("f", .list [held 2, held 1])], .ok true) := by with_unfolding_all rfl
  have ha : rivalled.Suit addFirst := by
    refine ⟨fun k f h => ?_, fun k d h => ?_, fun k f h => ?_⟩
    · cases k <;> cases h
    · cases k with
      | zero => cases h; exact ⟨_, true, rfl⟩
      | succ k => cases h; exact ⟨_, true, hadded⟩
    · cases k <;> cases h
      simp [IndexFailure.conflict, IndexFailure.hasStatus]
  obtain ⟨asked, answer, houtcome, -, -, -, -, hends, -⟩ :=
    write_attempts (w := ⟨.string "content", .int 2, .null⟩) (n := 2) rfl (by decide) ha
  have hbefore : ∀ i < 1, rivalled.Conflicts addFirst i := by
    intro i hi
    obtain rfl : i = 0 := by omega
    exact ⟨_, _, _, rfl⟩
  have hcourse : rivalled.course addFirst 1 = .stored (.object [("f", .list [held 2, held 1])])
      ⟨.object [("f", .list [held 2])], .int 1, .int 1⟩ := by
    simp only [IndexAnswers.course, rivalled, hadded]
  obtain ⟨rfl, rfl⟩ := hends 1 (by decide) hbefore .updated (by rw [hcourse]; rfl)
  rw [houtcome, IndexAnswers.requests_succ, hcourse]
  rfl

end Writer

end EdgeFields
