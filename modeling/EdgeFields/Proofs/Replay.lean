import EdgeFields.Index.Writer
import EdgeFields.Proofs.Outcome

/-!
# Writes as conversations

A conditional write talks to the index only through its requests and the replies to them.  Run on the replies so far,
it either asks for one more or has ended: this is where it stands (`Writer.standing`).  A request is followed by one
step only: `standing_fetched`, `standing_missing`, `standing_stored` and `standing_refused` say where a write stands
after each reply.
-/

namespace EdgeFields

/-- A reply of the index to a write. -/
inductive Reply where
  | fetched (d : Fetched)
  | stored
  | failed (f : IndexFailure)

/-- A request of a write. -/
inductive Asked where
  | get (id : String)
  | put (id : String) (source seqNo primaryTerm : Value)

/-- Replies that are still to be given, and the request that found none. -/
structure Replay where
  replies : List Reply
  asked : Option Asked := none

namespace Replay

/-- Answers a request with the next reply; without one the run ends there. -/
def answer {α : Type} (a : Asked) (take : Reply → Except Fault α) : Session Replay α := fun s =>
  match s.replies with
  | [] => (⟨[], some a⟩, throw .wrongType)
  | r :: rest => (⟨rest, none⟩, ⟨[], take r⟩)

/-- An index that gives the replies in order.  A reply that is none to the request is a fault. -/
def client : Client Replay where
  get _ id := answer (.get id) fun
    | .fetched d => .ok d
    | .failed f => .error (.index f)
    | .stored => .error .wrongType
  put _ id source seqNo primaryTerm _ := answer (.put id source seqNo primaryTerm) fun
    | .stored => .ok ()
    | .failed f => .error (.index f)
    | .fetched _ => .error .wrongType
  bulk _ _ := throw .wrongType
  putMapping _ _ := throw .wrongType
  describe _ := throw .wrongType

@[simp] theorem outcome_answer_nil {α : Type} (a : Asked) (take : Reply → Except Fault α) (asked : Option Asked) :
    (answer a take).outcome ⟨[], asked⟩ = (⟨[], some a⟩, .error .wrongType) := rfl

@[simp] theorem outcome_answer_cons {α : Type} (a : Asked) (take : Reply → Except Fault α) (r : Reply)
    (rest : List Reply) (asked : Option Asked) :
    (answer a take).outcome ⟨r :: rest, asked⟩ = (⟨rest, none⟩, take r) := rfl

end Replay

/-- Where a write stands: it waits for a reply, or it has ended. -/
inductive Standing where
  | asks (a : Asked)
  | returned (r : Written)
  | raised (f : Fault)

/-- Where the outcome of a run on some replies leaves a write. -/
def Standing.of : Replay × Except Fault Written → Standing
  | (⟨_, some a⟩, _) => asks a
  | (⟨_, none⟩, .ok r) => returned r
  | (⟨_, none⟩, .error f) => raised f

namespace Writer

/-- Where the write of an item stands after some replies. -/
def standing (w : Writer) (item : BatchItem) (replies : List Reply) : Standing :=
  .of ((w.write Replay.client item).outcome ⟨replies, none⟩)

/-! ### One attempt after another -/

/-- Where a write stands after some replies, with a number of attempts left. -/
def phase (id : String) (item : BatchItem) : Nat → List Reply → Standing
  | 0, _ => .returned .noop
  | _ + 1, [] => .asks (.get id)
  | _ + 1, .stored :: _ => .raised .wrongType
  | _ + 1, .failed f :: _ => if f.hasStatus 404 then .returned .notFound else .raised (.index f)
  | left + 1, .fetched d :: rest =>
    match (Document.perform item).outcome d.source with
    | (_, .error f) => .raised f
    | (_, .ok false) => .returned .noop
    | (source, .ok true) =>
      match told d.seqNo, told d.primaryTerm with
      | .error f, _ => .raised f
      | .ok _, .error f => .raised f
      | .ok seqNo, .ok primaryTerm =>
        match rest with
        | [] => .asks (.put id source seqNo primaryTerm)
        | .stored :: _ => .returned .updated
        | .fetched _ :: _ => .raised .wrongType
        | .failed f :: rest =>
          if !f.hasStatus 409 then .raised (.index f)
          else if left = 0 then .raised (.index f)
          else phase id item left rest

variable {w : Writer} {id : String} {item : BatchItem} {asked : Option Asked}

private theorem outcome_read_nil :
    (w.read Replay.client id).outcome ⟨[], asked⟩ = (⟨[], some (.get id)⟩, .error .wrongType) := by
  simp [read, Replay.client]

private theorem outcome_read_cons (r : Reply) (rest : List Reply) :
    (w.read Replay.client id).outcome ⟨r :: rest, asked⟩ = (⟨rest, none⟩,
      match r with
      | .fetched d => .ok (some d)
      | .failed f => if f.hasStatus 404 then .ok none else .error (.index f)
      | .stored => .error .wrongType) := by
  cases r with
  | fetched d => simp [read, Replay.client]
  | failed f => cases h : f.hasStatus 404 <;> simp [read, Replay.client, h]
  | stored => simp [read, Replay.client]

section PutBack

variable {d : Fetched} {source seqNo primaryTerm : Value} (hs : told d.seqNo = .ok seqNo)
  (hp : told d.primaryTerm = .ok primaryTerm) (last : Bool)
include hs hp

private theorem outcome_putBack_nil : (w.putBack Replay.client id d source last).outcome ⟨[], asked⟩ =
    (⟨[], some (.put id source seqNo primaryTerm)⟩, .error .wrongType) := by
  simp [putBack, Replay.client, hs, hp]

private theorem outcome_putBack_cons (r : Reply) (rest : List Reply) :
    (w.putBack Replay.client id d source last).outcome ⟨r :: rest, asked⟩ = (⟨rest, none⟩,
      match r with
      | .fetched _ => .error .wrongType
      | .failed f => if !f.hasStatus 409 then .error (.index f) else if last then .error (.index f) else .ok false
      | .stored => .ok true) := by
  cases r with
  | fetched d => simp [putBack, Replay.client, hs, hp]
  | failed f => cases h : f.hasStatus 409 <;> cases last <;> simp [putBack, Replay.client, hs, hp, h]
  | stored => simp [putBack, Replay.client, hs, hp]

end PutBack

private theorem of_outcome_attempt (left : Nat) (replies : List Reply) :
    Standing.of ((w.attempt Replay.client id item left).outcome ⟨replies, none⟩) = phase id item left replies := by
  -- Only a conflict leads to the next attempt; everything else ends the run or waits.
  induction left generalizing replies with
  | zero => rfl
  | succ left ih =>
    rw [attempt, Session.outcome_bind]
    cases replies with
    | nil => rw [outcome_read_nil]; rfl
    | cons r rest =>
      rw [outcome_read_cons]
      cases r with
      | stored => rfl
      | failed f => cases h : f.hasStatus 404 <;> simp [phase, h, Standing.of]
      | fetched d =>
        have hrun : (Document.perform item).outcome d.source =
          (((Document.perform item).run d.source).1, ((Document.perform item).run d.source).2.result) := rfl
        rw [phase, hrun]
        dsimp only
        rw [Session.continueWith_ok]
        dsimp only
        generalize (Document.perform item).run d.source = performed
        obtain ⟨source, notices, result⟩ := performed
        cases result with
        | error f => simp [Standing.of]
        | ok changed =>
          cases changed with
          | false => simp [Standing.of]
          | true =>
            simp only [Session.outcome_bind, Session.outcome_lift_report, Session.continueWith_ok, if_true]
            cases hs : told d.seqNo with
            | error f => simp [putBack, hs, Standing.of]
            | ok seqNo =>
              cases hp : told d.primaryTerm with
              | error f => simp [putBack, hs, hp, Standing.of]
              | ok primaryTerm =>
                cases rest with
                | nil => rw [outcome_putBack_nil hs hp]; rfl
                | cons r rest =>
                  rw [outcome_putBack_cons hs hp]
                  cases r with
                  | stored => rfl
                  | fetched d' => rfl
                  | failed f =>
                    cases h : f.hasStatus 409 with
                    | false => simp [h, Standing.of]
                    | true =>
                      by_cases hleft : left = 0
                      · simp [h, hleft, Standing.of]
                      · simp [h, hleft, ih rest]

private theorem standing_eq_phase {op : Operation} {n : Int} (hn : w.maxAttempts = .int n) (replies : List Reply) :
    w.standing (.operation op) replies = phase op.owner.toText (.operation op) n.toNat replies := by
  rw [standing, ← of_outcome_attempt (w := w), write]
  simp [BatchItem.owner, hn]

/-! ### The next reply -/

/-- What a write with attempts left can be waiting for: the document, in an attempt that only begins, or the answer to
the result of an attempt on a document that was read. -/
private theorem phase_eq_asks {left : Nat} {replies : List Reply} {a : Asked}
    (h : phase id item left replies = .asks a) :
    (a = .get id ∧ ∃ left', ∀ rs, phase id item left (replies ++ rs) = phase id item (left' + 1) rs) ∨
      ∃ d source seqNo primaryTerm, a = .put id source seqNo primaryTerm ∧
        (Document.perform item).outcome d.source = (source, .ok true) ∧
        told d.seqNo = .ok seqNo ∧ told d.primaryTerm = .ok primaryTerm ∧
        ∃ left', ∀ rs, phase id item left (replies ++ rs) = phase id item (left' + 1) (.fetched d :: rs) := by
  induction left generalizing replies with
  | zero => simp [phase] at h
  | succ left ih =>
    cases replies with
    | nil =>
      refine .inl ⟨?_, left, fun rs => rfl⟩
      simpa [phase, eq_comm] using h
    | cons r rest =>
      cases r with
      | stored => simp [phase] at h
      | failed f =>
        rw [phase] at h
        split at h <;> simp at h
      | fetched d =>
        rw [phase] at h
        split at h
        · simp at h
        · simp at h
        · next source hperform =>
          split at h
          · simp at h
          · simp at h
          · next seqNo primaryTerm hs hp =>
            split at h
            · refine .inr ⟨d, source, seqNo, primaryTerm, ?_, hperform, hs, hp, left, fun rs => rfl⟩
              simpa [eq_comm] using h
            · simp at h
            · simp at h
            · next f rest' =>
              split at h
              · simp at h
              · next hf =>
                split at h
                · simp at h
                · next hleft =>
                  -- The conflict is over, and what is asked is asked in a later attempt.
                  have hskip : ∀ rs, phase id item (left + 1) (.fetched d :: .failed f :: rest' ++ rs) =
                      phase id item left (rest' ++ rs) := by
                    intro rs
                    simp [phase, hperform, hs, hp, hf, hleft]
                  rcases ih h with ⟨ha, left', hrs⟩ | ⟨d', source', s', t', ha, hd', hs', ht', left', hrs⟩
                  · exact .inl ⟨ha, left', fun rs => (hskip rs).trans (hrs rs)⟩
                  · exact .inr ⟨d', source', s', t', ha, hd', hs', ht', left', fun rs => (hskip rs).trans (hrs rs)⟩

section Next

variable {op : Operation} {n : Int} (hn : w.maxAttempts = .int n) {replies : List Reply}
include hn

theorem standing_nil (h1 : 1 ≤ n) : w.standing (.operation op) [] = .asks (.get op.owner.toText) := by
  obtain ⟨left, hleft⟩ : ∃ left, n.toNat = left + 1 := ⟨n.toNat - 1, by omega⟩
  rw [standing_eq_phase hn, hleft, phase]

theorem eq_of_standing_get (h : w.standing (.operation op) replies = .asks (.get id)) : id = op.owner.toText := by
  rw [standing_eq_phase hn] at h
  rcases phase_eq_asks h with ⟨ha, -⟩ | ⟨d, source, s, t, ha, -⟩
  · exact Asked.get.inj ha
  · contradiction

/-- A document that was read is written back if the operation changes it. -/
theorem standing_fetched (h : w.standing (.operation op) replies = .asks (.get id)) {doc doc' : Document}
    {seqNo primaryTerm : Value} {changed : Bool} (hd : (Document.apply op).outcome doc = (doc', .ok changed)) :
    w.standing (.operation op) (replies ++ [.fetched ⟨.object doc, some seqNo, some primaryTerm⟩]) =
      if changed then .asks (.put op.owner.toText (.object doc') seqNo primaryTerm) else .returned .noop := by
  have hperform : (Document.perform (.operation op)).outcome (.object doc) = (.object doc', .ok changed) := by
    have h₁ := congrArg Prod.fst hd
    have h₂ := congrArg Prod.snd hd
    exact Prod.ext (congrArg Value.object h₁) h₂
  rw [standing_eq_phase hn] at h ⊢
  rcases phase_eq_asks h with ⟨-, left, hrs⟩ | ⟨d, source, s, t, ha, -⟩
  · rw [hrs, phase, hperform]
    cases changed <;> rfl
  · contradiction

theorem standing_missing (h : w.standing (.operation op) replies = .asks (.get id)) {f : IndexFailure}
    (hf : f.hasStatus 404 = true) : w.standing (.operation op) (replies ++ [.failed f]) = .returned .notFound := by
  rw [standing_eq_phase hn] at h ⊢
  rcases phase_eq_asks h with ⟨-, left, hrs⟩ | ⟨d, source, s, t, ha, -⟩
  · rw [hrs, phase, if_pos hf]
  · contradiction

variable {source seqNo primaryTerm : Value}

theorem eq_of_standing_put (h : w.standing (.operation op) replies = .asks (.put id source seqNo primaryTerm)) :
    id = op.owner.toText := by
  rw [standing_eq_phase hn] at h
  rcases phase_eq_asks h with ⟨ha, -⟩ | ⟨d, source', s, t, ha, -⟩
  · contradiction
  · injection ha

theorem standing_stored (h : w.standing (.operation op) replies = .asks (.put id source seqNo primaryTerm)) :
    w.standing (.operation op) (replies ++ [.stored]) = .returned .updated := by
  rw [standing_eq_phase hn] at h ⊢
  rcases phase_eq_asks h with ⟨ha, -⟩ | ⟨d, source', s, t, -, hperform, hs, ht, left, hrs⟩
  · contradiction
  · rw [hrs, phase, hperform]
    simp [hs, ht]

/-- After a conflict the document is read once more, or the conflict is the end. -/
theorem standing_refused (h : w.standing (.operation op) replies = .asks (.put id source seqNo primaryTerm))
    {f : IndexFailure} (hf : f.hasStatus 409 = true) :
    w.standing (.operation op) (replies ++ [.failed f]) = .asks (.get op.owner.toText) ∨
      w.standing (.operation op) (replies ++ [.failed f]) = .raised (.index f) := by
  rw [standing_eq_phase hn] at h ⊢
  rcases phase_eq_asks h with ⟨ha, -⟩ | ⟨d, source', s, t, -, hperform, hs, ht, left, hrs⟩
  · contradiction
  · rw [hrs, phase, hperform]
    cases left with
    | zero => exact .inr (by simp [hs, ht, hf])
    | succ left => exact .inl (by simp [hs, ht, hf, phase])

end Next

end Writer

end EdgeFields
