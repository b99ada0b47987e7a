import EdgeFields.Proofs.FieldChange
import EdgeFields.Proofs.Replay
import Mathlib.Logic.Function.Basic
import Mathlib.Logic.Relation

/-!
# Concurrent writes

Any number of conditional writes, and other writers that change documents in one step, share an index.  Each step
gives one write its next reply, or carries out one operation as a whole (`Shared.Step`).  The index accepts a
document only under the sequence number and the primary term of its latest version, and no version gets those of an
earlier one.

`Shared.Inv` is what every step preserves.  A write that waits for its document to be stored holds the result of its
operation on a version of the document; the index accepts it only if that version is still the latest, and so
everything that is committed is an operation on the latest version (`Shared.no_lost_update`).
-/

namespace EdgeFields

/-- A write: an operation, and how it is written. -/
structure Job where
  writer : Writer
  op : Operation

/-- Where a write stands after some replies. -/
def Job.standing (j : Job) (replies : List Reply) : Standing := j.writer.standing (.operation j.op) replies

/-- The document that a write is for. -/
def Job.id (j : Job) : String := j.op.owner.toText

/-- An operation on one of the given fields, of a known action and with objects for projections. -/
def Operation.On (fields : Key → Prop) (op : Operation) : Prop := ∃ k a, fields k ∧ op.Plain k a

/-- Operations keep the fields that they are for as they have to be. -/
private theorem Operation.On.plainField_after {fields : Key → Prop} {op : Operation} (h : op.On fields)
    {doc : Document}
    (hd : ∀ k, fields k → doc.PlainField k) {k : Key} (hk : fields k) : (doc.after op).PlainField k := by
  obtain ⟨k', a, hk', hop⟩ := h
  exact (hd k hk).after hop (hd k' hk')

/-- A write of such an operation with at least one attempt. -/
structure Job.On (fields : Key → Prop) (j : Job) : Prop where
  attempts : ∃ n, j.writer.maxAttempts = .int n ∧ 1 ≤ n
  op : j.op.On fields

/-- A version of a document in the index. -/
structure Version where
  source : Document
  seqNo : Int
  primaryTerm : Int

/-- What a conditional write names a version by. -/
def Version.stamp (v : Version) : Int × Int := (v.seqNo, v.primaryTerm)

/-- A version as it is read. -/
def Version.fetched (v : Version) : Fetched := ⟨.object v.source, some (.int v.seqNo), some (.int v.primaryTerm)⟩

/-- An operation that was carried out on a document, by one of the writes or by another writer. -/
structure Commit (ι : Type) where
  id : String
  op : Operation
  writer : Option ι

/-- An index that writes share: the versions of each document, the latest first; the operations carried out so far;
the replies that each write has got, and how many operations had been carried out when it last read its document. -/
structure Shared (ι : Type) where
  versions : String → List Version
  log : List (Commit ι) := []
  replies : ι → List Reply := fun _ => []
  seen : ι → Nat := fun _ => 0

namespace Shared

variable {ι : Type}

/-- An index with these documents, before any write. -/
def start (documents : String → Option Version) : Shared ι where
  versions id := (documents id).toList

/-- The operations carried out on a document. -/
def opsOn (log : List (Commit ι)) (id : String) : List Operation :=
  (log.filter fun c => c.id = id).map Commit.op

/-- What a document becomes when the operations of a log are applied to it in order. -/
def history (documents : String → Option Version) (log : List (Commit ι)) (id : String) : Option Document :=
  (documents id).map fun v => (opsOn log id).foldl Document.after v.source

variable [DecidableEq ι]

/-- Gives a write its next reply. -/
def tell (s : Shared ι) (i : ι) (r : Reply) : Shared ι :=
  { s with replies := Function.update s.replies i (s.replies i ++ [r]) }

/-- Stores a new version of a document, the result of an operation. -/
def commit (s : Shared ι) (c : Commit ι) (v : Version) : Shared ι :=
  { s with versions := Function.update s.versions c.id (v :: s.versions c.id), log := s.log ++ [c] }

/-- What a write has committed. -/
def commitsBy (s : Shared ι) (i : ι) : List (Commit ι) :=
  s.log.filter fun c => c.writer = some i

/-- One step of a write or of another writer. -/
inductive Step (jobs : ι → Job) (fields : Key → Prop) : Shared ι → Shared ι → Prop
  /-- A write reads the latest version of its document. -/
  | read {s : Shared ι} {i : ι} {id : String} {v : Version} {vs : List Version}
      (asks : (jobs i).standing (s.replies i) = .asks (.get id)) (found : s.versions id = v :: vs) :
      Step jobs fields s { s.tell i (.fetched v.fetched) with seen := Function.update s.seen i s.log.length }
  /-- A write finds no document. -/
  | missing {s : Shared ι} {i : ι} {id : String} {f : IndexFailure}
      (asks : (jobs i).standing (s.replies i) = .asks (.get id)) (absent : s.versions id = [])
      (status : f.hasStatus 404 = true) : Step jobs fields s (s.tell i (.failed f))
  /-- The index stores a document because the version that was read is the latest. -/
  | store {s : Shared ι} {i : ι} {id : String} {v v' : Version} {vs : List Version}
      (asks : (jobs i).standing (s.replies i) =
        .asks (.put id (.object v'.source) (.int v.seqNo) (.int v.primaryTerm)))
      (latest : s.versions id = v :: vs) (fresh : ∀ u ∈ s.versions id, u.stamp ≠ v'.stamp) :
      Step jobs fields s ((s.commit ⟨id, (jobs i).op, some i⟩ v').tell i .stored)
  /-- The index refuses a document because another version is the latest. -/
  | refuse {s : Shared ι} {i : ι} {id : String} {source : Value} {seqNo primaryTerm : Int} {f : IndexFailure}
      (asks : (jobs i).standing (s.replies i) = .asks (.put id source (.int seqNo) (.int primaryTerm)))
      (stale : ∀ v, (s.versions id).head? = some v → v.stamp ≠ (seqNo, primaryTerm))
      (status : f.hasStatus 409 = true) : Step jobs fields s (s.tell i (.failed f))
  /-- Another writer carries out an operation on the latest version in one step. -/
  | change {s : Shared ι} {id : String} {op : Operation} {v v' : Version} {vs : List Version} (on : op.On fields)
      (latest : s.versions id = v :: vs) (result : v'.source = v.source.after op)
      (fresh : ∀ u ∈ s.versions id, u.stamp ≠ v'.stamp) :
      Step jobs fields s (s.commit ⟨id, op, none⟩ v')
  /-- Another writer carries out an operation that leaves the latest version as it is. -/
  | keep {s : Shared ι} {id : String} {op : Operation} {v : Version} {vs : List Version} (on : op.On fields)
      (latest : s.versions id = v :: vs) (result : v.source.after op = v.source) :
      Step jobs fields s { s with log := s.log ++ [⟨id, op, none⟩] }

/-! ### What every step preserves -/

/-- What is known of a write from where it stands. -/
def Stands (jobs : ι → Job) (documents : String → Option Version) (s : Shared ι) (i : ι) : Prop :=
  match (jobs i).standing (s.replies i) with
  | .asks (.get _) => s.commitsBy i = []
  | .asks (.put id source seqNo primaryTerm) => s.commitsBy i = [] ∧
    ∃ v ∈ s.versions id, source = .object (v.source.after (jobs i).op) ∧
      seqNo = .int v.seqNo ∧ primaryTerm = .int v.primaryTerm
  | .returned .updated => s.commitsBy i = [⟨(jobs i).id, (jobs i).op, some i⟩]
  | .returned .noop => s.commitsBy i = [] ∧
    ∃ doc, history documents (s.log.take (s.seen i)) (jobs i).id = some doc ∧
      (Document.apply (jobs i).op).outcome doc = (doc, .ok false)
  | .returned .notFound => s.commitsBy i = []
  | .raised f => s.commitsBy i = [] ∧ ∃ g, f = .index g ∧ g.hasStatus 409 = true

/-- What every step preserves. -/
structure Inv (jobs : ι → Job) (fields : Key → Prop) (documents : String → Option Version) (s : Shared ι) : Prop where
  source : ∀ id, (s.versions id).head?.map Version.source = history documents s.log id
  stamps : ∀ id, (s.versions id).Pairwise fun u v => u.stamp ≠ v.stamp
  plain : ∀ id, ∀ v ∈ s.versions id, ∀ k, fields k → v.source.PlainField k
  seen : ∀ i, s.seen i ≤ s.log.length
  stands : ∀ i, s.Stands jobs documents i

variable {jobs : ι → Job} {fields : Key → Prop} {documents : String → Option Version} {s : Shared ι}

omit [DecidableEq ι] in
private theorem history_append (log : List (Commit ι)) (c : Commit ι) :
    history documents (log ++ [c]) c.id = (history documents log c.id).map (·.after c.op) := by
  simp [history, opsOn, Function.comp_def]

omit [DecidableEq ι] in
private theorem history_append_of_ne (log : List (Commit ι)) {c : Commit ι} {id : String} (h : id ≠ c.id) :
    history documents (log ++ [c]) id = history documents log id := by
  simp [history, opsOn, Ne.symm h]

/-- What is known of a write outlasts the steps of others: versions stay, and others commit nothing of it. -/
private theorem Stands.frame {i : ι} (h : s.Stands jobs documents i) (hseen : s.seen i ≤ s.log.length) {s' : Shared ι}
    (hr : s'.replies i = s.replies i) (hs : s'.seen i = s.seen i) (hv : ∀ id, ∀ v ∈ s.versions id, v ∈ s'.versions id)
    (more : List (Commit ι)) (hlog : s'.log = s.log ++ more) (hmore : ∀ c ∈ more, c.writer ≠ some i) :
    s'.Stands jobs documents i := by
  have hcommits : s'.commitsBy i = s.commitsBy i := by
    have hnone : more.filter (fun c => c.writer = some i) = [] := by
      rw [List.filter_eq_nil_iff]
      intro c hc
      simpa using hmore c hc
    rw [commitsBy, hlog, List.filter_append, hnone, List.append_nil]
    rfl
  have htake : s'.log.take (s.seen i) = s.log.take (s.seen i) := by
    rw [hlog, List.take_append_of_le_length hseen]
  unfold Stands at h ⊢
  rw [hr, hs, hcommits, htake]
  generalize (jobs i).standing (s.replies i) = standing at h ⊢
  match standing, h with
  | .asks (.get _), h => exact h
  | .asks (.put _ _ _ _), ⟨h, v, hmem, hrest⟩ => exact ⟨h, v, hv _ v hmem, hrest⟩
  | .returned .updated, h => exact h
  | .returned .noop, h => exact h
  | .returned .notFound, h => exact h
  | .raised _, h => exact h

private theorem Inv.start (hj : ∀ i, (jobs i).On fields)
    (hd : ∀ id v, documents id = some v → ∀ k, fields k → v.source.PlainField k) :
    (start documents : Shared ι).Inv jobs fields documents where
  source id := by
    cases h : documents id <;> simp [Shared.start, history, opsOn, h]
  stamps id := by
    cases h : documents id <;> simp [Shared.start, h]
  plain id v hv := hd id v (by simpa [Shared.start] using hv)
  seen i := Nat.le_refl 0
  stands i := by
    obtain ⟨n, hn, h1⟩ := (hj i).attempts
    have hasks : (jobs i).standing [] = .asks (.get (jobs i).id) := Writer.standing_nil hn h1
    unfold Stands
    rw [show (Shared.start documents : Shared ι).replies i = [] from rfl, hasks]
    rfl

private theorem Inv.of_told (h : s.Inv jobs fields documents) {s' : Shared ι} (hv : s'.versions = s.versions)
    (hl : s'.log = s.log) {i : ι} (hr : ∀ j, j ≠ i → s'.replies j = s.replies j)
    (hs : ∀ j, j ≠ i → s'.seen j = s.seen j) (hi : s'.seen i ≤ s.log.length) (hstands : s'.Stands jobs documents i) :
    s'.Inv jobs fields documents where
  source := by rw [hv, hl]; exact h.source
  stamps := by rw [hv]; exact h.stamps
  plain := by rw [hv]; exact h.plain
  seen j := by
    rw [hl]
    by_cases hj : j = i
    · rw [hj]; exact hi
    · rw [hs j hj]; exact h.seen j
  stands j := by
    by_cases hj : j = i
    · rw [hj]; exact hstands
    · exact (h.stands j).frame (h.seen j) (hr j hj) (hs j hj) (by rw [hv]; exact fun _ _ h => h) []
        (by rw [hl, List.append_nil]) (by simp)

/-- The result of an operation on the latest version of a document can be stored as a new version. -/
private theorem Inv.of_committed (h : s.Inv jobs fields documents) {c : Commit ι} {v v' : Version} {vs : List Version}
    (hon : c.op.On fields) (hlatest : s.versions c.id = v :: vs) (hresult : v'.source = v.source.after c.op)
    (hfresh : ∀ u ∈ s.versions c.id, u.stamp ≠ v'.stamp) {s' : Shared ι}
    (hv : s'.versions = Function.update s.versions c.id (v' :: s.versions c.id)) (hl : s'.log = s.log ++ [c])
    (hs : s'.seen = s.seen) (hr : ∀ j, c.writer ≠ some j → s'.replies j = s.replies j)
    (hstands : ∀ j, c.writer = some j → s'.Stands jobs documents j) : s'.Inv jobs fields documents where
  source id := by
    rw [hv, hl]
    by_cases hid : id = c.id
    · subst hid
      have hsource := h.source c.id
      rw [hlatest] at hsource
      rw [Function.update_self, history_append, ← hsource]
      simp [hresult]
    · rw [Function.update_of_ne hid, history_append_of_ne _ hid]
      exact h.source id
  stamps id := by
    rw [hv]
    by_cases hid : id = c.id
    · subst hid
      rw [Function.update_self, List.pairwise_cons]
      exact ⟨fun u hu => (hfresh u hu).symm, h.stamps c.id⟩
    · rw [Function.update_of_ne hid]
      exact h.stamps id
  plain id u hu k hk := by
    rw [hv] at hu
    by_cases hid : id = c.id
    · subst hid
      rw [Function.update_self, List.mem_cons] at hu
      rcases hu with rfl | hu
      · rw [hresult]
        exact hon.plainField_after (h.plain c.id v (by simp [hlatest])) hk
      · exact h.plain c.id u hu k hk
    · rw [Function.update_of_ne hid] at hu
      exact h.plain id u hu k hk
  seen j := by
    rw [hs, hl, List.length_append]
    exact Nat.le_add_right_of_le (h.seen j)
  stands j := by
    by_cases hj : c.writer = some j
    · exact hstands j hj
    · refine (h.stands j).frame (h.seen j) (hr j hj) (by rw [hs]) (fun id u hu => ?_) [c] hl (by simpa using hj)
      rw [hv]
      by_cases hid : id = c.id
      · subst hid
        rw [Function.update_self]
        exact List.mem_cons_of_mem _ hu
      · rwa [Function.update_of_ne hid]

section Steps

variable (h : s.Inv jobs fields documents) {i : ι} (hj : (jobs i).On fields) {id : String}
include h hj

/-- A write that has read its document ends with no change, or holds the result of its operation on that version. -/
private theorem Inv.read (asks : (jobs i).standing (s.replies i) = .asks (.get id)) {v : Version} {vs : List Version}
    (found : s.versions id = v :: vs) :
    Inv jobs fields documents
      { s.tell i (.fetched v.fetched) with seen := Function.update s.seen i s.log.length } := by
  obtain ⟨n, hn, -⟩ := hj.attempts
  obtain ⟨k, a, hk, hop⟩ := hj.op
  obtain rfl : id = (jobs i).id := Writer.eq_of_standing_get hn asks
  have hmem : v ∈ s.versions (jobs i).id := by simp [found]
  obtain ⟨changed, happly, hsame⟩ := Document.outcome_apply hop (h.plain _ v hmem k hk)
  have hnext : (jobs i).standing (s.replies i ++ [.fetched v.fetched]) = _ := Writer.standing_fetched hn asks happly
  have hstands := h.stands i
  unfold Stands at hstands
  rw [asks] at hstands
  refine h.of_told rfl rfl (fun j hj => Function.update_of_ne hj ..) (fun j hj => Function.update_of_ne hj ..)
    (by simp) ?_
  unfold Stands
  dsimp only [tell]
  rw [Function.update_self, Function.update_self, hnext, List.take_length]
  cases changed with
  | true => exact ⟨hstands, v, hmem, rfl, rfl, rfl⟩
  | false =>
    refine ⟨hstands, v.source, ?_, by rw [happly, hsame rfl]⟩
    rw [← h.source, found]
    rfl

private theorem Inv.missing (asks : (jobs i).standing (s.replies i) = .asks (.get id)) {f : IndexFailure}
    (status : f.hasStatus 404 = true) : (s.tell i (.failed f)).Inv jobs fields documents := by
  obtain ⟨n, hn, -⟩ := hj.attempts
  have hnext : (jobs i).standing (s.replies i ++ [.failed f]) = _ := Writer.standing_missing hn asks status
  have hstands := h.stands i
  unfold Stands at hstands
  rw [asks] at hstands
  refine h.of_told rfl rfl (fun j hj => Function.update_of_ne hj ..) (fun j _ => rfl) (h.seen i) ?_
  unfold Stands
  dsimp only [tell]
  rw [Function.update_self, hnext]
  exact hstands

/-- What a write stores is the result of its operation on the latest version, because the version that it read is the
only one of its stamp. -/
private theorem Inv.store {v v' : Version} (asks : (jobs i).standing (s.replies i) =
      .asks (.put id (.object v'.source) (.int v.seqNo) (.int v.primaryTerm))) {vs : List Version}
    (latest : s.versions id = v :: vs) (fresh : ∀ u ∈ s.versions id, u.stamp ≠ v'.stamp) :
    ((s.commit ⟨id, (jobs i).op, some i⟩ v').tell i .stored).Inv jobs fields documents := by
  obtain ⟨n, hn, -⟩ := hj.attempts
  obtain rfl : id = (jobs i).id := Writer.eq_of_standing_put hn asks
  have hnext : (jobs i).standing (s.replies i ++ [.stored]) = _ := Writer.standing_stored hn asks
  have hstands := h.stands i
  unfold Stands at hstands
  rw [asks] at hstands
  obtain ⟨hnone, u, hu, hsource, hseqNo, hterm⟩ := hstands
  have hstamp : u.stamp = v.stamp := by
    rw [Version.stamp, Version.stamp, Value.int.inj hseqNo, Value.int.inj hterm]
  -- No two versions share a stamp, so the version that was read is still the latest.
  have huv : u = v := by
    have hpair := h.stamps (jobs i).id
    rw [latest, List.pairwise_cons] at hpair
    rw [latest, List.mem_cons] at hu
    exact hu.resolve_right fun hu => hpair.1 u hu hstamp.symm
  subst huv
  refine h.of_committed (c := ⟨(jobs i).id, (jobs i).op, some i⟩) hj.op latest (Value.object.inj hsource) fresh
    rfl rfl rfl (fun j hj => Function.update_of_ne (fun hji => hj (by rw [hji])) ..) ?_
  intro j hij
  obtain rfl : i = j := Option.some.inj hij
  unfold Stands
  dsimp only [tell, commit]
  rw [Function.update_self, hnext]
  change (s.log ++ [_]).filter _ = _
  rw [List.filter_append, show s.log.filter _ = [] from hnone]
  simp

private theorem Inv.refuse {source seqNo primaryTerm : Value}
    (asks : (jobs i).standing (s.replies i) = .asks (.put id source seqNo primaryTerm)) {f : IndexFailure}
    (status : f.hasStatus 409 = true) : (s.tell i (.failed f)).Inv jobs fields documents := by
  obtain ⟨n, hn, -⟩ := hj.attempts
  have hnext := Writer.standing_refused hn asks status
  have hstands := h.stands i
  unfold Stands at hstands
  rw [asks] at hstands
  refine h.of_told rfl rfl (fun j hj => Function.update_of_ne hj ..) (fun j _ => rfl) (h.seen i) ?_
  unfold Stands
  dsimp only [tell]
  rw [Function.update_self]
  rcases hnext with hnext | hnext
  · rw [show (jobs i).standing _ = _ from hnext]
    exact hstands.1
  · rw [show (jobs i).standing _ = _ from hnext]
    exact ⟨hstands.1, f, rfl, status⟩

end Steps

/-- An operation that leaves the latest version as it is needs no new version. -/
private theorem Inv.keep (h : s.Inv jobs fields documents) {id : String} {op : Operation} {v : Version}
    {vs : List Version} (latest : s.versions id = v :: vs) (result : v.source.after op = v.source) :
    Inv jobs fields documents { s with log := s.log ++ [⟨id, op, none⟩] } where
  source id' := by
    dsimp only
    by_cases hid : id' = id
    · subst hid
      have hsource := h.source id'
      rw [latest] at hsource
      rw [history_append s.log ⟨id', op, none⟩, ← hsource, latest]
      simp [result]
    · rw [history_append_of_ne _ hid]
      exact h.source id'
  stamps := h.stamps
  plain := h.plain
  seen j := by
    rw [List.length_append]
    exact Nat.le_add_right_of_le (h.seen j)
  stands j := (h.stands j).frame (h.seen j) rfl rfl (fun _ _ hu => hu) _ rfl (by simp)

/-- Every step preserves the invariant. -/
private theorem Inv.step (hj : ∀ i, (jobs i).On fields) (h : s.Inv jobs fields documents) {s' : Shared ι}
    (hs : Step jobs fields s s') : s'.Inv jobs fields documents := by
  cases hs with
  | @read i id v vs asks found => exact h.read (hj i) asks found
  | @missing i id f asks absent status => exact h.missing (hj i) asks status
  | @store i id v v' vs asks latest fresh => exact h.store (hj i) asks latest fresh
  | @refuse i id source seqNo primaryTerm f asks stale status => exact h.refuse (hj i) asks status
  | @change id op v v' vs on latest result fresh =>
    exact h.of_committed (c := ⟨id, op, none⟩) on latest result fresh rfl rfl rfl (fun _ _ => rfl) (by simp)
  | @keep id op v vs on latest result => exact h.keep latest result

/-- Every state that is reached from an index before any write has the invariant. -/
private theorem Inv.of_reachable (hj : ∀ i, (jobs i).On fields)
    (hd : ∀ id v, documents id = some v → ∀ k, fields k → v.source.PlainField k)
    (hr : Relation.ReflTransGen (Step jobs fields) (Shared.start documents) s) : s.Inv jobs fields documents := by
  induction hr with
  | refl => exact .start hj hd
  | tail _ hs ih => exact ih.step hj hs

/-- No update is lost.  Each document is what the committed operations make of it, in the order of their commits; a
write that was answered with an update has committed its operation exactly once, and one that ended otherwise never
has; without a change it ended on a document, the latest at its last read, that its operation leaves as it is; and a
write fails with a conflict only. -/
theorem no_lost_update (hj : ∀ i, (jobs i).On fields)
    (hd : ∀ id v, documents id = some v → ∀ k, fields k → v.source.PlainField k)
    (hr : Relation.ReflTransGen (Step jobs fields) (Shared.start documents) s) :
    (∀ id, (s.versions id).head?.map Version.source = history documents s.log id) ∧
      ∀ i, match (jobs i).standing (s.replies i) with
        | .asks _ => s.commitsBy i = []
        | .returned .updated => s.commitsBy i = [⟨(jobs i).id, (jobs i).op, some i⟩]
        | .returned .noop => s.commitsBy i = [] ∧
          ∃ doc, history documents (s.log.take (s.seen i)) (jobs i).id = some doc ∧
            (Document.apply (jobs i).op).outcome doc = (doc, .ok false)
        | .returned .notFound => s.commitsBy i = []
        | .raised f => s.commitsBy i = [] ∧ ∃ g, f = .index g ∧ g.hasStatus 409 = true := by
  have h := Inv.of_reachable hj hd hr
  refine ⟨h.source, fun i => ?_⟩
  have hstands := h.stands i
  unfold Stands at hstands
  generalize (jobs i).standing (s.replies i) = standing at hstands ⊢
  match standing, hstands with
  | .asks (.get _), hstands => exact hstands
  | .asks (.put _ _ _ _), hstands => exact hstands.1
  | .returned .updated, hstands => exact hstands
  | .returned .noop, hstands => exact hstands
  | .returned .notFound, hstands => exact hstands
  | .raised _, hstands => exact hstands

/-- Two writes that add different entities to one field. -/
def rivals (i : Bool) : Job where
  writer := { indexName := .string "content" }
  op := {
    owner := .string "10"
    field := .string "f"
    action := .known .upsert
    projection := .object [("entity_id", .int (if i then 1 else 2))] }

/-- One empty document. -/
def single (id : String) : Option Version := if id = "10" then some ⟨[], 5, 1⟩ else none

theorem no_lost_update_rivals : ∃ s : Shared Bool,
    Relation.ReflTransGen (Step rivals (· = .string "f")) (start single) s ∧
      (s.versions "10").head?.map Version.source = some [(Key.string "f", .list [.object [("entity_id", .int 1)]])] ∧
      s.commitsBy true = [⟨"10", (rivals true).op, some true⟩] ∧ s.commitsBy false = [] := by
  have hj : ∀ i, (rivals i).On (· = .string "f") := fun i =>
    ⟨⟨5, rfl, by decide⟩, .string "f", .upsert, rfl, rfl, rfl, fun _ => ⟨_, rfl⟩, by simp⟩
  have hd : ∀ id v, single id = some v → ∀ k, k = Key.string "f" → v.source.PlainField k := by
    intro id v hv k _
    unfold single at hv
    split at hv
    · obtain rfl := Option.some.inj hv
      exact .inl rfl
    · contradiction
  have h₁ := Relation.ReflTransGen.single
    (@Step.read _ _ rivals (· = .string "f") (start single) true "10" ⟨[], 5, 1⟩ [] rfl rfl)
  have h₂ := h₁.tail (@Step.read _ _ _ _ _ false "10" ⟨[], 5, 1⟩ [] rfl rfl)
  have h₃ := h₂.tail (@Step.store _ _ _ _ _ true "10" ⟨[], 5, 1⟩
    ⟨[(Key.string "f", .list [.object [("entity_id", .int 1)]])], 6, 1⟩ [] rfl rfl
    (by simp [Version.stamp, tell, start, single]))
  obtain ⟨hsource, hwrites⟩ := no_lost_update hj hd h₃
  exact ⟨_, h₃, rfl, hwrites true, hwrites false⟩

end Shared

end EdgeFields
