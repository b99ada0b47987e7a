import EdgeFields.Proofs.FieldChange

/-!
# Operations that fail

An operation that fails leaves its document as it was, whatever the operation and the document hold
(`Document.apply_keeps_of_error`): all that can go wrong goes wrong while the document is only looked at, and the
change comes last.
-/

namespace EdgeFields

/-! ### Sessions that change nothing in vain -/

namespace Session

variable {σ τ α β : Type}

/-- A session that only looks at the state. -/
def Reads (m : Session σ α) : Prop := ∀ s, (m.outcome s).1 = s

/-- A session that goes well from every state. -/
def Succeeds (m : Session σ α) : Prop := ∀ s, ∃ s' a, m.outcome s = (s', .ok a)

/-- A session that leaves the state as it was whenever it fails. -/
def Atomic (m : Session σ α) : Prop := ∀ s s' e, m.outcome s = (s', .error e) → s' = s

variable {m : Session σ α} {f : α → Session σ β}

private theorem reads_lift (x : Except Fault α) : (liftM x : Session σ α).Reads := fun _ => rfl

private theorem reads_get : (get : Session σ σ).Reads := fun _ => rfl

private theorem reads_pure (a : α) : (pure a : Session σ α).Reads := fun _ => rfl

private theorem reads_throw (e : Fault) : (throw e : Session σ α).Reads := fun _ => rfl

private theorem succeeds_pure (a : α) : (pure a : Session σ α).Succeeds := fun s => ⟨s, a, rfl⟩

private theorem Succeeds.bind (hm : m.Succeeds) (hf : ∀ a, (f a).Succeeds) : (m >>= f).Succeeds := by
  intro s
  obtain ⟨s₁, a, hout⟩ := hm s
  rw [outcome_bind, hout, continueWith_ok]
  exact hf a s₁

private theorem Reads.atomic (hm : m.Reads) : m.Atomic := by
  intro s s' e h
  have hs := hm s
  rw [h] at hs
  exact hs

private theorem Succeeds.atomic (hm : m.Succeeds) : m.Atomic := by
  intro s s' e h
  obtain ⟨s₁, a, hout⟩ := hm s
  rw [hout] at h
  cases h

/-- What is only looked at before does not matter to whether a session changes anything in vain. -/
private theorem Reads.bind_atomic (hm : m.Reads) (hf : ∀ a, (f a).Atomic) : (m >>= f).Atomic := by
  intro s s' e h
  have hs := hm s
  rw [outcome_bind] at h
  rcases hout : m.outcome s with ⟨s₁, e' | a⟩
  · rw [hout] at h hs
    obtain ⟨rfl, -⟩ := Prod.mk.inj h
    exact hs
  · rw [hout] at h hs
    rw [continueWith_ok] at h
    have hs' := hf a s₁ s' e h
    exact hs'.trans hs

end Session

namespace Document

open Session

variable {op : Operation} {field : Key} {doc : Document}

/-! ### The three actions -/

private theorem reads_current (field : Key) : (current field).Reads := by
  intro doc
  rw [outcome_current]

private theorem succeeds_put (field : Key) (items : List Value) : (put field items).Succeeds :=
  fun doc => ⟨_, _, outcome_put field items doc⟩

private theorem succeeds_drop (field : Key) : (drop field).Succeeds :=
  fun doc => ⟨_, _, outcome_drop field doc⟩

/-- A change that is reported is the last thing that is done. -/
private theorem atomic_reported {m : Session Document Unit} (hm : m.Succeeds) :
    (m >>= fun _ => (pure true : Session Document Bool)).Atomic :=
  (hm.bind fun _ => succeeds_pure true).atomic

private theorem atomic_upsert (field : Key) (op : Operation) : (upsert field op).Atomic := by
  refine (reads_current field).bind_atomic fun v => ?_
  cases v with
  | null => exact (reads_lift _).bind_atomic fun ms => atomic_reported (succeeds_put field _)
  | list items =>
    refine (reads_lift _).bind_atomic fun there => ?_
    cases there with
    | true => exact (reads_pure false).atomic
    | false => exact (reads_lift _).bind_atomic fun ms => atomic_reported (succeeds_put field _)
  | tuple items =>
    refine (reads_lift _).bind_atomic fun there => ?_
    cases there with
    | true => exact (reads_pure false).atomic
    | false => exact (reads_throw _).atomic
  | string _ | object _ => exact (reads_throw _).atomic
  | bool _ | int _ | float _ | thing _ _ | bundle _ | constant _ _ _ => exact (reads_throw _).atomic

private theorem atomic_remove (field : Key) (op : Operation) : (remove field op).Atomic := by
  refine (reads_current field).bind_atomic fun v => ?_
  split
  · exact (reads_pure false).atomic
  · refine (reads_lift _).bind_atomic fun items => (reads_lift _).bind_atomic fun kept => ?_
    split
    · exact atomic_reported (succeeds_drop field)
    · split
      · exact (reads_pure false).atomic
      · exact atomic_reported (succeeds_put field kept)

private theorem atomic_replace (field : Key) (op : Operation) : (replace field op).Atomic := by
  unfold replace
  split
  · refine reads_get.bind_atomic fun doc => ?_
    split
    · exact atomic_reported (succeeds_drop field)
    · exact (reads_pure false).atomic
  · refine (reads_lift _).bind_atomic fun values => (reads_current field).bind_atomic fun v => ?_
    split
    · exact (reads_pure false).atomic
    · exact atomic_reported (succeeds_put field values)

private theorem atomic_apply (op : Operation) : (apply op).Atomic := by
  refine (reads_lift _).bind_atomic fun field => ?_
  split
  · exact atomic_upsert field op
  · exact atomic_remove field op
  · exact atomic_replace field op
  · exact (reads_throw _).atomic

/-- An operation that fails, for whatever it or the document holds, leaves the document as it was. -/
theorem apply_keeps_of_error {doc' : Document} {e : Fault} (h : (apply op).outcome doc = (doc', .error e)) :
    doc' = doc :=
  atomic_apply op doc doc' e h

/-- The operation that takes the company `20` from the sponsors of the event `10`. -/
def expelSponsor : Operation where
  owner := .int 10
  field := .string "related_sponsors_company"
  action := .known .remove
  projection := .object [(.string "entity_id", .int 20)]

/-- Sponsors of an event, with a text among them. -/
def mixedSponsors : Document :=
  [(.string "related_sponsors_company", .list [.object [(.string "entity_id", .int 20)], .string "acme",
    .object [(.string "entity_id", .int 30)]])]

/-- The company is found before the text that cannot be asked for its number, and yet it stays. -/
theorem apply_keeps_of_error_mixed :
    ∃ doc', (apply expelSponsor).outcome mixedSponsors = (doc', .error .noMember) ∧ doc' = mixedSponsors := by
  have h : (apply expelSponsor).outcome mixedSponsors =
      (((apply expelSponsor).outcome mixedSponsors).1, .error .noMember) := rfl
  exact ⟨_, h, apply_keeps_of_error h⟩

end Document

end EdgeFields
