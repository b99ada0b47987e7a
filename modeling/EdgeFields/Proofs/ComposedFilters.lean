import EdgeFields.Proofs.FilterMeaning
import EdgeFields.Proofs.FilteredSearch
import EdgeFields.Proofs.Idempotence

/-!
# Composed filters

Filters can be compiled in two turns: a search body with some filters, to which more filters of other fields are
added, is the search body with all of them (`filtered_update`).  Compiling acts on search bodies by lists of
clauses, and lists act one after the other as they do together (`addClauses_append`).  This holds even of bodies
that are no search bodies, for what stops the first turn does not depend on the clauses.
-/

namespace EdgeFields

namespace Assoc

variable {κ α : Type} [BEq κ]

private theorem insert_insert [ReflBEq κ] (k : κ) (a b : α) (m : List (κ × α)) :
    insert k b (insert k a m) = insert k b m := by
  induction m with
  | nil => simp [insert]
  | cons p r ih =>
    cases hk : k == p.1 with
    | true => simp [insert, hk]
    | false => simp [insert, hk, ih]

end Assoc

namespace Filter

/-- What a search body becomes with some filters; it stays as it is where they ask for nothing. -/
def filtered (hooks : Hooks) (active : Record) (base : Value) : Except Fault Value :=
  (·.getD base) <$> compile hooks active base

/-- The members of a search body; a blank one has none. -/
def bodyMembers (base : Value) : Except Fault Record :=
  if base.truthy then
    match base with
    | .object ms => .ok ms
    | v => .error (v.cannot "get")
  else .ok []

/-- A search body with some clauses. -/
def addClauses (cs : List Value) (base : Value) : Except Fault Value := do
  if cs.isEmpty then return base
  let ms ← bodyMembers base
  let query ← merge ((ms.lookup (.string "query")).getD .null) (.list cs)
  return .object (Assoc.insert (.string "query") (.object query) ms)

/-- The queries that clauses can be added to, objects or not: blank ones, any query that is no combination, and the
combinations whose required part is well formed. -/
inductive Mergeable : Value → Prop where
  | blank {q : Value} (h : q.truthy = false) : Mergeable q
  | other {q : Value} (h : isCombination q = .ok false) : Mergeable q
  | combination {k : Key} {parts : Record} (hk : (Key.string "bool" == k) = true)
      (hmust : Entries (parts.lookup (.string "must"))) : Mergeable (.object [(k, .object parts)])

/-- A search body with some clauses added: its other members are as before, and so are the parts of a query that is a
boolean combination, but that the clauses stand behind what it required. -/
structure Extends (cs : List Value) (base body : Value) : Prop where
  members : ∃ ms ms', bodyMembers base = .ok ms ∧ bodyMembers body = .ok ms' ∧
    Assoc.erase (.string "query") ms' = Assoc.erase (.string "query") ms
  parts : ∀ parts, combination? (queryOf base) = some parts → ∃ parts', combination? (queryOf body) = some parts' ∧
    queriesIn "must" parts' = queriesIn "must" parts ++ cs ∧
    Assoc.erase (.string "must") parts' = Assoc.erase (.string "must") parts

/-! ### Clauses of composed filters -/

private theorem clausesOf_append {f g : Record} {cs ds : List Value} (hf : clausesOf f = .ok cs)
    (hg : clausesOf g = .ok ds) : clausesOf (f ++ g) = .ok (cs ++ ds) := by
  induction f generalizing cs with
  | nil =>
    obtain rfl := Except.ok.inj hf
    exact hg
  | cons e f ih =>
    rw [clausesOf_cons] at hf
    obtain ⟨c, hc, hf⟩ := exists_of_bind_eq_ok hf
    obtain ⟨cs', hcs', hf⟩ := exists_of_bind_eq_ok hf
    obtain rfl := Except.ok.inj hf
    rw [List.cons_append, clausesOf_cons, hc, ok_bind, ih hcs', ok_bind, List.append_assoc]
    rfl

private theorem filtered_eq_addClauses {hooks : Hooks} {active : Record} {cs : List Value}
    (hcs : clauses hooks active = .ok cs) (base : Value) : filtered hooks active base = addClauses cs base := by
  rw [filtered, compile, hcs, ok_bind, addClauses]
  cases cs.isEmpty with
  | true => rfl
  | false =>
    simp only [Bool.false_eq_true, if_false, bodyMembers]
    cases base.truthy with
    | false =>
      simp only [Bool.false_eq_true, if_false, ok_bind, map_bind]
      rfl
    | true =>
      cases base with
      | object ms =>
        simp only [if_true, ok_bind, map_bind]
        rfl
      | _ => rfl

/-! ### Clauses added in two turns -/

/-- The only queries that are taken for combinations are objects, and one list. -/
private theorem eq_of_isCombination {q : Value} (h : isCombination q = .ok true) :
    (∃ k v, q = .object [(k, v)] ∧ (Key.string "bool" == k) = true) ∨ q = .list [.string "bool"] := by
  cases q with
  | object ms =>
    simp only [isCombination, Except.ok.injEq, Bool.and_eq_true, beq_iff_eq] at h
    obtain ⟨⟨k, v⟩, rfl⟩ := List.length_eq_one_iff.1 h.2
    refine .inl ⟨k, v, rfl, ?_⟩
    by_contra hk
    rw [Bool.not_eq_true] at hk
    simp [Assoc.contains, Assoc.lookup_cons_of_ne hk] at h
  | list xs =>
    simp only [isCombination, Except.ok.injEq, Bool.and_eq_true, beq_iff_eq] at h
    obtain ⟨x, rfl⟩ := List.length_eq_one_iff.1 h.2
    right
    rw [List.mem_singleton.1 ((Value.isText_string "bool").contains_iff.1 h.1)]
  | _ => cases h

private theorem requiredOf_insert (required : List Value) (parts : Record) :
    requiredOf (Assoc.insert (.string "must") (.list required) parts) = .ok required := by
  rw [requiredOf, Assoc.lookup_insert_self]
  rfl

private theorem merge_merge_combination {k : Key} (hk : (Key.string "bool" == k) = true) (v : Value)
    (cs ds : List Value) :
    (merge (.object [(k, v)]) (.list cs) >>= fun ms => merge (.object ms) (.list ds)) =
      merge (.object [(k, v)]) (.list (cs ++ ds)) := by
  rw [merge_combination cs hk, merge_combination (cs ++ ds) hk]
  cases v.toRecord with
  | error e => rfl
  | ok parts =>
    cases hrequired : requiredOf parts with
    | error e => simp [hrequired]
    | ok required =>
      simp only [hrequired, ok_bind, pure_eq_ok]
      rw [merge_combination ds hk, Value.toRecord_object, ok_bind, requiredOf_insert, ok_bind, Assoc.insert_insert,
        List.append_assoc]
      rfl

/-- Clauses that are merged into any query one list after the other are merged together. -/
private theorem merge_merge (q : Value) (cs ds : List Value) :
    (merge q (.list cs) >>= fun ms => merge (.object ms) (.list ds)) = merge q (.list (cs ++ ds)) := by
  cases ht : q.truthy with
  | false =>
    rw [merge_of_not_truthy _ ht, merge_of_not_truthy _ ht]
    rfl
  | true =>
    cases hc : isCombination q with
    | error e => simp [merge, ht, hc]
    | ok b =>
      cases b with
      | false =>
        rw [merge_of_not_combination _ ht hc, merge_of_not_combination _ ht hc]
        rfl
      | true =>
        rcases eq_of_isCombination hc with ⟨k, v, rfl, hk⟩ | rfl
        · exact merge_merge_combination hk v cs ds
        · -- The list is no list of pairs, so that nothing is merged into it.
          have hrecord : (Value.list [.string "bool"]).toRecord = .error (.pairLength 0 4) := by cbv
          simp [merge, ht, hc, hrecord]

@[simp] theorem bodyMembers_object (ms : Record) : bodyMembers (.object ms) = .ok ms := by
  cases ms <;> rfl

@[simp] theorem addClauses_nil (base : Value) : addClauses [] base = .ok base := rfl

private theorem addClauses_eq {cs : List Value} (hcs : cs ≠ []) {base : Value} {ms : Record}
    (h : bodyMembers base = .ok ms) :
    addClauses cs base = do
      let query ← merge ((ms.lookup (.string "query")).getD .null) (.list cs)
      return .object (Assoc.insert (.string "query") (.object query) ms) := by
  rw [addClauses, List.isEmpty_eq_false_iff.2 hcs, h]
  rfl

/-- Clauses that are added one list after the other are added together. -/
theorem addClauses_append (cs ds : List Value) (base : Value) :
    (addClauses cs base >>= addClauses ds) = addClauses (cs ++ ds) base := by
  -- Without clauses a turn does not even look at the body, so that it cannot fail where the other one does.
  by_cases hcs : cs = []
  · rw [hcs, addClauses_nil, ok_bind, List.nil_append]
  by_cases hds : ds = []
  · rw [hds, List.append_nil]
    cases addClauses cs base <;> rfl
  have hboth : cs ++ ds ≠ [] := List.append_ne_nil_of_left_ne_nil hcs ds
  cases hms : bodyMembers base with
  | error e => simp [addClauses, hms, hcs]
  | ok ms =>
    have hsecond : ∀ query, addClauses ds (.object (Assoc.insert (.string "query") (.object query) ms)) = do
        let query ← merge (.object query) (.list ds)
        return .object (Assoc.insert (.string "query") (.object query) ms) := by
      intro query
      rw [addClauses_eq hds (bodyMembers_object _), Assoc.lookup_insert_self, Option.getD_some]
      simp only [Assoc.insert_insert]
    rw [addClauses_eq hcs hms, addClauses_eq hboth hms, ← merge_merge]
    simp only [bind_assoc, pure_eq_ok, ok_bind, hsecond]

/-! ### Search bodies with clauses -/

private theorem eq_of_combination? {q : Value} {parts : Record} (h : combination? q = some parts) :
    ∃ k, q = .object [(k, .object parts)] := by
  unfold combination? at h
  split at h
  · split at h
    · exact ⟨_, by rw [Option.some.inj h]⟩
    · cases h
  · cases h

/-- Clauses can be added to every mergeable query, and the parts of a combination keep their places. -/
private theorem merge_mergeable {q : Value} (hq : Mergeable q) (cs : List Value) : ∃ ms, merge q (.list cs) = .ok ms ∧
    ∀ parts, combination? q = some parts → combination? (.object ms) = some (require cs parts) := by
  have hblank : q.truthy = false → ∃ ms, merge q (.list cs) = .ok ms ∧
      ∀ parts, combination? q = some parts → combination? (.object ms) = some (require cs parts) := by
    intro h
    refine ⟨_, merge_of_not_truthy cs h, fun parts hparts => ?_⟩
    obtain ⟨k, rfl⟩ := eq_of_combination? hparts
    cases h
  cases hq with
  | blank h => exact hblank h
  | other h =>
    cases ht : q.truthy with
    | false => exact hblank ht
    | true =>
      refine ⟨_, merge_of_not_combination cs ht h, fun parts hparts => ?_⟩
      obtain ⟨k, rfl⟩ := eq_of_combination? hparts
      rw [combination?_of_isCombination h] at hparts
      cases hparts
  | @combination k parts hk hmust =>
    have hold : combination? (.object [(k, .object parts)]) = some parts := by
      rw [combination?, if_pos hk]
    have hnew : combination? (.object [(k, .object (require cs parts))]) = some (require cs parts) := by
      rw [combination?, if_pos hk]
    refine ⟨[(k, .object (require cs parts))], ?_, fun parts' h => ?_⟩
    · rw [merge_combination cs hk, Value.toRecord_object, ok_bind, requiredOf_eq_ok hmust]
      rfl
    · rw [hold] at h
      rw [hnew, Option.some.inj h]

private theorem queryOf_eq {base : Value} {ms : Record} (h : bodyMembers base = .ok ms) :
    queryOf base = (ms.lookup (.string "query")).getD .null := by
  cases base with
  | object ms' =>
    rw [bodyMembers_object] at h
    rw [Except.ok.inj h]
    rfl
  | _ =>
    -- Nothing else has members unless it is blank, and then it has none.
    unfold bodyMembers at h
    split at h
    · cases h
    · obtain rfl := Except.ok.inj h
      rfl

/-- A search body whose query is mergeable takes clauses. -/
private theorem addClauses_extends {base : Value} {ms : Record} (hms : bodyMembers base = .ok ms)
    (hq : Mergeable (queryOf base)) (cs : List Value) :
    ∃ body, addClauses cs base = .ok body ∧ Extends cs base body := by
  by_cases hcs : cs = []
  · refine ⟨base, by rw [hcs]; rfl, ⟨ms, ms, hms, hms, rfl⟩, fun parts h => ⟨parts, h, ?_, rfl⟩⟩
    rw [hcs, List.append_nil]
  · obtain ⟨query, hquery, hparts⟩ := merge_mergeable hq cs
    rw [queryOf_eq hms] at hquery
    refine ⟨_, by rw [addClauses_eq hcs hms, hquery]; rfl, ⟨ms, _, hms, bodyMembers_object _, ?_⟩, fun parts h => ?_⟩
    · exact Assoc.erase_insert _ _ _
    · refine ⟨require cs parts, ?_, queriesIn_require cs parts, Assoc.erase_insert _ _ _⟩
      rw [queryOf, Assoc.lookup_insert_self]
      exact hparts parts h

/-- Compiling filters and then others for different fields is compiling all of them, whatever the body is.  A search
body takes them all, and keeps its other members and the other parts of its boolean combination. -/
theorem filtered_update {hooks : Hooks} (hhooks : hooks.filterQueries = none) {f g : Record} (hf : OfTexts f)
    (hg : OfTexts g) (hfg : Assoc.Distinct (f ++ g)) :
    (∀ base, (filtered hooks f base >>= filtered hooks g) = filtered hooks (Assoc.update f g) base) ∧
      ∀ base ms, bodyMembers base = .ok ms → Mergeable (queryOf base) →
        ∃ cs body, clauses hooks (Assoc.update f g) = .ok cs ∧
          filtered hooks (Assoc.update f g) base = .ok body ∧ Extends cs base body := by
  obtain ⟨cs, hcs⟩ := clausesOf_eq_ok_iff.2 fun e he => hf.readable he
  obtain ⟨ds, hds⟩ := clausesOf_eq_ok_iff.2 fun e he => hg.readable he
  have hboth := clausesOf_append hcs hds
  rw [← clauses_eq_clausesOf hhooks] at hcs hds hboth
  rw [Assoc.update_eq_append hfg]
  constructor
  · intro base
    rw [filtered_eq_addClauses hcs, funext (filtered_eq_addClauses hds), filtered_eq_addClauses hboth,
      addClauses_append]
  · intro base ms hms hq
    obtain ⟨body, hbody, hextends⟩ := addClauses_extends hms hq (cs ++ ds)
    exact ⟨_, body, hboth, (filtered_eq_addClauses hboth base).trans hbody, hextends⟩

/-- A filter for a speaker. -/
def onSpeaker : Record :=
  [(.string "related_speaks_at_person", .string "ada")]

/-- The query for what is published. -/
def published : Value :=
  .object [(.string "term", .object [(.string "status", .string "publish")])]

/-- A search for published entities, best with a title; what it requires stands without a list. -/
def publishedTitled : Value :=
  .object [(.string "query", .object [(.string "bool", .object [(.string "must", published),
    (.string "should", .list [.object [(.string "match", .object [(.string "title", .string "x")])]])])]),
    (.string "size", .int 10)]

/-- The speaker is asked for after the sponsors or along with them, and the search keeps its size and its title. -/
theorem filtered_update_speaker :
    OfTexts onSponsors ∧ OfTexts onSpeaker ∧ Assoc.Distinct (onSponsors ++ onSpeaker) ∧
      Mergeable (queryOf publishedTitled) ∧
      ∃ between body cs ms parts, filtered {} onSponsors publishedTitled = .ok between ∧
        filtered {} onSpeaker between = .ok body ∧
        filtered {} (Assoc.update onSponsors onSpeaker) publishedTitled = .ok body ∧
        clauses {} (Assoc.update onSponsors onSpeaker) = .ok cs ∧
        bodyMembers body = .ok ms ∧ Assoc.erase (.string "query") ms = [(.string "size", .int 10)] ∧
        combination? (queryOf body) = some parts ∧ queriesIn "must" parts = published :: cs ∧
        Assoc.erase (.string "must") parts =
          [(.string "should", .list [.object [(.string "match", .object [(.string "title", .string "x")])]])] := by
  have hspeaker : OfTexts onSpeaker := by
    refine ⟨?_, ?_, by decide⟩
    · simp [onSpeaker]
    · simp [onSpeaker, IsRequested]
  have hdistinct : Assoc.Distinct (onSponsors ++ onSpeaker) := by
    simp [Assoc.Distinct, Assoc.keys, onSponsors, onSpeaker]
  have hquery : Mergeable (queryOf publishedTitled) := .combination rfl (.single _)
  obtain ⟨hcompose, htakes⟩ := @filtered_update {} rfl _ _ ofTexts_onSponsors hspeaker hdistinct
  obtain ⟨cs, body, hcs, hboth, ⟨ms, ms', hms, hms', hmembers⟩, hparts⟩ := htakes publishedTitled _ rfl hquery
  obtain ⟨between, hfirst, hsecond⟩ := exists_of_bind_eq_ok ((hcompose publishedTitled).trans hboth)
  obtain ⟨parts, hcombination, hmust, hrest⟩ := hparts _ rfl
  obtain rfl := Except.ok.inj hms
  exact ⟨ofTexts_onSponsors, hspeaker, hdistinct, hquery, between, body, cs, ms', parts, hfirst, hsecond, hboth, hcs,
    hms', hmembers, hcombination, hmust, hrest⟩

end Filter

end EdgeFields
