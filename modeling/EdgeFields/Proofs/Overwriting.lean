import EdgeFields.Proofs.FullIndex
import EdgeFields.Proofs.Resync

/-!
# Overwriting

There are two ways to bring the relationship fields of a document up to date: to write it as a whole with the fields
of its entity, or to carry out the replacements that mend it.  They differ on fields that nothing is related under
any more, which a whole write keeps and the replacements drop; everywhere else they agree
(`Gateway.augment_agrees_iff`).
-/

namespace EdgeFields

namespace Assoc

variable {κ α : Type} [BEq κ] [EquivBEq κ]

private theorem distinct_update {m : List (κ × α)} (hm : Distinct m) (m' : List (κ × α)) :
    Distinct (update m m') := by
  induction m' generalizing m with
  | nil => exact hm
  | cons p r ih => exact ih (distinct_insert hm p.1 p.2)

end Assoc

namespace Gateway

variable {σ : Type} {g : Gateway} {h : Host} {e : Entity} {ds : List Definition} {size : Related → Int}
  {fields : Fields}

/-- Writing a document as a whole sets the fields of its entity in it. -/
private theorem outcome_augment {s : GatewayState σ} {engine' : Engine}
    (hfull : (Engine.fullIndex g.projector h.source h.store e).outcome s.engine = (engine', .ok fields))
    (doc : Document) : (g.augment h e (.object doc)).outcome s = ({ s with engine := engine' },
      .ok (if fields.isEmpty then none else some (.object (Assoc.update doc (fieldRecord fields))))) := by
  simp only [augment, Session.outcome_bind, outcome_onEngine hfull, Session.continueWith_ok]
  split <;> rfl

private theorem getD_augmented (fields : Fields) (doc : Document) :
    (if fields.isEmpty then none else some (.object (Assoc.update doc (fieldRecord fields))) : Option Value).getD
      (.object doc) = .object (Assoc.update doc (fieldRecord fields)) := by
  cases fields <;> rfl

section Document

variable {p : Projector} {store : Store} {id : Int} {rs : List Related} {doc : Document}

/-- A whole write sets the fields that something is related under, and keeps all else. -/
private theorem lookup_update_of_mem (hf : p.Shows (p.entries store size id) rs fields) {r : Related} (hr : r ∈ rs) :
    (Assoc.update doc (fieldRecord fields)).lookup (.string (p.stem ++ FieldKey.body r)) =
      if (p.entries store size id r).isEmpty then doc.lookup (.string (p.stem ++ FieldKey.body r))
      else some (.list (p.entries store size id r)) := by
  rw [lookup_update_fieldRecord hf.nodup, lookup_fieldRecord, hf.found r hr]
  split <;> rfl

private theorem lookup_update_of_not_mem (hf : p.Shows (p.entries store size id) rs fields) {k : Key}
    (hk : ∀ r ∈ rs, k ≠ .string (p.stem ++ FieldKey.body r)) :
    (Assoc.update doc (fieldRecord fields)).lookup k = doc.lookup k := by
  have hnone : (fieldRecord fields).lookup k = none := by
    rw [List.lookup_eq_none_iff]
    intro q hq
    obtain ⟨f, hf', rfl⟩ := List.mem_map.1 hq
    obtain ⟨r, hr, heq⟩ := hf.exists_of_mem_keys (List.mem_map.2 ⟨f, hf', rfl⟩)
    have hne := Key.string_beq_of_ne (hk r hr)
    rw [bne, Bool.not_eq_true', heq]
    exact BEq.symm_false hne
  rw [lookup_update_fieldRecord hf.nodup, hnone, Option.none_or]

/-- The replacements drop the fields that nothing is related under. -/
private theorem lookup_foldl_after_of_mem (doc : Document)
    (hops : ∀ op ∈ rs.map (p.replacement store size id), op.Replaces)
    (hagree : Operation.Agreeing (rs.map (p.replacement store size id))) {r : Related} (hr : r ∈ rs) :
    Option.Rel (fun v w => (v == w) = true)
      (((rs.map (p.replacement store size id)).foldl Document.after doc).lookup (.string (p.stem ++ FieldKey.body r)))
      (if (p.entries store size id r).isEmpty then none else some (.list (p.entries store size id r))) :=
  Document.displays_foldl_after hops hagree _ (List.mem_map.2 ⟨r, hr, rfl⟩)

private theorem lookup_foldl_after_of_not_mem (doc : Document) (k : Key)
    (hops : ∀ op ∈ rs.map (p.replacement store size id), op.Replaces)
    (hk : ∀ r ∈ rs, k ≠ .string (p.stem ++ FieldKey.body r)) :
    ((rs.map (p.replacement store size id)).foldl Document.after doc).lookup k = doc.lookup k := by
  refine Document.lookup_foldl_after_of_ne hops fun op hop => ?_
  obtain ⟨r, hr, rfl⟩ := List.mem_map.1 hop
  exact BEq.symm_false (Key.string_beq_of_ne (hk r hr))

/-- In the field of a pair a whole write and the replacements leave the same exactly if something is related under the
pair or the document had no such field. -/
private theorem lookup_agree_iff (hdoc : (Value.object doc).Proper) (hf : p.Shows (p.entries store size id) rs fields)
    (hops : ∀ op ∈ rs.map (p.replacement store size id), op.Replaces)
    (hagree : Operation.Agreeing (rs.map (p.replacement store size id))) {r : Related} (hr : r ∈ rs) :
    Option.Rel (fun v w => (v == w) = true)
        ((Assoc.update doc (fieldRecord fields)).lookup (.string (p.stem ++ FieldKey.body r)))
        (((rs.map (p.replacement store size id)).foldl Document.after doc).lookup
          (.string (p.stem ++ FieldKey.body r))) ↔
      ((p.entries store size id r).isEmpty = true → doc.lookup (.string (p.stem ++ FieldKey.body r)) = none) := by
  have hreplaced := lookup_foldl_after_of_mem doc hops hagree hr
  have hproper := Document.proper_foldl_after hdoc hops
  rw [lookup_update_of_mem hf hr]
  generalize hfound :
    ((rs.map (p.replacement store size id)).foldl Document.after doc).lookup _ = found at hreplaced ⊢
  cases hempty : (p.entries store size id r).isEmpty with
  | true =>
    rw [hempty, if_pos rfl] at hreplaced
    cases hreplaced
    rw [if_pos rfl, imp_iff_right rfl]
    cases doc.lookup (.string (p.stem ++ FieldKey.body r)) <;> simp
  | false =>
    rw [hempty, if_neg Bool.false_ne_true] at hreplaced
    rw [if_neg Bool.false_ne_true]
    cases hreplaced with
    | some hequal =>
      have hlist := Value.Proper.list (hops _ (List.mem_map.2 ⟨r, hr, rfl⟩)).proper
      exact iff_of_true (.some ((hproper.lookup hfound).beq_symm hlist hequal)) fun h => Bool.noConfusion h

/-- A whole write and the replacements leave equal documents exactly if the document had no field that nothing is
related under. -/
private theorem update_beq_foldl_after_iff (hdoc : (Value.object doc).Proper)
    (hf : p.Shows (p.entries store size id) rs fields)
    (hops : ∀ op ∈ rs.map (p.replacement store size id), op.Replaces)
    (hagree : Operation.Agreeing (rs.map (p.replacement store size id))) :
    (Value.object (Assoc.update doc (fieldRecord fields)) ==
        Value.object ((rs.map (p.replacement store size id)).foldl Document.after doc)) = true ↔
      ∀ r ∈ rs, (p.entries store size id r).isEmpty = true →
        doc.lookup (.string (p.stem ++ FieldKey.body r)) = none := by
  have hkeys := Assoc.distinct_update (Value.proper_object_iff.1 hdoc).1 (fieldRecord fields)
  rw [Value.object_beq_iff hkeys (Value.proper_object_iff.1 (Document.proper_foldl_after hdoc hops)).1]
  constructor
  · intro hequal r hr
    exact (lookup_agree_iff hdoc hf hops hagree hr).1 (hequal _)
  · intro hnone k
    by_cases hk : ∃ r ∈ rs, k = .string (p.stem ++ FieldKey.body r)
    · obtain ⟨r, hr, rfl⟩ := hk
      exact (lookup_agree_iff hdoc hf hops hagree hr).2 (hnone r hr)
    · have hk : ∀ r ∈ rs, k ≠ .string (p.stem ++ FieldKey.body r) := fun r hr heq => hk ⟨r, hr, heq⟩
      rw [lookup_update_of_not_mem hf hk, lookup_foldl_after_of_not_mem doc k hops hk]
      cases hfound : doc.lookup k with
      | none => exact .none
      | some v => exact .some (hdoc.lookup hfound).beq_self

end Document

/-- A document that is written as a whole gets the fields of its entity and keeps all else, and the replacements that
mend it leave an equal document exactly if it had none of the fields that nothing is related under. -/
theorem augment_agrees_iff (hr : g.hooks.relationships = none) (hs : g.hooks.pageSize = none)
    (hp : g.hooks.projection = none) {size : Int} (hn : g.settings.pageSize = .int size)
    (hd : ∀ d ∈ h.source.getD [], d.Textual) (hstore : h.store.Serves) (he : e.type.IsText) :
    ∃ ds, (Catalogue.load g.hooks h.source).result = .ok ds ∧
      ∃ keys fields ops, g.projector.fieldKeysFor ds e.type = .ok keys ∧
        (∀ engine : Engine, engine.catalogue.Holds ds →
          (∃ engine', (Engine.fullIndex g.projector h.source h.store e).outcome engine = (engine', .ok fields)) ∧
          ∃ engine', (Engine.reproject g.projector h.source h.store e).outcome engine = (engine', .ok ops)) ∧
        ∀ (s : GatewayState σ) (doc : Document), s.engine.catalogue.Holds ds → (Value.object doc).Proper →
          ∃ s' answer augmented mended changes, (g.augment h e (.object doc)).outcome s = (s', .ok answer) ∧
            answer.getD (.object doc) = .object augmented ∧
            (ops.mapM Document.apply).outcome doc = (mended, .ok changes) ∧
            (∀ k, augmented.lookup k = ((fieldRecord fields).lookup k).or (doc.lookup k)) ∧
            ((Value.object augmented == Value.object mended) = true ↔
              ∀ key ∈ keys, fields.lookup key = none → doc.lookup (.string key) = none) := by
  obtain ⟨ds, hl, hds⟩ := Catalogue.load_loaded hr hd
  have hreads : g.projector.Reads h.store fun _ => max size 1 := Projector.reads_of_serves hstore hs hp hn
  obtain ⟨fields, hshows, hfull⟩ := Engine.outcome_fullIndex_of_reads hreads hl hds he
  have hops : ∀ op ∈ (Catalogue.relatedPairs ds e.type).map
      (g.projector.replacement h.store (fun _ => max size 1) e.id), op.Replaces :=
    List.forall_mem_map.2 fun r _ => Projector.replaces_replacement hstore hp e.id r
  have hagree := @Projector.agreeing_replacement g.projector h.store (fun _ => max size 1) _ hds _ he
  refine ⟨ds, hl, _, fields,
    (Catalogue.relatedPairs ds e.type).map (g.projector.replacement h.store (fun _ => max size 1) e.id),
    g.projector.fieldKeysFor_eq hds he, fun engine hc => ⟨?_, ?_⟩, fun s doc hc hdoc => ?_⟩
  · exact (hfull engine hc).imp fun _ h => h.1
  · exact (Engine.outcome_reproject hreads hl hds hc he).imp fun _ h => h.1
  obtain ⟨engine', hasked, -⟩ := hfull s.engine hc
  obtain ⟨changes, happly⟩ := Document.outcome_mapM_apply doc hops
  refine ⟨_, _, _, _, changes, outcome_augment hasked doc, getD_augmented fields doc, happly,
    lookup_update_fieldRecord hshows.nodup doc, ?_⟩
  rw [update_beq_foldl_after_iff hdoc hshows hops hagree, List.forall_mem_map]
  refine forall₂_congr fun r hr => imp_congr_left ?_
  rw [hshows.found r hr, ite_eq_left_iff]
  simp

/-- The event that has its sponsor: either way the document shows it. -/
theorem augment_agrees_iff_launch : ∃ s' answer augmented mended engine' ops changes,
    (augment {} launchHost launch (.object staleLaunch)).outcome { index := () } = (s', .ok answer) ∧
    answer.getD (.object staleLaunch) = .object augmented ∧
    (Engine.reproject ({} : Gateway).projector launchHost.source launchHost.store launch).outcome {} =
      (engine', .ok ops) ∧
    (ops.mapM Document.apply).outcome staleLaunch = (mended, .ok changes) ∧
    (Value.object augmented == Value.object mended) = true := by
  obtain ⟨ds, hl, keys, fields, ops, hkeys, hanswers, hstates⟩ := @augment_agrees_iff Unit {} launchHost launch
    rfl rfl rfl 100 rfl textual_launchHost serves_launchHost (Value.isText_string _)
  obtain rfl := Except.ok.inj (Catalogue.load_sponsors.symm.trans hl)
  obtain rfl := Except.ok.inj (fieldKeysFor_launch.symm.trans hkeys)
  obtain ⟨⟨_, hfull⟩, engine', hreproject⟩ := hanswers {} (.inl rfl)
  have hproper : (Value.object staleLaunch).Proper :=
    .object (by simp [staleLaunch, Assoc.Distinct, Assoc.keys]) (by simp [staleLaunch, Value.Proper.string])
  obtain ⟨s', answer, augmented, mended, changes, haugment, hanswer, happly, -, hiff⟩ :=
    hstates { index := () } staleLaunch (.inl rfl) hproper
  refine ⟨s', answer, augmented, mended, engine', ops, changes, haugment, hanswer, hreproject, happly, hiff.2 ?_⟩
  exact List.forall_mem_singleton.2 fun hnone => by cases hnone.symm.trans (lookup_fields_launch hfull)

/-- A document that shows a sponsor. -/
def sponsoredLaunch : Document :=
  [(.string "title", .string "Launch"), (.string "related_sponsors_company", .list [.object launchSponsor.summary])]

/-- The replacement that takes the sponsors of the event `30` from its document. -/
def dropSponsors : Operation where
  owner := .int 30
  field := .string "related_sponsors_company"
  action := .known .replace

/-- The event `30` has no sponsor, and yet its document, written as a whole, goes on showing one. -/
theorem augment_keepsSponsor : ∃ s' engine' changes,
    (augment {} launchHost { launch with id := 30 } (.object sponsoredLaunch)).outcome { index := () } =
      (s', .ok none) ∧
    (Engine.reproject ({} : Gateway).projector launchHost.source launchHost.store
      { launch with id := 30 }).outcome {} = (engine', .ok [dropSponsors]) ∧
    ([dropSponsors].mapM Document.apply).outcome sponsoredLaunch =
      ([(.string "title", .string "Launch")], .ok changes) ∧
    (Value.object sponsoredLaunch == Value.object [(.string "title", .string "Launch")]) = false := by
  obtain ⟨ds, hl, hds⟩ := @Catalogue.load_loaded {} rfl _ textual_launchHost
  obtain rfl := Except.ok.inj (Catalogue.load_sponsors.symm.trans hl)
  have hholds :
      ({} : Engine).catalogue.Holds [⟨.string "sponsors", [.string "event"], [.string "company"]⟩] := .inl rfl
  obtain ⟨fields, hshows, hfull⟩ := fields_launch 30
  obtain rfl := hshows.eq_nil (List.forall_mem_singleton.2 rfl)
  obtain ⟨engine₁, hasked, -⟩ := hfull {} hholds
  obtain ⟨engine', hreproject, -⟩ := Engine.outcome_reproject (p := ({} : Gateway).projector)
    (Projector.reads_of_serves serves_launchHost rfl rfl (n := 100) rfl) hl hds hholds (e := { launch with id := 30 })
    (Value.isText_string _)
  have hops : (Catalogue.relatedPairs [⟨.string "sponsors", [.string "event"], [.string "company"]⟩]
      (.string "event")).map (({} : Gateway).projector.replacement launchHost.store (fun _ => max 100 1) 30) =
      [dropSponsors] := by
    rw [@Catalogue.relatedPairs_single "sponsors" "event" "company" (by simp), List.map_singleton,
      Projector.replacement, body_sponsors]
    rfl
  rw [show ({ launch with id := 30 } : Entity).type = .string "event" from rfl, hops] at hreproject
  refine ⟨_, engine', [true], outcome_augment (s := { index := () }) hasked _, hreproject, rfl, ?_⟩
  refine Bool.eq_false_iff.2 fun h => ?_
  cases (Value.object_beq_iff_agree.1 h).1

end Gateway

end EdgeFields
