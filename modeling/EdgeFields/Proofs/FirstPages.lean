import EdgeFields.Proofs.Pages

/-!
# First pages

The relationship fields of an entity hold what the first pages of its store's answers hold: the entities in the
order of the answer, without gaps, and of those with one number the first.  A page is cut before anything is left
out of it.  Each related pair is asked for once, at a page size of at least one, and has its field for itself
(`Projector.project_firstPages`).
-/

namespace EdgeFields

namespace Projector

/-- The entities of a page without its gaps, and of those with one number only the first. -/
def firsts (page : List (Option Entity)) : List Entity :=
  (page.filterMap id).eraseDupsBy fun e e' => e.id == e'.id

/-- The entries of a store's answer for a pair that are looked at: no more than the page size. -/
def firstPage (store : Store) (size : Related → Int) (id : Int) (r : Related) : List (Option Entity) :=
  (store.answered size id r).take (size r).toNat

/-- Whether these are the integers that the page sizes are set to: what the host's own rule answers for a pair, read
as an integer, or else one size for all pairs. -/
def Wishes (p : Projector) (wish : Related → Int) : Prop :=
  ∀ r, FieldKey.InTexts r →
    match p.hooks.pageSize with
    | some rule => ∃ v, rule r.1 r.2 p.pageSize = .ok v ∧ v.toInteger = .ok (wish r)
    | none => p.pageSize = .int (wish r)

/-- The page sizes that are used where these are wished for: at least one. -/
def granted (wish : Related → Int) (r : Related) : Int := max (wish r) 1

/-- The fields made of the first pages for the pairs `rs`.  There is a field for every pair whose page holds an
entity, under the key of that pair alone, and it lists the entities of that page. -/
structure ListsPages (p : Projector) (rs : List Related) (page : Related → List (Option Entity))
    (shown : Entity → Value) (fields : Fields) : Prop where
  mem_keys_iff : ∀ k, k ∈ Assoc.keys fields ↔
    ∃ r ∈ rs, FieldKey.derive p.stem r.1 r.2 = .ok k ∧ ∃ e, some e ∈ page r
  lookup_eq : ∀ r ∈ rs, ∀ k ∈ Assoc.keys fields, FieldKey.derive p.stem r.1 r.2 = .ok k →
    fields.lookup k = some ((firsts (page r)).map shown)
  apart : ∀ r ∈ rs, ∀ r' ∈ rs, FieldKey.derive p.stem r.1 r.2 = FieldKey.derive p.stem r'.1 r'.2 → r = r'
  nodup : (Assoc.keys fields).Nodup

/-! ### Entities of a page -/

private theorem distinct_eq (page : List (Option Entity)) : distinct page = firsts page := by
  rw [firsts, ← foldl_addUnlike_eq_eraseDupsBy]
  simp only [distinct, Bool.beq_comm]

private theorem firsts_ne_nil_iff {page : List (Option Entity)} : firsts page ≠ [] ↔ ∃ e, some e ∈ page := by
  constructor
  · intro h
    obtain ⟨e, he⟩ := List.exists_mem_of_ne_nil _ h
    rw [← distinct_eq] at he
    exact ⟨e, mem_of_mem_distinct he⟩
  · rintro ⟨e, he⟩
    have hmem : e ∈ page.filterMap id := List.mem_filterMap.2 ⟨some e, he, rfl⟩
    obtain ⟨e', es, hes⟩ := List.exists_cons_of_ne_nil (List.ne_nil_of_mem hmem)
    rw [firsts, hes, List.eraseDupsBy_cons]
    exact List.cons_ne_nil _ _

variable {p : Projector} {wish : Related → Int}

/-! ### Page sizes -/

/-- A size below one is replaced by one. -/
private theorem atLeastOne_eq (n : Int) :
    (do return if ← (Value.int n).isBelow 1 then .int 1 else .int n : Except Fault Value) = .ok (.int (max n 1)) := by
  rw [Value.isBelow_int, ok_bind, pure_eq_ok]
  by_cases hlow : n < 1
  · have hmax : max n 1 = 1 := by omega
    simp [hlow, hmax]
  · have hmax : max n 1 = n := by omega
    simp [hlow, hmax]

private theorem Wishes.pageSizeFor_eq (h : p.Wishes wish) {r : Related} (hr : FieldKey.InTexts r) :
    p.pageSizeFor r.1 r.2 = .ok (.int (granted wish r)) := by
  have hwish := h r hr
  rw [pageSizeFor, granted, ← atLeastOne_eq]
  cases hrule : p.hooks.pageSize with
  | none =>
    rw [hrule] at hwish
    change p.pageSize = .int (wish r) at hwish
    rw [hwish]
    rfl
  | some rule =>
    rw [hrule] at hwish
    obtain ⟨v, hv, hinteger⟩ := hwish
    simp only [hv, ok_bind, hinteger]
    rfl

private theorem Wishes.reads (h : p.Wishes wish) {store : Store}
    (hstore : ∀ id name type size, ∃ page, store.related id name type size = .ok page) {shown : Entity → Value}
    (hshown : ∀ e, p.projection e = .ok (shown e)) : p.Reads store (granted wish) where
  sized r hr := h.pageSizeFor_eq hr
  answers id r _ := hstore id r.1 r.2 _
  embeds id r _ e _ := by rw [embedded, hshown e]; rfl

/-! ### Fields of first pages -/

private theorem entries_eq {shown : Entity → Value} (hshown : ∀ e, p.projection e = .ok (shown e)) (store : Store)
    (size : Related → Int) (id : Int) (r : Related) :
    p.entries store size id r = (firsts (firstPage store size id r)).map shown := by
  have hembedded : p.embedded = shown := by
    funext e
    rw [embedded, hshown e]
    rfl
  rw [entries, distinct_eq, hembedded, firstPage]

private theorem Shows.mem_keys_iff {list : Related → List Value} {rs : List Related} {fields : Fields}
    (h : Shows p list rs fields) {k : String} :
    k ∈ Assoc.keys fields ↔ ∃ r ∈ rs, k = p.stem ++ FieldKey.body r ∧ list r ≠ [] := by
  constructor
  · intro hk
    obtain ⟨r, hr, hkey⟩ := h.exists_of_mem_keys hk
    refine ⟨r, hr, hkey, fun hnone => ?_⟩
    obtain ⟨⟨_, vs⟩, hmem, rfl⟩ := List.mem_map.1 hk
    have hfound := h.found r hr
    rw [hnone, ← hkey, Assoc.lookup_of_mem h.nodup hmem] at hfound
    cases hfound
  · rintro ⟨r, hr, rfl, hsome⟩
    have hfound := h.found r hr
    rw [if_neg (by simpa using hsome)] at hfound
    obtain ⟨k', hk', hmem⟩ := Assoc.mem_of_lookup hfound
    rw [eq_of_beq hk']
    exact List.mem_map_of_mem hmem

private theorem Shows.listsPages {ds : List Definition} (hds : Loaded ds) {type : Value} (ht : type.IsText)
    {page : Related → List (Option Entity)} {shown : Entity → Value} {fields : Fields}
    (h : Shows p (fun r => (firsts (page r)).map shown) (Catalogue.relatedPairs ds type) fields) :
    p.ListsPages (Catalogue.relatedPairs ds type) page shown fields := by
  have hderive : ∀ r ∈ Catalogue.relatedPairs ds type,
      FieldKey.derive p.stem r.1 r.2 = .ok (p.stem ++ FieldKey.body r) := by
    intro r hr
    have htexts := hds.inTexts_of_mem_relatedPairs ht hr
    exact FieldKey.derive_eq_ok p.stem htexts.1 htexts.2
  refine ⟨fun k => ?_, fun r hr k hk hkey => ?_, fun r hr r' hr' heq => ?_, h.nodup⟩
  · rw [h.mem_keys_iff]
    refine exists_congr fun r => and_congr_right fun hr => ?_
    rw [hderive r hr, Except.ok.injEq, eq_comm, ne_eq, List.map_eq_nil_iff, ← ne_eq, firsts_ne_nil_iff]
  · -- The key is that of a pair with entities, which is `r` itself.
    obtain ⟨r', hr', hkey', hsome⟩ := h.mem_keys_iff.1 hk
    rw [hderive r hr] at hkey
    obtain rfl := Except.ok.inj hkey
    obtain rfl := hds.eq_of_body_eq ht hr hr' (FieldKey.stem_append_inj.1 hkey')
    rw [h.found r hr, if_neg (by simpa using hsome)]
  · rw [hderive r hr, hderive r' hr'] at heq
    exact hds.eq_of_body_eq ht hr hr' (FieldKey.stem_append_inj.1 (Except.ok.inj heq))

/-- Whatever integers the page sizes are set to and whatever lists the store answers, the relationship fields of an
entity list what the first pages for its related pairs hold, and the store is asked once for each pair, at a page size
of at least one. -/
theorem project_firstPages (hr : p.hooks.relationships = none) (hw : p.Wishes wish) {shown : Entity → Value}
    (hshown : ∀ e, p.projection e = .ok (shown e)) {source : Source} (hd : ∀ d ∈ source.getD [], d.Textual)
    {store : Store} (hstore : ∀ id name type size, ∃ page, store.related id name type size = .ok page) {e : Entity}
    (he : e.type.IsText) :
    ∃ ds fields, (Catalogue.load p.hooks source).result = .ok ds ∧
      (p.project store ds e).result = .ok (fields,
        (Catalogue.relatedPairs ds e.type).map fun r => ⟨e.id, r.1, r.2, .int (granted wish r)⟩) ∧
      p.ListsPages (Catalogue.relatedPairs ds e.type) (firstPage store (granted wish) e.id) shown fields ∧
      (Catalogue.relatedPairs ds e.type).Nodup ∧
      ∀ r ∈ Catalogue.relatedPairs ds e.type, p.pageSizeFor r.1 r.2 = .ok (.int (granted wish r)) ∧
        1 ≤ granted wish r := by
  obtain ⟨ds, hl, hds⟩ := Catalogue.load_loaded hr hd
  obtain ⟨fields, hproject, hshows⟩ := (hw.reads hstore hshown).project_result hds he
  rw [funext (entries_eq hshown store (granted wish) e.id)] at hshows
  refine ⟨ds, fields, hl, hproject, hshows.listsPages hds he, Catalogue.nodup_relatedPairs hds.textual he, ?_⟩
  intro r hr
  exact ⟨hw.pageSizeFor_eq (hds.inTexts_of_mem_relatedPairs he hr), Int.le_max_right _ _⟩

/-- A host that wants pages of three entries. -/
def threeAtATime : Projector where
  hooks := { pageSize := some fun _ _ _ => .ok (.int 3) }

/-- An event. -/
def summit : Entity := { id := 10, type := .string "event" }

/-- A company that sponsors it. -/
def summitSponsor : Entity := { id := 20, type := .string "company", title := .string "Acme" }

/-- A store that answers with a gap, the company under an old and a new title, and one company more than was asked
for. -/
def gappyStore : Store where
  entity _ := none
  related _ _ _ _ := .ok (some [none, some summitSponsor, some { summitSponsor with title := .string "Acme Ltd" },
    some { summitSponsor with id := 30 }])

/-- The company is listed once, under its first title, and the one beyond the page is not. -/
theorem project_firstPages_gappy :
    threeAtATime.Wishes (fun _ => 3) ∧ summit.type.IsText ∧
      ∃ fields, (threeAtATime.project gappyStore [⟨.string "sponsors", [.string "event"], [.string "company"]⟩]
        summit).result = .ok (fields, [⟨10, .string "sponsors", .string "company", .int 3⟩]) ∧
          (∀ k, k ∈ Assoc.keys fields ↔ k = "related_sponsors_company") ∧
          fields.lookup "related_sponsors_company" = some [.object summitSponsor.summary] := by
  have hwishes : threeAtATime.Wishes fun _ => 3 := fun _ _ => ⟨.int 3, rfl, rfl⟩
  have hd : ∀ d ∈ (some [Declaration.between "sponsors" "event" "company"] : Source).getD [], d.Textual :=
    List.forall_mem_singleton.2 (Declaration.textual_between _ _ _)
  have hevent : FieldKey.identifierOf "event" = "event" := FieldKey.identifierOf_eq_self (by decide)
  have hsponsors : FieldKey.identifierOf "sponsors" = "sponsors" := FieldKey.identifierOf_eq_self (by decide)
  have hcompany : FieldKey.identifierOf "company" = "company" := FieldKey.identifierOf_eq_self (by decide)
  have hstore : ∀ id name type size, ∃ page, gappyStore.related id name type size = .ok page :=
    fun _ _ _ _ => ⟨_, rfl⟩
  have hsummit : summit.type.IsText := Value.isText_string "event"
  obtain ⟨ds, fields, hl, hproject, hlists, -⟩ := project_firstPages rfl hwishes (fun _ => rfl) hd hstore hsummit
  obtain rfl := Except.ok.inj (hl.symm.trans (Catalogue.load_single threeAtATime.hooks rfl "sponsors" "event"
    "company" (by simp) (by simp) (by simp) (by simp [hevent, hcompany])))
  have hpairs := @Catalogue.relatedPairs_single "sponsors" "event" "company" (by simp)
  have hpage : firstPage gappyStore (granted fun _ => 3) summit.id (.string "sponsors", .string "company") =
      [none, some summitSponsor, some { summitSponsor with title := .string "Acme Ltd" }] := rfl
  have hkey : FieldKey.derive threeAtATime.stem (.string "sponsors") (.string "company") =
      .ok "related_sponsors_company" := by
    rw [FieldKey.derive_string, hsponsors, hcompany]
    rfl
  rw [show summit.type = .string "event" from rfl, hpairs] at hproject hlists
  have hkeys : ∀ k, k ∈ Assoc.keys fields ↔ k = "related_sponsors_company" := by
    intro k
    rw [hlists.mem_keys_iff]
    constructor
    · rintro ⟨r, hr, hderive, -⟩
      rw [List.mem_singleton.1 hr, hkey] at hderive
      exact (Except.ok.inj hderive).symm
    · rintro rfl
      exact ⟨_, List.mem_singleton_self _, hkey, summitSponsor, by rw [hpage]; simp⟩
  refine ⟨hwishes, hsummit, fields, hproject, hkeys, ?_⟩
  rw [hlists.lookup_eq _ (List.mem_singleton_self _) _ ((hkeys _).2 rfl) hkey, hpage]
  rfl

end Projector

end EdgeFields
