import EdgeFields.Proofs.ActiveFilters
import EdgeFields.Proofs.Decimals
import EdgeFields.Proofs.IndexReading
import EdgeFields.Schema

/-!
# What filters mean

A filtered search asks every field with a text that is not blank for an entry that meets one of these texts
(`Filter.compile_finds`).  The decimal of a number of 32 bits is met by that number alone; any other text by a slug,
by a title, or by what the index takes for a match of the title.

The index keeps the members of an entry under the names that the mapping of relationship fields gives them, so that
the names which filters compare are read off the mapping.
-/

namespace EdgeFields

/-- What stands in an object under a name. -/
def Value.memberAt? (name : String) : Value → Option Value
  | .object ms => ms.lookup (.string name)
  | _ => none

/-- The members of the object that stands in an object under a name. -/
def Value.membersAt (name : String) (v : Value) : Record :=
  match v.memberAt? name with
  | some (.object ms) => ms
  | _ => []

/-- The entries of a field: the items of its list, or the object that stands there without a list. -/
def Document.entriesAt (doc : Document) (k : Key) : List Value :=
  match doc.lookup k with
  | some (.object ms) => [.object ms]
  | _ => doc.itemsAt k

namespace Filter

/-! ### Mapped entries -/

/-- The names under which a mapping keeps members, each with its member: the member's own name, and one for every form
that it is kept in besides. -/
def mappedNames (mapping : Value) : List (String × String) :=
  (mapping.membersAt "properties").flatMap fun p =>
    (p.1.toText, p.1.toText) ::
      (p.2.membersAt "fields").map fun form => (p.1.toText ++ "." ++ form.1.toText, p.1.toText)

example : mappedNames Schema.fieldMapping =
    [("entity_id", "entity_id"), ("title", "title"), ("title.raw", "title"), ("slug", "slug"),
      ("type", "type")] := rfl

/-- What the index keeps of an entry of the field at a path under a name. -/
def kept? (path : String) (v : Value) (name : String) : Option Value :=
  ((mappedNames Schema.fieldMapping).find? fun n => path ++ "." ++ n.1 == name).bind fun n => v.memberAt? n.2

/-- What is left open of an index that keeps entries as they are mapped: what matches under a name, what is found by
any other query, and what is made of any other minimum than one. -/
structure Matching where
  matched : String → Value → Value → Bool
  other : Value → Bool
  minimum : Value → Nat → Nat

namespace Matching

variable (m : Matching)

/-- How many of some alternatives a written minimum asks for. -/
def least : Value → Nat → Nat
  | .int 1, _ => 1
  | v, count => m.minimum v count

/-- What the index makes of an entry of the field at a path. -/
def entry (path : String) (v : Value) : Reading where
  leaf
    | .object [(kind, .object [(name, w)])] =>
      if kind == "term" then (kept? path v name.toText).any (· == w)
      else if kind == "match" then (kept? path v name.toText).any (m.matched name.toText · w)
      else m.other (.object [(kind, .object [(name, w)])])
    | q => m.other q
  minimum := m.least

/-- What the index makes of a document. -/
def document (doc : Document) : Reading :=
  .ofEntries (fun path => doc.entriesAt (.string path)) m.entry m.other m.least

/-- How an entry of a field meets a text.  The text is taken without the blanks around it. -/
inductive Meets (k : String) (v : Value) (s : String) : Prop where
  | number {n : Int} {w : Value} (hs : Denotes s n) (hfound : v.memberAt? "entity_id" = some w)
      (hequal : (w == .int n) = true)
  | slug (hs : ∀ n, ¬ Denotes s n) (hfound : v.memberAt? "slug" = some (.string (Text.trim s)))
  | title (hs : ∀ n, ¬ Denotes s n) (hfound : v.memberAt? "title" = some (.string (Text.trim s)))
  | matched {w : Value} (hs : ∀ n, ¬ Denotes s n) (hfound : v.memberAt? "title" = some w)
      (hmatched : m.matched (k ++ "." ++ "title") w (.string (Text.trim s)) = true)

end Matching

/-! ### Comparisons of a text -/

section Comparisons

variable {k t : String}

private theorem comparisonsOf_of_denotes (h : Legible t) {n : Int} (hn : Denotes t n) :
    comparisonsOf k t = [comparison "term" (.string k) "entity_id" (.int n)] := by
  rw [comparisonsOf, valueClauses_of_denotes _ h hn]
  rfl

private theorem comparisonsOf_of_not_denotes (h : Legible t) (hnot : ∀ n, ¬ Denotes t n) :
    comparisonsOf k t = [comparison "term" (.string k) "slug" (.string t),
      comparison "term" (.string k) "title.raw" (.string t), comparison "match" (.string k) "title" (.string t)] := by
  rw [comparisonsOf, valueClauses_of_not_denotes _ h hnot]
  rfl

end Comparisons

/-! ### Entries that pass -/

namespace Matching

variable {m : Matching} {k : String} {v : Value}

private theorem kept?_eq (name member : String)
    (h : (mappedNames Schema.fieldMapping).find? (·.1 == name) = some (name, member)) :
    kept? k v (k ++ "." ++ name) = v.memberAt? member := by
  have hname : (fun n : String × String => k ++ "." ++ n.1 == k ++ "." ++ name) = (·.1 == name) := by
    funext n
    rw [Bool.eq_iff_iff, beq_iff_eq, beq_iff_eq, String.append_right_inj]
  rw [kept?, hname, h]
  rfl

private theorem passes_term (name member : String) (w : Value)
    (h : (mappedNames Schema.fieldMapping).find? (·.1 == name) = some (name, member)) :
    (m.entry k v).passes (comparison "term" (.string k) name w) = (v.memberAt? member).any (· == w) := by
  rw [(m.entry k v).passes_eq_leaf rfl rfl, ← kept?_eq name member h]
  rfl

private theorem passes_match (w : Value) : (m.entry k v).passes (comparison "match" (.string k) "title" w) =
    (v.memberAt? "title").any (m.matched (k ++ "." ++ "title") · w) := by
  rw [(m.entry k v).passes_eq_leaf rfl rfl, ← @kept?_eq k v "title" "title" rfl]
  rfl

/-- An entry passes one of the comparisons of a text exactly if it meets the text. -/
private theorem any_comparisonsOf_iff {s : String} (h : Legible (Text.trim s)) :
    (comparisonsOf k (Text.trim s)).any (m.entry k v).passes = true ↔ m.Meets k v s := by
  by_cases hs : ∃ n, Denotes s n
  · obtain ⟨n, hn⟩ := hs
    rw [comparisonsOf_of_denotes h (denotes_trim.2 hn), List.any_cons, List.any_nil, Bool.or_false,
      passes_term "entity_id" "entity_id" (.int n) rfl, Option.any_eq_true]
    constructor
    · rintro ⟨w, hfound, hequal⟩
      exact .number hn hfound hequal
    · rintro (⟨hs, hfound, hequal⟩ | ⟨hs, -⟩ | ⟨hs, -⟩ | ⟨hs, -⟩)
      · exact ⟨_, hfound, hn.unique hs ▸ hequal⟩
      all_goals exact absurd hn (hs n)
  · rw [not_exists] at hs
    rw [comparisonsOf_of_not_denotes h fun n hn => hs n (denotes_trim.1 hn)]
    simp only [List.any_cons, List.any_nil, Bool.or_false, passes_term "slug" "slug" _ rfl,
      passes_term "title.raw" "title" _ rfl, passes_match, Bool.or_eq_true, Option.any_eq_true,
      Value.beq_string_right]
    constructor
    · rintro (⟨w, hfound, rfl⟩ | ⟨w, hfound, rfl⟩ | ⟨w, hfound, hmatched⟩)
      · exact .slug hs hfound
      · exact .title hs hfound
      · exact .matched hs hfound hmatched
    · rintro (⟨hn, -, -⟩ | ⟨-, hfound⟩ | ⟨-, hfound⟩ | ⟨-, hfound, hmatched⟩)
      · exact absurd hn (hs _)
      · exact .inl ⟨_, hfound, rfl⟩
      · exact .inr (.inl ⟨_, hfound, rfl⟩)
      · exact .inr (.inr ⟨_, hfound, hmatched⟩)

end Matching

/-! ### Filters of texts -/

/-- The texts of a filter value that are not blank. -/
def wordsOf (v : Value) : List String :=
  (requestedTexts v).filter fun s => Text.trim s ≠ ""

/-- Filters of texts under field keys, none of them longer than the numbers that are read. -/
structure OfTexts (active : Record) : Prop where
  keys : ∀ f ∈ active, ∃ k, f.1 = .string k
  values : ∀ f ∈ active, IsRequested f.2
  short : ∀ f ∈ active, ∀ s ∈ requestedTexts f.2, s.toList.length ≤ 4300

/-- A value of texts stands for them without the blanks around them. -/
private theorem textsOf_requested {v : Value} (h : IsRequested v) :
    textsOf v = .ok (presentTexts ((requestedTexts v).map Text.trim)) := by
  cases v with
  | string s => exact textsOf_string s
  | list xs =>
    have hxs : (xs.map Value.toText).map Value.string = xs := by
      rw [List.map_map]
      refine (List.map_congr_left fun x hx => ?_).trans (List.map_id' _)
      obtain ⟨s, rfl⟩ := h x hx
      rfl
    rw [requestedTexts, ← textsOf_list, hxs]
  | _ => exact absurd h (by simp [IsRequested])

private theorem mem_texts_iff {v : Value} {t : String} :
    t ∈ presentTexts ((requestedTexts v).map Text.trim) ↔ ∃ s ∈ wordsOf v, Text.trim s = t := by
  simp only [mem_presentTexts, wordsOf, List.mem_map, List.mem_filter, decide_eq_true_eq]
  constructor
  · rintro ⟨hne, s, hs, rfl⟩
    exact ⟨s, ⟨hs, hne⟩, rfl⟩
  · rintro ⟨s, ⟨hs, hne⟩, rfl⟩
    exact ⟨hne, s, hs, rfl⟩

namespace OfTexts

variable {active : Record} {f : Key × Value}

private theorem legible (h : OfTexts active) (hf : f ∈ active) {s : String} (hs : s ∈ wordsOf f.2) :
    Legible (Text.trim s) := by
  refine legible_of_length_le ?_
  rw [Text.toList_trim]
  exact (Text.length_trimChars_le _).trans (h.short f hf s (List.mem_filter.1 hs).1)

/-- A filter without words has no clause. -/
private theorem clauseOf?_eq_none (h : OfTexts active) (hf : f ∈ active) (hwords : wordsOf f.2 = []) :
    clauseOf? f = .ok none := by
  have htexts : presentTexts ((requestedTexts f.2).map Text.trim) = [] := by
    rw [List.eq_nil_iff_forall_not_mem]
    intro t ht
    obtain ⟨s, hs, -⟩ := mem_texts_iff.1 ht
    simp [hwords] at hs
  rw [clauseOf?, textsOf_requested (h.values f hf), htexts]
  rfl

/-- A filter with a word has a clause, which finds the documents with an entry that meets one of its words. -/
private theorem exists_clauseOf?_eq (h : OfTexts active) (hf : f ∈ active) (hwords : wordsOf f.2 ≠ []) :
    ∃ c, clauseOf? f = .ok (some c) ∧ ∀ (m : Matching) (doc : Document), (m.document doc).passes c = true ↔
      ∃ v ∈ doc.entriesAt f.1, ∃ s ∈ wordsOf f.2, m.Meets f.1.toText v s := by
  obtain ⟨k, hk⟩ := h.keys f hf
  have htexts := textsOf_requested (h.values f hf)
  have hmem := @mem_texts_iff f.2
  generalize presentTexts ((requestedTexts f.2).map Text.trim) = ts at htexts hmem
  have hne : ts ≠ [] := by
    obtain ⟨s, hs⟩ := List.exists_mem_of_ne_nil _ hwords
    exact List.ne_nil_of_mem (hmem.2 ⟨s, hs, rfl⟩)
  have hlegible : ∀ t ∈ ts, Legible t := fun t ht => by
    obtain ⟨s, hs, rfl⟩ := hmem.1 ht
    exact h.legible hf hs
  refine ⟨_, by rw [← clauseOf?_eq (k := k) htexts hne hlegible, ← hk], fun m doc => ?_⟩
  rw [Matching.document, Reading.passes_nested_ofEntries fun _ _ => rfl]
  rw [hk, Key.toText_string, List.any_eq_true]
  refine exists_congr fun v => and_congr_right fun _ => ?_
  rw [List.any_flatMap, List.any_eq_true]
  constructor
  · rintro ⟨t, ht, hpasses⟩
    obtain ⟨s, hs, rfl⟩ := hmem.1 ht
    exact ⟨s, hs, (Matching.any_comparisonsOf_iff (h.legible hf hs)).1 hpasses⟩
  · rintro ⟨s, hs, hmeets⟩
    exact ⟨_, hmem.2 ⟨s, hs, rfl⟩, (Matching.any_comparisonsOf_iff (h.legible hf hs)).2 hmeets⟩

theorem readable (h : OfTexts active) (hf : f ∈ active) : Readable f.2 := by
  rw [← clauseOf?_eq_ok_iff]
  by_cases hwords : wordsOf f.2 = []
  · exact ⟨none, h.clauseOf?_eq_none hf hwords⟩
  · exact (h.exists_clauseOf?_eq hf hwords).imp' _ fun _ hc => hc.1

end OfTexts

/-- Filters of texts are compiled.  Where all texts are blank the search body stays as it is, whatever it is.
Otherwise they make a search by themselves: it finds a document exactly if, for every field with a text that is not
blank, the field has an entry that meets one of these texts. -/
theorem compile_finds {hooks : Hooks} (hhooks : hooks.filterQueries = none) {active : Record} (h : OfTexts active) :
    ((∀ f ∈ active, wordsOf f.2 = []) → ∀ base, compile hooks active base = .ok none) ∧
    ((∃ f ∈ active, wordsOf f.2 ≠ []) → ∃ body, compile hooks active .null = .ok (some body) ∧
      ∀ (m : Matching) (doc : Document), (m.document doc).passes (queryOf body) = true ↔
        ∀ f ∈ active, wordsOf f.2 ≠ [] →
          ∃ v ∈ doc.entriesAt f.1, ∃ s ∈ wordsOf f.2, m.Meets f.1.toText v s) := by
  obtain ⟨cs, hcs⟩ := clausesOf_eq_ok_iff.2 fun f hf => h.readable hf
  have hmem := fun c => @mem_clausesOf_iff active cs hcs c
  constructor
  · intro hblank base
    obtain rfl : cs = [] := by
      rw [List.eq_nil_iff_forall_not_mem]
      intro c hc
      obtain ⟨f, hf, hclause⟩ := (hmem c).1 hc
      rw [h.clauseOf?_eq_none hf (hblank f hf)] at hclause
      cases hclause
    rw [compile, clauses_eq_clausesOf hhooks, hcs]
    rfl
  · rintro ⟨f, hf, hwords⟩
    obtain ⟨c, hc, -⟩ := h.exists_clauseOf?_eq hf hwords
    obtain ⟨body, hbody, hpasses⟩ :=
      compile_eq_ok_of_absent hhooks hcs (List.ne_nil_of_mem ((hmem c).2 ⟨f, hf, hc⟩))
    refine ⟨body, hbody, fun m doc => (hpasses _).trans (forall₂_congr fun f hf => ?_)⟩
    by_cases hwords : wordsOf f.2 = []
    · simp [h.clauseOf?_eq_none hf hwords, hwords]
    · obtain ⟨c, hc, hfinds⟩ := h.exists_clauseOf?_eq hf hwords
      rw [← hfinds]
      simp [hc, hwords]

/-- A filter for a sponsor by number or by name, beside one that is left blank. -/
def onSponsors : Record :=
  [(.string "related_sponsors_company", .list [.string "+007", .string " acme "]),
    (.string "related_hosts_person", .string " ")]

/-- A document with the sponsor of number seven. -/
def ofSeven : Document :=
  [(.string "related_sponsors_company", .list [.object [(.string "entity_id", .int 7)]])]

theorem ofTexts_onSponsors : OfTexts onSponsors where
  keys := by simp [onSponsors]
  values := by simp [onSponsors, IsRequested, Value.isText_string]
  short := by decide

private theorem denotes_seven : Denotes "+007" 7 := by
  have hdigits : Text.IsDigits ['0', '0', '7'] := ⟨List.cons_ne_nil _ _, List.all_eq_true.1 rfl⟩
  have htrim : Text.trim "+007" = "+007" := by decide
  exact ⟨htrim ▸ .plus hdigits, by decide, by decide⟩

theorem compile_finds_sponsors : OfTexts onSponsors ∧ ∃ body, compile {} onSponsors .null = .ok (some body) ∧
    ∀ m : Matching, (m.document ofSeven).passes (queryOf body) = true ∧
      (m.document []).passes (queryOf body) = false := by
  have hwords : wordsOf (.list [.string "+007", .string " acme "]) = ["+007", " acme "] := by decide
  have hblank : wordsOf (.string " ") = [] := by decide
  have hfirst : (.string "related_sponsors_company", .list [.string "+007", .string " acme "]) ∈ onSponsors :=
    List.mem_cons_self ..
  obtain ⟨body, hbody, hpasses⟩ :=
    (@compile_finds {} rfl _ ofTexts_onSponsors).2 ⟨_, hfirst, by simp [hwords]⟩
  refine ⟨ofTexts_onSponsors, body, hbody, fun m => ⟨(hpasses m ofSeven).2 fun f hf hne => ?_, ?_⟩⟩
  · simp only [onSponsors, List.mem_cons, List.not_mem_nil, or_false] at hf
    rcases hf with rfl | rfl
    · exact ⟨_, List.mem_singleton_self _, "+007", by simp [hwords], .number denotes_seven rfl (by simp)⟩
    · exact absurd hblank hne
  · refine Bool.eq_false_iff.2 fun hfound => ?_
    obtain ⟨v, hv, -⟩ := (hpasses m []).1 hfound _ hfirst (by simp [hwords])
    cases hv

end Filter

end EdgeFields
