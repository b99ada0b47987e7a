import EdgeFields.FieldKey
import EdgeFields.Proofs.Declared
import Mathlib.Data.List.Nodup

/-!
# Shared field keys

Filing the pairs of definitions in texts gives each key with its distinct pairs, in order of first appearance
(`pairsByKey_eq_ok`).  So `collisions` finds nothing exactly when no two pairs of a name and a type share a key
(`collisions_isEmpty_iff`).  Whether two pairs share one does not depend on the stem, so that definitions checked with
one stem are apart with every other.
-/

namespace EdgeFields

/-! ### Lists kept under keys -/

namespace Assoc

variable {κ α : Type} [BEq κ] [LawfulBEq κ]

theorem mem_push {k : κ} {a : α} {m : List (κ × List α)} {e : κ × List α} (he : e ∈ push k a m) :
    e ∈ m ∨ e = (k, (m.lookup k).getD [] ++ [a]) := by
  induction m with
  | nil => exact .inr (List.mem_singleton.1 he)
  | cons p r ih =>
    obtain ⟨k', as⟩ := p
    unfold push at he
    cases h : k == k' with
    | true =>
      rw [h, if_pos rfl, List.mem_cons] at he
      rcases he with rfl | he
      · exact .inr (by simp [eq_of_beq h])
      · exact .inl (List.mem_cons_of_mem _ he)
    | false =>
      rw [h, if_neg (by simp), List.mem_cons] at he
      rw [lookup_cons_of_ne h]
      rcases he with rfl | he
      · exact .inl (List.mem_cons_self ..)
      · exact (ih he).imp_left (List.mem_cons_of_mem _)

private theorem push_of_lookup_none {k : κ} {a : α} {m : List (κ × List α)} (h : m.lookup k = none) :
    push k a m = m ++ [(k, [a])] := by
  induction m with
  | nil => rfl
  | cons p r ih =>
    have hp := List.lookup_eq_none_iff.1 h
    unfold push
    rw [if_neg (by simpa using hp p (List.mem_cons_self ..)),
      ih (List.lookup_eq_none_iff.2 fun q hq => hp q (List.mem_cons_of_mem _ hq)), List.cons_append]

private theorem push_map {ks : List κ} (hks : ks.Nodup) {k : κ} {a : α} (hk : k ∈ ks) {f g : κ → List α}
    (hself : g k = f k ++ [a]) (hother : ∀ l ∈ ks, l ≠ k → g l = f l) :
    push k a (ks.map fun l => (l, f l)) = ks.map fun l => (l, g l) := by
  induction ks with
  | nil => cases hk
  | cons l ks ih =>
    rw [List.nodup_cons] at hks
    rw [List.map_cons, List.map_cons, push]
    by_cases hl : k = l
    · subst hl
      rw [if_pos BEq.rfl, hself]
      congr 1
      refine List.map_congr_left fun l hl => ?_
      rw [hother l (List.mem_cons_of_mem _ hl) fun e => hks.1 (e ▸ hl)]
    · rw [if_neg (mt eq_of_beq hl), hother l (List.mem_cons_self ..) (Ne.symm hl),
        ih hks.2 ((List.mem_cons.1 hk).resolve_left hl) fun l' hl' => hother l' (List.mem_cons_of_mem _ hl')]

end Assoc

namespace FieldKey

/-! ### Keys of pairs of texts -/

/-- The part of a key that a text gives. -/
def textPart : Value → String
  | .string s => identifierOf s
  | _ => ""

/-- What follows the stem in the key for a pair. -/
def body (r : Related) : String :=
  textPart r.1 ++ "_" ++ textPart r.2

/-- Whether name and type of a pair are texts. -/
def InTexts (r : Related) : Prop := r.1.IsText ∧ r.2.IsText

theorem identifierOf_eq (s : String) :
    identifierOf s = String.ofList (s.toList.map fun c => if isIdentifier c then c else '_') := by
  rw [identifierOf, String.map_eq_internal]

theorem identifierOf_eq_self {s : String} (h : s.toList.all isIdentifier = true) : identifierOf s = s := by
  have hmap : s.toList.map (fun c => if isIdentifier c = true then c else '_') = s.toList :=
    (List.map_congr_left fun c hc => if_pos (List.all_eq_true.1 h c hc)).trans (List.map_id' _)
  rw [identifierOf_eq, hmap, String.ofList_toList]

theorem derive_eq_ok (stem : String) {name type : Value} (hn : name.IsText) (ht : type.IsText) :
    derive stem name type = .ok (stem ++ body (name, type)) := by
  obtain ⟨s, rfl⟩ := hn
  obtain ⟨t, rfl⟩ := ht
  rw [derive_string]
  simp [body, textPart, String.append_assoc]

theorem discernible_of_inTexts {rs : List Related} (hrs : ∀ r ∈ rs, InTexts r) : Discernible rs := by
  intro r hr r'
  rw [Prod.ext_iff, ← (hrs r hr).1.beq_iff, ← (hrs r hr).2.beq_iff, ← Bool.and_eq_true]
  rfl

/-- The pairs of some definitions in texts: the name with every type of either side. -/
theorem mem_pairs {ds : List Definition} (hds : ∀ d ∈ ds, d.Textual) {r : Related} :
    r ∈ pairs ds ↔ ∃ d ∈ ds, d.isValid = true ∧ d.name = r.1 ∧ (r.2 ∈ d.fromTypes ∨ r.2 ∈ d.toTypes) := by
  simp only [pairs, List.mem_flatMap, List.mem_filter, List.mem_map]
  constructor
  · rintro ⟨d, ⟨hd, hv⟩, t, ht, rfl⟩
    exact ⟨d, hd, hv, rfl, (hds d hd).mem_allTypes.1 ht⟩
  · rintro ⟨d, hd, hv, hn, ht⟩
    exact ⟨d, ⟨hd, hv⟩, r.2, (hds d hd).mem_allTypes.2 ht, Prod.ext hn rfl⟩

theorem inTexts_of_mem_pairs {ds : List Definition} (hds : ∀ d ∈ ds, d.Textual) {r : Related}
    (hr : r ∈ pairs ds) : InTexts r := by
  obtain ⟨d, hd, -, hn, ht⟩ := (mem_pairs hds).1 hr
  refine ⟨hn ▸ (hds d hd).name, ?_⟩
  rcases ht with ht | ht
  · exact (hds d hd).from_text ht
  · exact (hds d hd).to_text ht

/-! ### Filing pairs under their keys -/

/-- Pairs by their keys: the keys as they first appear, and each with its pairs in their order. -/
def byKey (key : Related → String) (rs : List Related) : List (String × List Related) :=
  (rs.map key).eraseDups.map fun k => (k, rs.filter fun r => key r == k)

section ByKey

variable {key : Related → String} {rs : List Related} {r : Related}

private theorem lookup_byKey (hk : key r ∈ rs.map key) :
    (byKey key rs).lookup (key r) = some (rs.filter fun r' => key r' == key r) :=
  List.lookup_graph _ (List.mem_eraseDups.2 hk)

private theorem lookup_byKey_eq_none (hk : key r ∉ rs.map key) : (byKey key rs).lookup (key r) = none := by
  rw [List.lookup_eq_none_iff]
  rintro e he
  obtain ⟨k, hk', rfl⟩ := List.mem_map.1 he
  simpa using fun e : key r = k => hk (e ▸ List.mem_eraseDups.1 hk')

/-- One more pair goes to the end of those with its key. -/
private theorem push_byKey (key : Related → String) (rs : List Related) (r : Related) :
    Assoc.push (key r) r (byKey key rs) = byKey key (rs ++ [r]) := by
  have hself : (rs ++ [r]).filter (fun r' => key r' == key r) = rs.filter (fun r' => key r' == key r) ++ [r] := by
    simp [List.filter_append]
  have hother : ∀ k, k ≠ key r → (rs ++ [r]).filter (fun r' => key r' == k) = rs.filter fun r' => key r' == k := by
    intro k hk
    simp [List.filter_append, Ne.symm hk]
  by_cases hk : key r ∈ rs.map key
  · have hkeys : ((rs ++ [r]).map key).eraseDups = (rs.map key).eraseDups := by
      rw [List.map_append, List.map_singleton, eraseDups_concat, if_pos (by simpa using hk)]
    rw [byKey, byKey, hkeys]
    exact Assoc.push_map (discernible_of_lawful _).nodup_eraseDups (List.mem_eraseDups.2 hk) hself
      fun k _ hne => hother k hne
  · have hkeys : ((rs ++ [r]).map key).eraseDups = (rs.map key).eraseDups ++ [key r] := by
      rw [List.map_append, List.map_singleton, eraseDups_concat, if_neg (by simpa using hk)]
    have hnil : rs.filter (fun r' => key r' == key r) = [] := by
      rw [List.filter_eq_nil_iff]
      intro r' hr' heq
      exact hk (List.mem_map.2 ⟨r', hr', eq_of_beq heq⟩)
    rw [Assoc.push_of_lookup_none (lookup_byKey_eq_none hk), byKey, byKey, hkeys, List.map_append, List.map_singleton,
      hself, hnil, List.nil_append]
    congr 1
    refine List.map_congr_left fun k hk' => ?_
    rw [hother k fun e => hk (e ▸ List.mem_eraseDups.1 hk')]

/-- Filing one more pair changes nothing if the pair has appeared before. -/
private theorem file_byKey (h : Discernible (rs ++ [r])) :
    file (byKey key rs.eraseDups) (key r, r) = byKey key (rs ++ [r]).eraseDups := by
  have hrs := h.subset (List.subset_append_left ..)
  have hcontains : (rs.eraseDups.filter fun r' => key r' == key r).contains r = true ↔ r ∈ rs := by
    rw [contains_iff_of_beq_iff (h r (by simp)), List.mem_filter, hrs.mem_eraseDups]
    simp
  rw [eraseDups_concat]
  unfold file
  by_cases hr : r ∈ rs
  · have hk : key r ∈ rs.eraseDups.map key := List.mem_map_of_mem (hrs.mem_eraseDups.2 hr)
    rw [if_pos (h.contains_eraseDups_iff.2 hr), lookup_byKey hk]
    exact if_pos (hcontains.2 hr)
  · rw [if_neg (mt h.contains_eraseDups_iff.1 hr), ← push_byKey]
    by_cases hk : key r ∈ rs.eraseDups.map key
    · rw [lookup_byKey hk]
      exact if_neg (mt hcontains.1 hr)
    · rw [lookup_byKey_eq_none hk]

/-- Pairs filed one after the other stand under their keys, without repetitions. -/
private theorem foldl_file_eq_byKey (h : Discernible rs) :
    (rs.map fun r => (key r, r)).foldl file [] = byKey key rs.eraseDups := by
  induction rs using List.reverseRecOn with
  | nil => rfl
  | append_singleton rs r ih =>
    rw [← file_byKey h, ← ih (h.subset (List.subset_append_left ..)), List.map_append, List.foldl_append]
    rfl

private theorem mem_byKey {k : String} {ps : List Related} :
    (k, ps) ∈ byKey key rs ↔ k ∈ rs.map key ∧ ps = rs.filter fun r => key r == k := by
  rw [byKey, List.mem_map]
  simp only [List.mem_eraseDups, Prod.mk.injEq]
  constructor
  · rintro ⟨k, hk, rfl, rfl⟩
    exact ⟨hk, rfl⟩
  · rintro ⟨hk, rfl⟩
    exact ⟨k, hk, rfl, rfl⟩

end ByKey

variable {stem : String} {ds : List Definition}

theorem pairsByKey_eq_ok (stem : String) (hds : ∀ d ∈ ds, d.Textual) :
    pairsByKey stem ds = .ok (byKey (fun r => stem ++ body r) (pairs ds).eraseDups) := by
  have hp : ∀ r ∈ pairs ds, InTexts r := fun r hr => inTexts_of_mem_pairs hds hr
  have he : ((pairs ds).mapM fun r => do return (← derive stem r.1 r.2, r)) =
      .ok ((pairs ds).map fun r => (stem ++ body r, r)) := by
    apply mapM_eq_ok
    intro r hr
    rw [derive_eq_ok stem (hp r hr).1 (hp r hr).2]
    rfl
  rw [pairsByKey, he, ok_bind, foldl_file_eq_byKey (discernible_of_inTexts hp)]
  rfl

/-! ### Pairs that share no key -/

/-- Different pairs have different keys. -/
def Apart (rs : List Related) : Prop :=
  ∀ r ∈ rs, ∀ r' ∈ rs, body r = body r' → r = r'

theorem stem_append_inj {s t : String} : stem ++ s = stem ++ t ↔ s = t :=
  String.append_right_inj stem

/-- The keys that several of the pairs have, each with those pairs. -/
def shared (key : Related → String) (rs : List Related) : Collisions :=
  (byKey key rs).filter fun e => e.2.length > 1

theorem shared_eq_nil_iff {key : Related → String} {rs : List Related} :
    shared key rs = [] ↔ (rs.map key).Nodup := by
  have hcount : ∀ k, (rs.filter fun r => key r == k).length = (rs.map key).count k := by
    intro k
    rw [List.count, List.countP_map, List.countP_eq_length_filter]
    rfl
  rw [shared, List.filter_eq_nil_iff, List.nodup_iff_count_le_one]
  constructor
  · intro h k
    by_cases hk : k ∈ rs.map key
    · simpa [hcount] using h _ (mem_byKey.2 ⟨hk, rfl⟩)
    · simp [List.count_eq_zero_of_not_mem hk]
  · rintro h ⟨k, ps⟩ he
    obtain ⟨-, rfl⟩ := mem_byKey.1 he
    simpa [hcount] using h k

theorem nodup_map_key_iff {rs : List Related} (hrs : rs.Nodup) :
    (rs.map fun r => stem ++ body r).Nodup ↔ Apart rs := by
  rw [List.nodup_map_iff_inj_on hrs]
  simp only [stem_append_inj]
  rfl

theorem collisions_eq_ok (stem : String) (hds : ∀ d ∈ ds, d.Textual) :
    collisions stem ds = .ok (shared (fun r => stem ++ body r) (pairs ds).eraseDups) := by
  rw [collisions, pairsByKey_eq_ok stem hds]
  rfl

/-- Looking for collisions never fails on definitions in texts, and finds none exactly when the pairs are apart. -/
theorem collisions_isEmpty_iff (stem : String) (hds : ∀ d ∈ ds, d.Textual) :
    ∃ shared, collisions stem ds = .ok shared ∧ (shared.isEmpty = true ↔ Apart (pairs ds)) := by
  have hpairs : Discernible (pairs ds) := discernible_of_inTexts fun r hr => inTexts_of_mem_pairs hds hr
  refine ⟨_, collisions_eq_ok stem hds, ?_⟩
  rw [List.isEmpty_iff, shared_eq_nil_iff, nodup_map_key_iff hpairs.nodup_eraseDups]
  simp only [Apart, hpairs.mem_eraseDups]

theorem all_eq_ok (stem : String) (hds : ∀ d ∈ ds, d.Textual) :
    all stem ds = .ok ((pairs ds).eraseDups.map fun r => stem ++ body r).eraseDups := by
  rw [all, pairsByKey_eq_ok stem hds, ok_bind, Assoc.keys, byKey, List.map_map]
  exact congrArg Except.ok (List.map_id' _)

end FieldKey

end EdgeFields
