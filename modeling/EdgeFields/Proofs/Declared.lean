import EdgeFields.Proofs.Outcome
import EdgeFields.Proofs.Texts

/-!
# Declarations in texts

Hosts mostly declare relationships as objects whose names and types are texts.  Such a declaration is always read, and
the definition it gives is in texts as well: a type stands at most once on a side, and none is empty.
-/

namespace EdgeFields

/-- A definition whose name is a text and whose types are texts that are not empty and not repeated on a side. -/
structure Definition.Textual (d : Definition) : Prop where
  name : d.name.IsText
  types : ∀ t ∈ d.fromTypes ++ d.toTypes, t.IsText ∧ t.truthy = true
  nodup_from : d.fromTypes.Nodup
  nodup_to : d.toTypes.Nodup

/-- Whether a value names types by texts: by one text or a list of texts; null names none. -/
def Value.NamesTypes : Value → Prop
  | .null => True
  | .string _ => True
  | .list xs => ∀ x ∈ xs, x.IsText
  | .tuple xs => ∀ x ∈ xs, x.IsText
  | _ => False

/-- An object whose member `name` is a text, and whose types on both sides are named by texts. -/
def Declaration.Textual : Declaration → Prop
  | .plain (.object ms) =>
    (∃ s, ms.lookup (.string "name") = some (.string s)) ∧
      (Definition.firstMember ms ["from", "from_types"]).NamesTypes ∧
      (Definition.firstMember ms ["to", "to_types"]).NamesTypes
  | _ => False

/-- A relationship between two types, as hosts declare it. -/
def Declaration.between (name fromType toType : String) : Declaration :=
  .plain (.object [("name", .string name), ("from", .string fromType), ("to", .string toType)])

theorem Declaration.textual_between (name fromType toType : String) : (between name fromType toType).Textual :=
  ⟨⟨name, rfl⟩, trivial, trivial⟩

namespace Definition

private theorem typesOf_list {xs : List Value} (hxs : ∀ x ∈ xs, x.IsText) :
    (∀ t ∈ Value.dedup (xs.filter Value.truthy), t.IsText ∧ t.truthy = true) ∧
      (Value.dedup (xs.filter Value.truthy)).Nodup := by
  have hf : ∀ x ∈ xs.filter Value.truthy, x.IsText := fun x hx => hxs x (List.mem_filter.1 hx).1
  refine ⟨fun t ht => ?_, Value.nodup_dedup hf⟩
  have ht' := List.mem_filter.1 ((Value.mem_dedup hf).1 ht)
  exact ⟨hxs t ht'.1, ht'.2⟩

theorem typesOf_eq_ok {v : Value} (hv : v.NamesTypes) :
    ∃ ts, typesOf v = .ok ts ∧ (∀ t ∈ ts, t.IsText ∧ t.truthy = true) ∧ ts.Nodup := by
  cases v with
  | null => exact ⟨[], rfl, by simp, List.nodup_nil⟩
  | string s =>
    by_cases hs : s = ""
    · exact ⟨[], by simp [typesOf, hs], by simp, List.nodup_nil⟩
    · refine ⟨[.string s], by simp [typesOf, hs], ?_, List.pairwise_singleton _ _⟩
      intro t ht
      rw [List.mem_singleton.1 ht]
      exact ⟨⟨s, rfl⟩, by simpa [Value.truthy] using hs⟩
  | list xs => exact ⟨_, rfl, typesOf_list hv⟩
  | tuple xs => exact ⟨_, rfl, typesOf_list hv⟩
  | _ => exact absurd hv (by simp [Value.NamesTypes])

/-- A declaration in texts is read, and gives a definition in texts. -/
theorem coerce_textual {declared : Declaration} (h : declared.Textual) :
    ∃ d, coerce declared = .ok d ∧ d.Textual := by
  obtain ⟨v⟩ | _ | _ := declared
  · cases v with
    | object ms =>
      obtain ⟨⟨s, hs⟩, hfrom, hto⟩ := h
      obtain ⟨fs, hfs, hft, hfn⟩ := typesOf_eq_ok hfrom
      obtain ⟨ts, hts, htt, htn⟩ := typesOf_eq_ok hto
      have hname : firstMember ms [Key.string "name"] = .string s := by simp [firstMember, hs]
      refine ⟨⟨if (Value.string s).truthy then .string s else .string "", fs, ts⟩, ?_, ?_, ?_, hfn, htn⟩
      · change ofParts (firstMember ms [Key.string "name"]) _ _ = _
        rw [hname, ofParts, hfs, hts]
        rfl
      · dsimp only
        split
        · exact ⟨s, rfl⟩
        · exact ⟨"", rfl⟩
      · intro t ht
        rcases List.mem_append.1 ht with ht | ht
        · exact hft t ht
        · exact htt t ht
    | _ => exact absurd h (by simp [Declaration.Textual])
  · exact absurd h (by simp [Declaration.Textual])
  · exact absurd h (by simp [Declaration.Textual])

theorem mapM_coerce_textual {declared : List Declaration} (h : ∀ d ∈ declared, d.Textual) :
    ∃ ds, declared.mapM (fun d => (coerce d : Except Fault Definition)) = .ok ds ∧ ∀ d ∈ ds, d.Textual := by
  induction declared with
  | nil => exact ⟨[], rfl, by simp⟩
  | cons c declared ih =>
    obtain ⟨d, hd, htextual⟩ := coerce_textual (h c (List.mem_cons_self ..))
    obtain ⟨ds, hds, htextuals⟩ := ih fun c' hc' => h c' (List.mem_cons_of_mem _ hc')
    refine ⟨d :: ds, ?_, List.forall_mem_cons.2 ⟨htextual, htextuals⟩⟩
    rw [List.mapM_cons, hd, ok_bind, hds]
    rfl

theorem involves_iff {d : Definition} {t : Value} (ht : t.IsText) :
    d.involves t = true ↔ t ∈ d.fromTypes ∨ t ∈ d.toTypes := by
  rw [involves, Bool.or_eq_true, ht.contains_iff, ht.contains_iff]

namespace Textual

variable {d : Definition} (h : d.Textual)
include h

theorem from_text {t : Value} (ht : t ∈ d.fromTypes) : t.IsText := (h.types t (List.mem_append_left _ ht)).1

theorem to_text {t : Value} (ht : t ∈ d.toTypes) : t.IsText := (h.types t (List.mem_append_right _ ht)).1

private theorem filter_truthy {xs : List Value} (hxs : ∀ t ∈ xs, t ∈ d.fromTypes ++ d.toTypes) :
    xs.filter Value.truthy = xs :=
  List.filter_eq_self.2 fun t ht => (h.types t (hxs t ht)).2

theorem allTypes_eq : d.allTypes = (d.fromTypes ++ d.toTypes).eraseDups := by
  rw [allTypes, h.filter_truthy fun _ ht => ht, ← foldl_addNew_eq_eraseDups]
  rfl

theorem mem_allTypes {t : Value} : t ∈ d.allTypes ↔ t ∈ d.fromTypes ∨ t ∈ d.toTypes := by
  rw [allTypes, h.filter_truthy fun _ ht => ht, Value.mem_dedup fun t ht => (h.types t ht).1, List.mem_append]

/-- The types that `t` faces: those on the other side of a side that it stands on. -/
theorem mem_opposingTypes {t u : Value} (ht : t.IsText) :
    u ∈ d.opposingTypes t ↔ (t ∈ d.fromTypes ∧ u ∈ d.toTypes) ∨ (t ∈ d.toTypes ∧ u ∈ d.fromTypes) := by
  have hboth : u ∈ Value.dedup ((d.toTypes ++ d.fromTypes).filter Value.truthy) ↔
      u ∈ d.toTypes ∨ u ∈ d.fromTypes := by
    have hcomm : ∀ t ∈ d.toTypes ++ d.fromTypes, t ∈ d.fromTypes ++ d.toTypes := by
      intro t ht
      rw [List.mem_append] at ht ⊢
      exact ht.symm
    rw [h.filter_truthy hcomm, Value.mem_dedup fun t ht => (h.types t (hcomm t ht)).1, List.mem_append]
  unfold opposingTypes
  split
  · next hf ht' =>
    rw [ht.contains_iff] at hf ht'
    rw [hboth]
    simp [hf, ht']
  · next hf ht' =>
    rw [Bool.eq_false_iff, ne_eq, ht.contains_iff] at ht'
    rw [ht.contains_iff] at hf
    simp [hf, ht']
  · next hf ht' =>
    rw [Bool.eq_false_iff, ne_eq, ht.contains_iff] at hf
    rw [ht.contains_iff] at ht'
    simp [hf, ht']
  · next hf ht' =>
    rw [Bool.eq_false_iff, ne_eq, ht.contains_iff] at hf ht'
    simp [hf, ht']

theorem opposingTypes_text {t u : Value} (ht : t.IsText) (hu : u ∈ d.opposingTypes t) : u.IsText := by
  rcases (h.mem_opposingTypes ht).1 hu with hu | hu
  · exact h.to_text hu.2
  · exact h.from_text hu.2

end Textual

end Definition

end EdgeFields
