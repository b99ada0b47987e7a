import EdgeFields.Proofs.Declared

/-!
# Forms of declarations

A relationship can be declared by an object or by a thing with attributes.  Both are read in full, but not from the
same names: an object is asked for `from` and `to` first, a thing for `from_types` and `to_types`, and a thing is
never asked for `from`.  The forms mean the same exactly if this makes no difference (`coerce_forms_agree_iff`).
-/

namespace EdgeFields

/-- The object with the given members. -/
def Declaration.ofMembers (ms : List (String × Value)) : Declaration :=
  .plain (.object (ms.map fun m => (.string m.1, m.2)))

namespace Definition

variable {ms : List (String × Value)}

private theorem lookup_map_string (ms : List (String × Value)) (k : String) :
    (ms.map fun m => (Key.string m.1, m.2)).lookup (.string k) = ms.lookup k := by
  induction ms with
  | nil => rfl
  | cons m ms ih => rw [List.map_cons, List.lookup_cons, List.lookup_cons, ih, Key.beq_string]

private theorem firstMember_single {κ : Type} [BEq κ] (ms : List (κ × Value)) (k : κ) :
    firstMember ms [k] = (ms.lookup k).getD .null := by
  unfold firstMember
  cases h : ms.lookup k <;> simp [h]

private theorem firstMember_pair {κ : Type} [BEq κ] (ms : List (κ × Value)) (k l : κ) :
    firstMember ms [k, l] = (ms.lookup k).getD ((ms.lookup l).getD .null) := by
  unfold firstMember
  cases hk : ms.lookup k <;> cases hl : ms.lookup l <;> simp [hk, hl]

private theorem ofParts_eq_ok {name fromTypes toTypes : Value} {fs ts : List Value} (hfs : typesOf fromTypes = .ok fs)
    (hts : typesOf toTypes = .ok ts) :
    ofParts name fromTypes toTypes = .ok ⟨if name.truthy then name else .string "", fs, ts⟩ := by
  rw [ofParts, hfs, hts]
  rfl

private theorem coerce_ofMembers (ms : List (String × Value)) : coerce (.ofMembers ms) =
    ofParts ((ms.lookup "name").getD .null) ((ms.lookup "from").getD ((ms.lookup "from_types").getD .null))
      ((ms.lookup "to").getD ((ms.lookup "to_types").getD .null)) := by
  rw [Declaration.ofMembers, coerce, firstMember_single, firstMember_pair, firstMember_pair]
  simp only [lookup_map_string]

private theorem coerce_attributes (ms : List (String × Value)) : coerce (.attributes ms) =
    ofParts ((ms.lookup "name").getD .null) ((ms.lookup "from_types").getD ((ms.lookup "from_").getD .null))
      ((ms.lookup "to_types").getD ((ms.lookup "to").getD .null)) := by
  rw [coerce, firstMember_single, firstMember_pair, firstMember_pair]

private theorem namesTypes_first {v? : Option Value} {w : Value} (hv : (v?.getD .null).NamesTypes)
    (hw : w.NamesTypes) : (v?.getD w).NamesTypes := by
  cases v? with
  | none => exact hw
  | some v => exact hv

/-- An object and a thing of the same members give the same definition exactly if the types under `from`, where they
are given, are those under `from_types`, and the types under `to` and `to_types`, where both are given, are the
same. -/
theorem coerce_forms_agree_iff (hfrom : ms.lookup "from_" = none)
    (htypes : ∀ k ∈ ["from", "from_types", "to", "to_types"], ((ms.lookup k).getD .null).NamesTypes) :
    ∃ d d', coerce (.ofMembers ms) = .ok d ∧ coerce (.attributes ms) = .ok d' ∧
      (d = d' ↔ (∀ v, ms.lookup "from" = some v → typesOf v = typesOf ((ms.lookup "from_types").getD .null)) ∧
        ∀ v w, ms.lookup "to" = some v → ms.lookup "to_types" = some w → typesOf v = typesOf w) := by
  have hf := htypes "from" (by decide)
  have hft := htypes "from_types" (by decide)
  have ht := htypes "to" (by decide)
  have htt := htypes "to_types" (by decide)
  obtain ⟨fs, hfs, -⟩ := typesOf_eq_ok (namesTypes_first hf hft)
  obtain ⟨fs', hfs', -⟩ := typesOf_eq_ok hft
  obtain ⟨ts, hts, -⟩ := typesOf_eq_ok (namesTypes_first ht htt)
  obtain ⟨ts', hts', -⟩ := typesOf_eq_ok (namesTypes_first htt ht)
  have hobject := coerce_ofMembers ms
  have hthing := coerce_attributes ms
  rw [ofParts_eq_ok hfs hts] at hobject
  rw [hfrom, Option.getD_none, ofParts_eq_ok hfs' hts'] at hthing
  refine ⟨_, _, hobject, hthing, ?_⟩
  have hinj : ∀ xs ys : List Value, xs = ys ↔ (.ok xs : Except Fault (List Value)) = .ok ys := by simp
  have hfroms : fs = fs' ↔
      ∀ v, ms.lookup "from" = some v → typesOf v = typesOf ((ms.lookup "from_types").getD .null) := by
    rw [hinj, ← hfs, ← hfs']
    cases ms.lookup "from" <;> simp
  have htos : ts = ts' ↔
      ∀ v w, ms.lookup "to" = some v → ms.lookup "to_types" = some w → typesOf v = typesOf w := by
    rw [hinj, ← hts, ← hts']
    cases ms.lookup "to" <;> cases ms.lookup "to_types" <;> simp
  rw [← hfroms, ← htos]
  simp

/-- A relationship with the names that both forms are asked for. -/
def hostParts : List (String × Value) :=
  [("name", .string "hosts"), ("from_types", .string "event"), ("to", .list [.string "company", .string "person"])]

theorem coerce_forms_agree_iff_hosts : coerce (.ofMembers hostParts) = coerce (.attributes hostParts) := by
  have htypes : ∀ k ∈ ["from", "from_types", "to", "to_types"], ((hostParts.lookup k).getD .null).NamesTypes := by
    intro k hk
    simp only [List.mem_cons, List.not_mem_nil, or_false] at hk
    rcases hk with rfl | rfl | rfl | rfl
    · trivial
    · trivial
    · exact List.forall_mem_cons.2 ⟨⟨_, rfl⟩, List.forall_mem_singleton.2 ⟨_, rfl⟩⟩
    · trivial
  obtain ⟨d, d', hd, hd', hiff⟩ := @coerce_forms_agree_iff hostParts rfl htypes
  have hfrom : hostParts.lookup "from" = none := rfl
  have hto : hostParts.lookup "to_types" = none := rfl
  have hsame : d = d' := hiff.2 ⟨fun v hv => by simp [hfrom] at hv, fun v w _ hw => by simp [hto] at hw⟩
  rw [hd, hd', hsame]

/-- A relationship with its parts under their short names. -/
def sponsorParts : List (String × Value) :=
  [("name", .string "sponsors"), ("from", .string "event"), ("to", .string "company")]

/-- A thing is not asked for `from`, so that the side is empty. -/
theorem coerce_forms_differ : coerce (.ofMembers sponsorParts) ≠ coerce (.attributes sponsorParts) := by
  have hobject : coerce (.ofMembers sponsorParts) =
      .ok ⟨.string "sponsors", [.string "event"], [.string "company"]⟩ := rfl
  have hthing : coerce (.attributes sponsorParts) = .ok ⟨.string "sponsors", [], [.string "company"]⟩ := rfl
  rw [hobject, hthing]
  simp

end Definition

end EdgeFields
