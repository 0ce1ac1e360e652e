import SiteScript.Members

/-!
# What setting names leaves

Setting names one after the other makes up no members, and names no member twice.  The value of a
name is the one that was set last.
-/

namespace SiteScript.Members

variable {α : Type}

theorem mem_of_mem_set {name : String} {value : α} {members : Members α} {member : String × α}
    (isMember : member ∈ members.set name value) : member = (name, value) ∨ member ∈ members := by
  induction members with
  | nil => exact Or.inl (List.mem_singleton.mp isMember)
  | cons pair rest inductionHypothesis =>
      obtain ⟨other, old⟩ := pair
      rw [set] at isMember
      split at isMember
      · rcases List.mem_cons.mp isMember with equal | inRest
        · exact Or.inl equal
        · exact Or.inr (List.mem_cons_of_mem _ inRest)
      · rcases List.mem_cons.mp isMember with equal | inSet
        · exact Or.inr (equal ▸ List.mem_cons_self)
        · exact (inductionHypothesis inSet).imp_right (List.mem_cons_of_mem _)

theorem mem_of_mem_setAll {members : Members α} {pairs : List (String × α)}
    {member : String × α} (isMember : member ∈ members.setAll pairs) :
    member ∈ members ∨ member ∈ pairs := by
  induction pairs generalizing members with
  | nil => exact Or.inl isMember
  | cons pair rest inductionHypothesis =>
      rcases inductionHypothesis isMember with inSet | inRest
      · rcases mem_of_mem_set inSet with equal | inMembers
        · exact Or.inr (equal ▸ List.mem_cons_self)
        · exact Or.inl inMembers
      · exact Or.inr (List.mem_cons_of_mem pair inRest)

/-- Every member is one of the pairs that have been set. -/
theorem mem_of_mem_ofPairs {pairs : List (String × α)} {member : String × α}
    (isMember : member ∈ ofPairs pairs) : member ∈ pairs :=
  (mem_of_mem_setAll isMember).resolve_left List.not_mem_nil

theorem nodup_names_set {name : String} (value : α) {members : Members α}
    (nodup : members.names.Nodup) : (members.set name value).names.Nodup := by
  by_cases present : name ∈ members.names
  · rw [names_set_of_mem value present]
    exact nodup
  · rw [set_of_not_mem value present, names, List.map_append, List.nodup_append]
    refine ⟨nodup, by simp, ?_⟩
    intro other inMembers added isAdded equal
    rw [equal, List.mem_singleton.mp isAdded] at inMembers
    exact present inMembers

/-- No name is set twice. -/
theorem nodup_names_ofPairs (pairs : List (String × α)) : (ofPairs pairs).names.Nodup := by
  have ofMembers : ∀ members : Members α, members.names.Nodup →
      (members.setAll pairs).names.Nodup := by
    induction pairs with
    | nil => exact fun members nodup => nodup
    | cons pair rest inductionHypothesis =>
        exact fun members nodup => inductionHypothesis _ (nodup_names_set pair.2 nodup)
  exact ofMembers [] List.nodup_nil

/-- Members that have been set stay as they are when they are set again. -/
@[simp]
theorem ofPairs_ofPairs (pairs : List (String × α)) :
    ofPairs (ofPairs pairs) = ofPairs pairs :=
  ofPairs_of_nodup (nodup_names_ofPairs pairs)

/-! ## Values -/

/-- The value of a name is that of a member. -/
theorem mem_of_get? {members : Members α} {name : String} {value : α}
    (isValue : members.get? name = some value) : (name, value) ∈ members := by
  obtain ⟨before, after, split, -⟩ := List.lookup_eq_some_iff.mp isValue
  rw [split]
  exact List.mem_append_right before List.mem_cons_self

/-- Where no name repeats, the value of a name is that of its only member. -/
theorem get?_of_mem {members : Members α} (distinct : members.names.Nodup) {name : String}
    {value : α} (isMember : (name, value) ∈ members) : members.get? name = some value := by
  obtain ⟨before, after, rfl⟩ := List.append_of_mem isMember
  rw [names, List.map_append, List.nodup_append] at distinct
  refine List.lookup_eq_some_iff.mpr ⟨before, after, rfl, fun other isBefore => ?_⟩
  have differs := distinct.2.2 other.1 (List.mem_map_of_mem isBefore) name List.mem_cons_self
  exact bne_iff_ne.mpr (Ne.symm differs)

@[simp]
theorem get?_set_self (name : String) (value : α) (members : Members α) :
    (members.set name value).get? name = some value := by
  rw [get?]
  induction members with
  | nil => simp [set]
  | cons pair rest inductionHypothesis =>
      obtain ⟨other, old⟩ := pair
      rw [set]
      split
      · simp
      · rename_i differs
        rw [List.lookup_cons, beq_eq_false_iff_ne.mpr (Ne.symm differs)]
        exact inductionHypothesis

/-- Setting a name changes the value of no other one. -/
theorem get?_set_of_ne {name other : String} (differs : other ≠ name) (value : α)
    (members : Members α) : (members.set name value).get? other = members.get? other := by
  rw [get?, get?]
  induction members with
  | nil => simp [set, List.lookup_cons, beq_eq_false_iff_ne.mpr differs]
  | cons pair rest inductionHypothesis =>
      obtain ⟨first, old⟩ := pair
      rw [set]
      split
      · rename_i same
        rw [List.lookup_cons, List.lookup_cons, same]
        simp [beq_eq_false_iff_ne.mpr differs]
      · rw [List.lookup_cons, List.lookup_cons, inductionHypothesis]

end SiteScript.Members
