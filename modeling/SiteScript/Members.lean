/-!
# Ordered members

An association list from names to values in which a name occurs once: setting a
name that is already present keeps its place and replaces its value, and a new
name goes to the end.  This is the order in which the objects of a document are
kept and written.
-/

namespace SiteScript

/-- Named values in order. -/
abbrev Members (α : Type) := List (String × α)

namespace Members

variable {α β : Type}

/-- Sets the value of a name, in its old place if it has one and at the end if not. -/
def set (name : String) (value : α) : Members α → Members α
  | [] => [(name, value)]
  | (other, old) :: rest =>
    if other = name then (name, value) :: rest else (other, old) :: set name value rest

/-- Sets names one after the other. -/
def setAll (members : Members α) (pairs : List (String × α)) : Members α :=
  pairs.foldl (fun members pair => members.set pair.1 pair.2) members

/-- The members that result from setting names one after the other: every name has its
first place and its last value. -/
def ofPairs (pairs : List (String × α)) : Members α :=
  setAll [] pairs

/-- The names in order. -/
def names (members : Members α) : List String :=
  members.map Prod.fst

/-- The value of a name. -/
def get? (members : Members α) (name : String) : Option α :=
  members.lookup name

@[simp]
theorem names_nil : names ([] : Members α) = [] :=
  rfl

@[simp]
theorem names_cons (pair : String × α) (rest : Members α) :
    names (pair :: rest) = pair.1 :: names rest :=
  rfl

/-- Setting a name that is present changes no name. -/
theorem names_set_of_mem {name : String} {members : Members α} (value : α)
    (present : name ∈ members.names) : (members.set name value).names = members.names := by
  induction members with
  | nil => simp at present
  | cons pair rest inductionHypothesis =>
    obtain ⟨other, old⟩ := pair
    by_cases same : other = name
    · simp [set, same]
    · have inRest : name ∈ names rest := by
        simpa [Ne.symm same] using present
      simp [set, same, inductionHypothesis inRest]

/-- Setting a new name appends it. -/
theorem set_of_not_mem {name : String} {members : Members α} (value : α)
    (new : name ∉ members.names) : members.set name value = members ++ [(name, value)] := by
  induction members with
  | nil => rfl
  | cons pair rest inductionHypothesis =>
    obtain ⟨other, old⟩ := pair
    have differs : other ≠ name := fun same => new (by simp [same])
    have notInRest : name ∉ names rest := fun inRest => new (by simp [inRest])
    simp [set, differs, inductionHypothesis notInRest]

/-- Setting names of which none is present or repeated appends them all. -/
theorem setAll_eq_append {members : Members α} {pairs : List (String × α)}
    (nodup : (names (members ++ pairs)).Nodup) : members.setAll pairs = members ++ pairs := by
  induction pairs generalizing members with
  | nil => simp [setAll]
  | cons pair rest inductionHypothesis =>
    obtain ⟨name, value⟩ := pair
    have new : name ∉ members.names := by
      simp only [names, List.map_append, List.map_cons, List.nodup_append, List.mem_cons] at nodup
      intro present
      exact nodup.2.2 name present name (Or.inl rfl) rfl
    have reassociated :
        members ++ (name, value) :: rest = (members ++ [(name, value)]) ++ rest := by
      simp
    rw [reassociated] at nodup ⊢
    rw [← inductionHypothesis nodup]
    simp [setAll, set_of_not_mem value new]

/-- Names that do not repeat keep their members as they are. -/
theorem ofPairs_of_nodup {pairs : List (String × α)} (nodup : (names pairs).Nodup) :
    ofPairs pairs = pairs :=
  @setAll_eq_append α [] pairs nodup

end Members

end SiteScript
