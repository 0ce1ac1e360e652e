import SiteScript.Record
import SiteScript.Proofs.Json.Exact

/-!
# What is read from records

A list is read if its items are, and what is read from the fields of a record is either a
default or comes from one of the record's values.
-/

namespace SiteScript.Record

variable {α β : Type}

/-! ## Texts and lists -/

theorem text?_eq_some_iff {value : Json} {text : String} :
    text? value = some text ↔ value = .str text := by
  cases value with
  | str other => rw [text?, Option.some.injEq, Json.str.injEq]
  | _ => exact iff_of_false nofun nofun

/-- A written list is read if each of its items is. -/
theorem list?_map {read : Json → Option α} {write : α → Json} {list : List α}
    (reads : ∀ a ∈ list, read (write a) = some a) : list? read (.arr (list.map write)) = some list := by
  rw [list?]
  induction list with
  | nil => rfl
  | cons a rest inductionHypothesis =>
      obtain ⟨first, others⟩ := List.forall_mem_cons.mp reads
      rw [List.map_cons, List.mapM_cons, first, inductionHypothesis others]
      rfl

/-- Written texts are read. -/
theorem list?_texts (texts : List String) : list? text? (.texts texts) = some texts :=
  list?_map fun _ _ => rfl

/-- What is read from a list is read from its items. -/
theorem exists_of_mem_list? {read : Json → Option α} {value : Json} {list : List α}
    (isRead : list? read value = some list) :
    ∃ items, value = .arr items ∧ ∀ a ∈ list, ∃ item ∈ items, read item = some a := by
  cases value with
  | arr items =>
      refine ⟨items, rfl, ?_⟩
      rw [list?] at isRead
      induction items generalizing list with
      | nil =>
          obtain rfl := Option.some.inj isRead
          exact nofun
      | cons item rest inductionHypothesis =>
          rw [List.mapM_cons] at isRead
          obtain ⟨a, firstRead, restRead⟩ := Option.bind_eq_some_iff.mp isRead
          obtain ⟨others, othersRead, consEq⟩ := Option.bind_eq_some_iff.mp restRead
          obtain rfl := Option.some.inj consEq
          refine List.forall_mem_cons.mpr ⟨⟨item, List.mem_cons_self, firstRead⟩, fun b member => ?_⟩
          obtain ⟨source, isItem, isSource⟩ := inductionHypothesis othersRead b member
          exact ⟨source, List.mem_cons_of_mem item isItem, isSource⟩
  | _ => cases isRead

/-- Reading a list of what is made of things reads the things. -/
theorem list?_map_read (read : Json → Option α) (make : α → β) (value : Json) :
    list? (fun item => (read item).map make) value = (list? read value).map (List.map make) := by
  cases value with
  | arr items =>
      rw [list?, list?]
      induction items with
      | nil => rfl
      | cons item rest inductionHypothesis =>
          rw [List.mapM_cons, List.mapM_cons, inductionHypothesis]
          cases read item with
          | none => rfl
          | some a => cases List.mapM read rest <;> rfl
  | _ => rfl

/-- What is made of the items of a list, whatever they are. -/
theorem exists_of_list?_some {make : Json → α} {value : Json} {list : List α}
    (isRead : list? (fun item => some (make item)) value = some list) :
    ∃ items, value = .arr items ∧ list = items.map make := by
  cases value with
  | arr items =>
      have made := list?_map_read some make (.arr items)
      have itemsRead : list? some (.arr items) = some items := by
        simpa using @list?_map Json some id items fun _ _ => rfl
      rw [itemsRead] at made
      exact ⟨items, rfl, Option.some.inj (isRead.symm.trans made)⟩
  | _ => cases isRead

/-- Exactly the lists of texts are read as texts. -/
theorem list?_text?_eq_some_iff {value : Json} {texts : List String} :
    list? text? value = some texts ↔ value = .texts texts := by
  refine ⟨fun isRead => ?_, ?_⟩
  · cases value with
    | arr items =>
        rw [list?] at isRead
        induction items generalizing texts with
        | nil =>
            cases isRead
            rfl
        | cons item rest inductionHypothesis =>
            rw [List.mapM_cons] at isRead
            obtain ⟨text, isText, isRead⟩ := Option.bind_eq_some_iff.mp isRead
            obtain ⟨others, othersRead, equal⟩ := Option.bind_eq_some_iff.mp isRead
            cases equal
            have restEq := inductionHypothesis othersRead
            rw [Json.texts, Json.arr.injEq] at restEq
            rw [text?_eq_some_iff.mp isText, restEq]
            rfl
    | _ => cases isRead
  · rintro rfl
    exact list?_texts texts

/-- What is made of the items of a list is read from exactly the list. -/
theorem list?_some_eq_some_iff {make : Json → α} {value : Json} {list : List α} :
    list? (fun item => some (make item)) value = some list ↔
      ∃ items, value = .arr items ∧ list = items.map make := by
  refine ⟨exists_of_list?_some, ?_⟩
  rintro ⟨items, rfl, rfl⟩
  exact List.mapM_pure

/-! ## Fields -/

/-- What is read as the members of an object is the object. -/
theorem obj_of_members? {value : Json} {members : Members Json}
    (areMembers : members? value = some members) : value = .obj members := by
  cases value with
  | obj others => rw [Option.some.inj areMembers]
  | _ => cases areMembers

/-- The values of the fields of a record name each member once if the record does. -/
theorem isDistinct_of_fields? {names : List String} {value : Json} {fields : Fields}
    (distinct : value.isDistinct) (isRead : fields? names value = some fields) :
    ∀ field ∈ fields, field.2.isDistinct := by
  cases value with
  | obj members =>
      simp only [fields?] at isRead
      split at isRead
      · obtain rfl := Option.some.inj isRead
        rw [Json.isDistinct_obj] at distinct
        exact fun field isField => distinct.2 field (List.mem_filter.mp isField).1
      · cases isRead
  | arr items =>
      simp only [fields?] at isRead
      split at isRead
      · obtain rfl := Option.some.inj isRead
        rw [Json.isDistinct_arr] at distinct
        exact fun field isField => distinct field.2 (List.of_mem_zip isField).2
      · cases isRead
  | _ => cases isRead

/-- Leaving out members does not change the values of the names that are kept. -/
theorem lookup_filter {keeps : String → Bool} {name : String} (kept : keeps name)
    (members : Members Json) :
    (members.filter fun member => keeps member.1).lookup name = members.lookup name := by
  induction members with
  | nil => rfl
  | cons member rest inductionHypothesis =>
      rw [List.filter_cons, List.lookup_cons]
      split
      · rw [List.lookup_cons, inductionHypothesis]
      · rename_i leftOut
        have differs : (name == member.1) = false := by
          rw [beq_eq_false_iff_ne]
          rintro rfl
          exact leftOut kept
        rw [differs, inductionHypothesis]

/-- In an object that names each member once every known name is a field. -/
theorem exists_fields?_obj {members : Members Json} (distinct : members.names.Nodup)
    (names : List String) : ∃ fields, fields? names (.obj members) = some fields := by
  have knownDistinct : ((members.filter fun member => names.contains member.1).map
      Prod.fst).Nodup :=
    distinct.sublist (List.filter_sublist.map Prod.fst)
  exact ⟨_, if_pos knownDistinct⟩

/-- Every known name has the same value among the fields as in the object. -/
theorem lookup_of_fields?_obj {names : List String} {members : Members Json} {fields : Fields}
    (areFields : fields? names (.obj members) = some fields) {name : String} (known : name ∈ names) :
    fields.lookup name = members.lookup name := by
  simp only [fields?] at areFields
  split at areFields
  · rw [← Option.some.inj areFields]
    exact lookup_filter (List.contains_iff_mem.mpr known) members
  · cases areFields

/-- The fields of a list have their values in order. -/
theorem lookup_zip {names : List String} (distinct : names.Nodup) {place : Nat} {name : String}
    (isName : names[place]? = some name) (items : List Json) :
    (names.zip items).lookup name = items[place]? := by
  induction names generalizing place items with
  | nil => cases isName
  | cons first rest inductionHypothesis =>
      obtain ⟨notInRest, restDistinct⟩ := List.nodup_cons.mp distinct
      cases items with
      | nil => rfl
      | cons item items =>
          rw [List.zip_cons_cons, List.lookup_cons]
          cases place with
          | zero =>
              rw [List.getElem?_cons_zero, Option.some.injEq] at isName
              rw [isName, beq_self_eq_true]
              rfl
          | succ place =>
              rw [List.getElem?_cons_succ] at isName
              have differs : (name == first) = false := by
                rw [beq_eq_false_iff_ne]
                rintro rfl
                exact notInRest (List.mem_of_getElem? isName)
              rw [differs]
              exact inductionHypothesis restDistinct isName items

namespace Fields

/-- A field with a default has it, or is read from one of the record's values. -/
theorem eq_or_exists_of_withDefault {fields : Fields} {name : String} {default a : α}
    {read : Json → Option α} (isRead : fields.withDefault name default read = some a) :
    a = default ∨ ∃ field ∈ fields, read field.2 = some a := by
  rw [withDefault] at isRead
  split at isRead
  · exact Or.inl (Option.some.inj isRead).symm
  · rename_i value isValue
    exact Or.inr ⟨(name, value), Members.mem_of_get? isValue, isRead⟩

/-- A field with a default is missing or has a value that is read. -/
theorem withDefault_eq_some_iff {fields : Fields} {name : String} {default a : α}
    {read : Json → Option α} :
    fields.withDefault name default read = some a ↔
      (fields.lookup name = none ∧ a = default) ∨
        ∃ value, fields.lookup name = some value ∧ read value = some a := by
  rw [withDefault]
  cases fields.lookup name with
  | none => simp [eq_comm]
  | some value => simp

/-- A field that must be present is read from one of the record's values. -/
theorem exists_of_required {fields : Fields} {name : String} {a : α} {read : Json → Option α}
    (isRead : fields.required name read = some a) : ∃ field ∈ fields, read field.2 = some a := by
  obtain ⟨value, isValue, isRead⟩ := Option.bind_eq_some_iff.mp isRead
  exact ⟨(name, value), Members.mem_of_get? isValue, isRead⟩

/-- A field that is kept whatever it is names each member once if the record does. -/
theorem isDistinct_of_withDefault {fields : Fields} {name : String} {value : Json}
    (distinct : ∀ field ∈ fields, field.2.isDistinct)
    (isRead : fields.withDefault name .null some = some value) : value.isDistinct := by
  rcases eq_or_exists_of_withDefault isRead with rfl | ⟨field, isField, valueEq⟩
  · rfl
  · obtain rfl := Option.some.inj valueEq
    exact distinct field isField

theorem withDefault_map (fields : Fields) (name : String) (default : α) (read : Json → Option α)
    (make : α → β) :
    fields.withDefault name (make default) (fun value => (read value).map make) =
      (fields.withDefault name default read).map make := by
  rw [withDefault, withDefault]
  split <;> rfl

end Fields

/-! ## Tags -/

/-- What is left of a record without its tag names each member once if the record does. -/
theorem isDistinct_of_splitTag? {name : String} {value tag rest : Json} (distinct : value.isDistinct)
    (isSplit : splitTag? name value = some (tag, rest)) : rest.isDistinct := by
  unfold splitTag? at isSplit
  split at isSplit
  · obtain ⟨_, -, equal⟩ := Option.map_eq_some_iff.mp isSplit
    cases equal
    rw [Json.isDistinct_obj] at distinct ⊢
    refine ⟨distinct.1.sublist (List.filter_sublist.map Prod.fst), fun member isMember => ?_⟩
    exact distinct.2 member (List.mem_filter.mp isMember).1
  · cases isSplit
    rw [Json.isDistinct_arr] at distinct ⊢
    exact (List.forall_mem_cons.mp distinct).2
  · cases isSplit

end SiteScript.Record
