/-!
# Searching texts

Whether a text occurs in another one, and the leftmost place at which something
can be recognised.
-/

namespace SiteScript.Text

variable {α : Type}

/-- Whether a text occurs in another one. -/
def occursIn (part : List Char) : List Char → Bool
  | [] => part.isEmpty
  | c :: rest => part.isPrefixOf (c :: rest) || occursIn part rest

/-- Whether a text occurs in another one. -/
def contains (text part : String) : Bool :=
  occursIn part.toList text.toList

/-- What is recognised at the leftmost place at which anything is. -/
def leftmost? (recognise : List Char → Option α) : List Char → Option α
  | [] => recognise []
  | c :: rest =>
    match recognise (c :: rest) with
    | some found => some found
    | none => leftmost? recognise rest

/-- A text occurs in another one exactly when that one has it between two others. -/
theorem occursIn_iff {part text : List Char} :
    occursIn part text ↔ ∃ before after, text = before ++ part ++ after := by
  induction text with
  | nil =>
    simp only [occursIn, List.isEmpty_iff]
    constructor
    · rintro rfl
      exact ⟨[], [], rfl⟩
    · rintro ⟨before, after, equal⟩
      simp_all
  | cons c rest inductionHypothesis =>
    simp only [occursIn, Bool.or_eq_true, inductionHypothesis, List.isPrefixOf_iff_prefix]
    constructor
    · rintro (⟨after, equal⟩ | ⟨before, after, equal⟩)
      · exact ⟨[], after, by simp [equal]⟩
      · exact ⟨c :: before, after, by simp [equal]⟩
    · rintro ⟨before, after, equal⟩
      cases before with
      | nil => exact Or.inl ⟨after, by simpa using equal.symm⟩
      | cons first before =>
        simp only [List.cons_append, List.cons.injEq] at equal
        exact Or.inr ⟨before, after, by simpa using equal.2⟩

theorem isPrefixOf_append_cons {part : List Char} {separator : Char} (notIn : separator ∉ part)
    (left right : List Char) :
    part.isPrefixOf (left ++ separator :: right) = part.isPrefixOf left := by
  induction part generalizing left with
  | nil => simp
  | cons c part inductionHypothesis =>
      obtain ⟨differs, notInRest⟩ := not_or.mp (mt List.mem_cons.mpr notIn)
      cases left with
      | nil => simp [List.isPrefixOf, Ne.symm differs]
      | cons d left => simp [List.isPrefixOf, inductionHypothesis notInRest]

/-- A text without a separator is found on one of the sides of it. -/
theorem occursIn_append_cons {part : List Char} {separator : Char} (notIn : separator ∉ part)
    (left right : List Char) :
    occursIn part (left ++ separator :: right) = (occursIn part left || occursIn part right) := by
  induction left with
  | nil =>
      have begins := isPrefixOf_append_cons notIn [] right
      rw [List.nil_append] at begins ⊢
      conv => lhs; rw [occursIn, begins]
      cases part with
      | nil => rfl
      | cons c part => rfl
  | cons d left inductionHypothesis =>
      have begins := isPrefixOf_append_cons notIn (d :: left) right
      rw [List.cons_append] at begins ⊢
      rw [occursIn, begins, inductionHypothesis, occursIn, Bool.or_assoc]

end SiteScript.Text
