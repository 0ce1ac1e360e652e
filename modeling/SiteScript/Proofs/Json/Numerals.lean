import SiteScript.Json.Token
import SiteScript.Proofs.Json.Literals

/-!
# Numerals

The literals of numbers by the grammar of JSON: an optional minus, digits without a leading zero,
and then a fraction and an exponent, either of which may be missing.  Reading a literal takes it
apart in just this way, so exactly the numerals are read.
-/

namespace SiteScript.Number

/-! ## The grammar -/

/-- Digits, of which there is at least one. -/
structure IsDigits (digits : List Char) : Prop where
  areDigits : ∀ c ∈ digits, isDigit c
  notEmpty : digits ≠ []

/-- A point and the digits behind it, or nothing. -/
inductive IsFraction : List Char → Prop
  | absent : IsFraction []
  | present {digits : List Char} (isDigits : IsDigits digits) : IsFraction ('.' :: digits)

/-- The letter of an exponent, a sign if there is one, and digits, or nothing. -/
inductive IsExponent : List Char → Prop
  | absent : IsExponent []
  | unsigned {mark : Char} {digits : List Char} (isMark : mark = 'e' ∨ mark = 'E')
    (isDigits : IsDigits digits) : IsExponent (mark :: digits)
  | signed {mark sign : Char} {digits : List Char} (isMark : mark = 'e' ∨ mark = 'E')
    (isSign : sign = '+' ∨ sign = '-') (isDigits : IsDigits digits) :
    IsExponent (mark :: sign :: digits)

/-- Digits without a leading zero, a fraction and an exponent. -/
inductive IsUnsigned : List Char → Prop
  | parts {whole fraction exponent : List Char} (isWhole : IsWhole whole)
    (isFraction : IsFraction fraction) (isExponent : IsExponent exponent) :
    IsUnsigned (whole ++ (fraction ++ exponent))

/-- The literals of numbers, by the grammar of JSON. -/
inductive IsNumeral : List Char → Prop
  | positive {text : List Char} (isUnsigned : IsUnsigned text) : IsNumeral text
  | negative {text : List Char} (isUnsigned : IsUnsigned text) : IsNumeral ('-' :: text)

/-! ## Reading part by part -/

/-- Reads the exponent, if there is one, with which a literal ends. -/
def ending? : List Char → Option (Option Int)
  | [] => some none
  | c :: rest => if c = 'e' ∨ c = 'E' then (exponent? rest).map some else none

/-- Reads the fraction, if there is one, and what stands behind it. -/
def fraction? : List Char → Option (Option (List Char) × List Char)
  | '.' :: rest =>
    if (rest.takeWhile isDigit).isEmpty then none
    else some (some (rest.takeWhile isDigit), rest.dropWhile isDigit)
  | text => some (none, text)

/-- Reads a literal behind its sign. -/
def unsignedLiteral? (negative : Bool) (text : List Char) : Option Literal := do
  let whole := text.takeWhile isDigit
  guard (!whole.isEmpty && (whole.length == 1 || whole.head? != some '0'))
  let part ← fraction? (text.dropWhile isDigit)
  let exponent ← ending? part.2
  return ⟨negative, whole, part.1, exponent⟩

/-- The sign of a literal, and what stands behind it. -/
def sign : List Char → Bool × List Char
  | '-' :: rest => (true, rest)
  | text => (false, text)

/-- A literal is read part by part. -/
theorem literal?_eq (text : List Char) :
    literal? text = unsignedLiteral? (sign text).1 (sign text).2 := by
  have endings : ∀ (behind : List Char) (make : Option Int → Literal),
      (match behind with
        | [] => some (make none)
        | c :: rest => do
          guard (c = 'e' ∨ c = 'E')
          return make (some (← exponent? rest))) =
        (ending? behind).bind fun exponent => some (make exponent) := by
    intro behind make
    cases behind with
    | nil => rfl
    | cons c rest =>
        by_cases isMark : c = 'e' ∨ c = 'E'
        · simp only [ending?, guard, isMark, if_true]
          cases exponent? rest <;> rfl
        · simp only [ending?, guard, isMark, if_false]
          rfl
  unfold literal?
  split
  rename_i negative unsigned isSigned
  have signEq : sign text = (negative, unsigned) := isSigned
  rw [signEq, unsignedLiteral?]
  simp only [List.span_eq_takeWhile_dropWhile]
  congr 1
  funext _
  generalize List.takeWhile isDigit unsigned = whole
  generalize List.dropWhile isDigit unsigned = behind
  split
  · rename_i rest
    rw [fraction?]
    split
    · rfl
    · exact endings _ fun exponent => ⟨negative, whole, some (rest.takeWhile isDigit), exponent⟩
  · rename_i notPoint
    rw [fraction?]
    · exact endings _ fun exponent => ⟨negative, whole, none, exponent⟩
    · exact notPoint

/-! ## Exponents -/

theorem isSome_unsigned?_iff {digits : List Char} :
    (exponent?.unsigned? digits).isSome ↔ IsDigits digits := by
  rw [exponent?.unsigned?]
  split
  · rename_i accepted
    simp only [Bool.and_eq_true, Bool.not_eq_true', List.isEmpty_eq_false_iff,
      List.all_eq_true] at accepted
    exact iff_of_true rfl ⟨accepted.2, accepted.1⟩
  · rename_i refused
    refine iff_of_false Bool.false_ne_true fun isDigits => refused ?_
    simpa [isDigits.notEmpty] using isDigits.areDigits

/-- Exactly the exponents end a literal. -/
theorem isSome_ending?_iff {text : List Char} : (ending? text).isSome ↔ IsExponent text := by
  constructor
  · intro ends
    cases text with
    | nil => exact .absent
    | cons mark rest =>
        rw [ending?] at ends
        split at ends
        · rename_i isMark
          rw [Option.isSome_map] at ends
          unfold exponent? at ends
          split at ends
          · exact .signed isMark (Or.inl rfl) (isSome_unsigned?_iff.mp ends)
          · rw [Option.isSome_map] at ends
            exact .signed isMark (Or.inr rfl) (isSome_unsigned?_iff.mp ends)
          · exact .unsigned isMark (isSome_unsigned?_iff.mp ends)
        · cases ends
  · intro isExponent
    cases isExponent with
    | absent => rfl
    | @unsigned mark digits isMark isDigits =>
        have notSign : ∀ sign, ¬ isDigit sign → ∀ rest, digits ≠ sign :: rest := by
          rintro sign notDigit rest rfl
          exact notDigit (isDigits.areDigits sign List.mem_cons_self)
        rw [ending?, if_pos isMark, Option.isSome_map, exponent?, isSome_unsigned?_iff]
        · exact isDigits
        · exact notSign '+' (by decide)
        · exact notSign '-' (by decide)
    | @signed mark sign digits isMark isSign isDigits =>
        have accepted := isSome_unsigned?_iff.mpr isDigits
        rw [ending?, if_pos isMark, Option.isSome_map]
        rcases isSign with rfl | rfl
        · exact accepted
        · exact Option.isSome_map.trans accepted

/-! ## Digits in front of a point -/

/-- Whether a text does not go on with a digit. -/
def endsDigits (text : List Char) : Prop :=
  ∀ c ∈ text.head?, isDigit c = false

theorem IsExponent.endsDigits {text : List Char} (isExponent : IsExponent text) :
    endsDigits text := by
  cases isExponent with
  | absent => exact nofun
  | unsigned isMark | signed isMark =>
      rintro c ⟨⟩
      rcases isMark with rfl | rfl <;> decide

/-- Digits are read to their end. -/
theorem takeWhile_isDigit {digits rest : List Char} (areDigits : ∀ c ∈ digits, isDigit c)
    (ends : endsDigits rest) : (digits ++ rest).takeWhile isDigit = digits := by
  rw [List.takeWhile_append_of_pos areDigits]
  cases rest with
  | nil => simp
  | cons c rest => simp [ends c rfl]

theorem dropWhile_isDigit {digits rest : List Char} (areDigits : ∀ c ∈ digits, isDigit c)
    (ends : endsDigits rest) : (digits ++ rest).dropWhile isDigit = rest := by
  rw [List.dropWhile_append_of_pos areDigits]
  cases rest with
  | nil => rfl
  | cons c rest => simp [ends c rfl]

theorem isWhole_iff {digits : List Char} (areDigits : ∀ c ∈ digits, isDigit c) :
    (!digits.isEmpty && (digits.length == 1 || digits.head? != some '0')) = true ↔
      IsWhole digits := by
  refine ⟨fun accepted => ⟨areDigits, ?_, ?_⟩, IsWhole.accepted⟩
  · simp only [Bool.and_eq_true, Bool.not_eq_true', List.isEmpty_eq_false_iff] at accepted
    exact accepted.1
  · simpa using (Bool.and_eq_true_iff.mp accepted).2

/-! ## Fractions -/

/-- A fraction is read up to the exponent. -/
theorem exists_fraction?_append {fraction exponent : List Char} (isFraction : IsFraction fraction)
    (isExponent : IsExponent exponent) :
    ∃ digits, fraction? (fraction ++ exponent) = some (digits, exponent) := by
  cases isFraction with
  | absent =>
      refine ⟨none, ?_⟩
      rw [List.nil_append, fraction?]
      rintro rest rfl
      cases isExponent with
      | unsigned isMark | signed isMark => exact absurd isMark (by decide)
  | @present digits isDigits =>
      refine ⟨some digits, ?_⟩
      rw [List.cons_append, fraction?, takeWhile_isDigit isDigits.areDigits isExponent.endsDigits,
        dropWhile_isDigit isDigits.areDigits isExponent.endsDigits, if_neg]
      rw [List.isEmpty_iff]
      exact isDigits.notEmpty

/-- What is read as a fraction is one. -/
theorem exists_of_fraction?_eq_some {text : List Char} {part : Option (List Char) × List Char}
    (isPart : fraction? text = some part) :
    ∃ fraction, IsFraction fraction ∧ text = fraction ++ part.2 := by
  unfold fraction? at isPart
  split at isPart
  · rename_i rest
    split at isPart
    · cases isPart
    · rename_i notEmpty
      cases isPart
      refine ⟨'.' :: rest.takeWhile isDigit, .present ⟨?_, ?_⟩, ?_⟩
      · exact fun c member => List.mem_takeWhile_imp member
      · rwa [List.isEmpty_iff] at notEmpty
      · rw [List.cons_append, List.takeWhile_append_dropWhile]
  · cases isPart
    exact ⟨[], .absent, rfl⟩

/-! ## Literals -/

theorem isSome_unsignedLiteral?_iff {negative : Bool} {text : List Char} :
    (unsignedLiteral? negative text).isSome ↔ IsUnsigned text := by
  have areDigits : ∀ c ∈ text.takeWhile isDigit, isDigit c := fun c member =>
    List.mem_takeWhile_imp member
  constructor
  · intro accepted
    obtain ⟨literal, isLiteral⟩ := Option.isSome_iff_exists.mp accepted
    obtain ⟨_, isAccepted, isLiteral⟩ := Option.bind_eq_some_iff.mp isLiteral
    obtain ⟨part, isPart, isLiteral⟩ := Option.bind_eq_some_iff.mp isLiteral
    obtain ⟨exponent, ends, -⟩ := Option.bind_eq_some_iff.mp isLiteral
    obtain ⟨fraction, isFraction, behind⟩ := exists_of_fraction?_eq_some isPart
    have isWhole : IsWhole (text.takeWhile isDigit) := by
      rw [← isWhole_iff areDigits]
      by_contra refused
      simp [guard, refused] at isAccepted
    have isExponent := isSome_ending?_iff.mp (Option.isSome_of_eq_some ends)
    rw [← List.takeWhile_append_dropWhile (p := isDigit) (l := text), behind]
    exact .parts isWhole isFraction isExponent
  · intro isUnsigned
    obtain @⟨whole, fraction, exponent, isWhole, isFraction, isExponent⟩ := isUnsigned
    obtain ⟨digits, isPart⟩ := exists_fraction?_append isFraction isExponent
    have ends : endsDigits (fraction ++ exponent) := by
      cases isFraction with
      | absent => exact isExponent.endsDigits
      | present =>
          rintro c ⟨⟩
          rfl
    obtain ⟨value, isEnding⟩ := Option.isSome_iff_exists.mp (isSome_ending?_iff.mpr isExponent)
    rw [unsignedLiteral?, takeWhile_isDigit isWhole.areDigits ends,
      dropWhile_isDigit isWhole.areDigits ends, isWhole.accepted, isPart]
    simp [guard, isEnding]

theorem IsUnsigned.exists_eq_cons {text : List Char} (isUnsigned : IsUnsigned text) :
    ∃ first rest, text = first :: rest ∧ isDigit first := by
  obtain @⟨whole, fraction, exponent, isWhole, -, -⟩ := isUnsigned
  obtain ⟨first, rest, rfl⟩ := List.exists_cons_of_ne_nil isWhole.notEmpty
  exact ⟨first, _, rfl, isWhole.areDigits first List.mem_cons_self⟩

/-- Exactly the numerals are read. -/
theorem isSome_literal?_iff {text : List Char} : (literal? text).isSome ↔ IsNumeral text := by
  rw [literal?_eq, isSome_unsignedLiteral?_iff]
  unfold sign
  split
  · rename_i rest
    refine ⟨.negative, fun isNumeral => ?_⟩
    cases isNumeral with
    | negative isUnsigned => exact isUnsigned
    | positive isUnsigned =>
        obtain ⟨first, _, equal, isDigit⟩ := isUnsigned.exists_eq_cons
        cases equal
        exact absurd isDigit (by decide)
  · rename_i notMinus
    refine ⟨.positive, fun isNumeral => ?_⟩
    cases isNumeral with
    | positive isUnsigned => exact isUnsigned
    | negative isUnsigned => exact absurd rfl (notMinus _)

/-! ## Characters -/

open Json (isNumberChar)

theorem isNumberChar_of_isDigit {c : Char} (digit : isDigit c) : isNumberChar c := by
  simp [isNumberChar, digit]

theorem IsDigits.areNumberChars {digits : List Char} (isDigits : IsDigits digits) :
    ∀ c ∈ digits, isNumberChar c := fun c member =>
  isNumberChar_of_isDigit (isDigits.areDigits c member)

theorem IsFraction.areNumberChars {fraction : List Char} (isFraction : IsFraction fraction) :
    ∀ c ∈ fraction, isNumberChar c := by
  cases isFraction with
  | absent => exact nofun
  | present isDigits => exact List.forall_mem_cons.mpr ⟨rfl, isDigits.areNumberChars⟩

theorem IsExponent.areNumberChars {exponent : List Char} (isExponent : IsExponent exponent) :
    ∀ c ∈ exponent, isNumberChar c := by
  cases isExponent with
  | absent => exact nofun
  | unsigned isMark isDigits =>
      refine List.forall_mem_cons.mpr ⟨?_, isDigits.areNumberChars⟩
      rcases isMark with rfl | rfl <;> rfl
  | signed isMark isSign isDigits =>
      refine List.forall_mem_cons.mpr
        ⟨?_, List.forall_mem_cons.mpr ⟨?_, isDigits.areNumberChars⟩⟩
      · rcases isMark with rfl | rfl <;> rfl
      · rcases isSign with rfl | rfl <;> rfl

theorem IsUnsigned.areNumberChars {text : List Char} (isUnsigned : IsUnsigned text) :
    ∀ c ∈ text, isNumberChar c := by
  obtain ⟨isWhole, isFraction, isExponent⟩ := isUnsigned
  refine List.forall_mem_append.mpr ⟨fun c member => ?_, List.forall_mem_append.mpr
    ⟨isFraction.areNumberChars, isExponent.areNumberChars⟩⟩
  exact isNumberChar_of_isDigit (isWhole.areDigits c member)

/-- A numeral begins with a minus or a digit and goes on with characters of numbers. -/
theorem IsNumeral.exists_eq_cons {text : List Char} (isNumeral : IsNumeral text) :
    ∃ first rest, text = first :: rest ∧ (first = '-' ∨ isDigit first) ∧
      ∀ c ∈ rest, isNumberChar c := by
  cases isNumeral with
  | positive isUnsigned =>
      have areNumberChars := isUnsigned.areNumberChars
      obtain ⟨first, rest, rfl, digit⟩ := isUnsigned.exists_eq_cons
      exact ⟨first, rest, rfl, Or.inr digit, (List.forall_mem_cons.mp areNumberChars).2⟩
  | negative isUnsigned => exact ⟨'-', _, rfl, Or.inl rfl, isUnsigned.areNumberChars⟩

end SiteScript.Number
