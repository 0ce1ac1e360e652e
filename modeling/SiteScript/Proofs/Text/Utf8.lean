import SiteScript.Text.Utf8

/-!
# UTF-8 is read back

Decoding the octets of a text gives the text.  One character at a time, the decoder
goes from the state between two characters back to it and has collected the
character; the bounds on the second octet exclude no character, as no character is a
surrogate.  They exclude all else: what the decoder accepts are the octets of the text
that it gives.
-/

namespace SiteScript.Text.Utf8

theorem toNat_octet {value : Nat} (small : value < 0x100) : (octet value).toNat = value := by
  simp [octet, Nat.mod_eq_of_lt small]

/-! ## Single octets -/

variable {position : Nat} {read : List Char} {rest : List UInt8}

/-- An octet of ASCII is a character. -/
theorem decodeFrom_ascii {code : Nat} (ascii : code < 0x80) :
    decodeFrom position read .ready (octet code :: rest) =
      decodeFrom (position + 1) (Char.ofNat code :: read) .ready rest := by
  have value : (octet code).toNat = code := toNat_octet (by omega)
  simp only [decodeFrom, value]
  rw [if_pos ascii]

/-- The first octet of a longer character. -/
theorem decodeFrom_lead {value : Nat} (small : value < 0x100) {state : State}
    (announced : lead? value = some state) :
    decodeFrom position read .ready (octet value :: rest) =
      decodeFrom (position + 1) read state rest := by
  have notAscii : ¬ value < 0x80 := by
    intro ascii
    rw [lead?, if_pos (by omega)] at announced
    contradiction
  simp only [decodeFrom, toNat_octet small]
  rw [if_neg notAscii, announced]

/-- The last octet of a longer character. -/
theorem decodeFrom_last {value low high seen bits : Nat} (above : low ≤ 0x80 + bits)
    (below : 0x80 + bits ≤ high) (small : bits < 0x40) :
    decodeFrom position read (.inside value low high 0 seen) (octet (0x80 + bits) :: rest) =
      decodeFrom (position + 1) (Char.ofNat (value * 0x40 + bits) :: read) .ready rest := by
  simp only [decodeFrom, toNat_octet (show 0x80 + bits < 0x100 by omega)]
  rw [if_pos ⟨above, below⟩, Nat.add_sub_cancel_left]

/-- An octet inside a longer character. -/
theorem decodeFrom_inside {value low high owed seen bits : Nat} (above : low ≤ 0x80 + bits)
    (below : 0x80 + bits ≤ high) (small : bits < 0x40) :
    decodeFrom position read (.inside value low high (owed + 1) seen)
        (octet (0x80 + bits) :: rest) =
      decodeFrom (position + 1) read
        (.inside (value * 0x40 + bits) 0x80 0xBF owed (seen + 1)) rest := by
  simp only [decodeFrom, toNat_octet (show 0x80 + bits < 0x100 by omega)]
  rw [if_pos ⟨above, below⟩, Nat.add_sub_cancel_left]

/-! ## Characters and texts -/

/-- The code points of characters. -/
theorem toNat_valid (c : Char) : c.toNat < 0xD800 ∨ 0xDFFF < c.toNat ∧ c.toNat < 0x110000 :=
  c.valid

theorem lead?_two {high : Nat} (above : 2 ≤ high) (below : high < 0x20) :
    lead? (0xC0 + high) = some (.inside high 0x80 0xBF 0 1) := by
  rw [lead?, if_neg (by omega), if_pos (by omega), Nat.add_sub_cancel_left]

theorem lead?_three {high : Nat} (below : high < 0x10) :
    lead? (0xE0 + high) =
      some (.inside high (if high = 0 then 0xA0 else 0x80) (if high = 0xD then 0x9F else 0xBF)
        1 1) := by
  have last : 0xE0 + high = 0xED ↔ high = 0xD := by omega
  rw [lead?, if_neg (by omega), if_neg (by omega), if_pos (by omega)]
  simp [last]

theorem lead?_four {high : Nat} (below : high < 5) :
    lead? (0xF0 + high) =
      some (.inside high (if high = 0 then 0x90 else 0x80) (if high = 4 then 0x8F else 0xBF)
        2 1) := by
  have last : 0xF0 + high = 0xF4 ↔ high = 4 := by omega
  rw [lead?, if_neg (by omega), if_neg (by omega), if_neg (by omega), if_pos (by omega)]
  simp [last]

/-- The octets of a character are read as that character. -/
theorem decodeFrom_encodeChar (c : Char) :
    decodeFrom position read .ready (encodeChar c ++ rest) =
      decodeFrom (position + (encodeChar c).length) (c :: read) .ready rest := by
  have valid := toNat_valid c
  have whole : Char.ofNat c.toNat = c := Char.ofNat_toNat c
  unfold encodeChar
  generalize c.toNat = code at valid whole ⊢
  dsimp only
  split
  · rename_i one
    rw [List.singleton_append, decodeFrom_ascii one, whole]
    rfl
  split
  · rename_i two
    have collected : code / 0x40 * 0x40 + code % 0x40 = code := by omega
    rw [List.cons_append, List.singleton_append,
      decodeFrom_lead (by omega) (lead?_two (by omega) (by omega)),
      decodeFrom_last (by omega) (by omega) (by omega), collected, whole]
    rfl
  split
  · rename_i three
    have second : code / 0x40 % 0x40 < 0x40 := Nat.mod_lt _ (by decide)
    have collected :
        (code / 0x1000 * 0x40 + code / 0x40 % 0x40) * 0x40 + code % 0x40 = code := by omega
    rw [List.cons_append, List.cons_append, List.singleton_append,
      decodeFrom_lead (by omega) (lead?_three (by omega)),
      decodeFrom_inside (by split <;> omega) (by split <;> omega) second,
      decodeFrom_last (by omega) (by omega) (by omega), collected, whole]
    rfl
  · rename_i four
    have second : code / 0x1000 % 0x40 < 0x40 := Nat.mod_lt _ (by decide)
    have third : code / 0x40 % 0x40 < 0x40 := Nat.mod_lt _ (by decide)
    have collected :
        ((code / 0x40000 * 0x40 + code / 0x1000 % 0x40) * 0x40 + code / 0x40 % 0x40) * 0x40 +
          code % 0x40 = code := by omega
    rw [List.cons_append, List.cons_append, List.cons_append, List.singleton_append,
      decodeFrom_lead (by omega) (lead?_four (by omega)),
      decodeFrom_inside (by split <;> omega) (by split <;> omega) second,
      decodeFrom_inside (by omega) (by omega) third,
      decodeFrom_last (by omega) (by omega) (by omega), collected, whole]
    rfl

theorem decodeFrom_encode (text : List Char) :
    decodeFrom position read .ready (encode text) = .ok (read.reverse ++ text) := by
  induction text generalizing position read with
  | nil => simp [encode, decodeFrom]
  | cons c rest inductionHypothesis =>
      rw [encode, List.flatMap_cons, decodeFrom_encodeChar, ← encode, inductionHypothesis]
      simp

/-- The octets of a text are read as that text. -/
@[simp]
theorem decode_encode (text : List Char) : decode (encode text) = .ok text := by
  rw [decode, decodeFrom_encode, List.reverse_nil, List.nil_append]

/-! ## What is read -/

theorem toNat_ofNat {code : Nat}
    (valid : code < 0xD800 ∨ 0xDFFF < code ∧ code < 0x110000) : (Char.ofNat code).toNat = code := by
  rw [Char.ofNat, dif_pos valid]
  rfl

theorem encodeChar_two {high low : Nat} (above : 2 ≤ high) (below : high < 0x20)
    (small : low < 0x40) :
    encodeChar (Char.ofNat (high * 0x40 + low)) = [octet (0xC0 + high), octet (0x80 + low)] := by
  have first : (high * 0x40 + low) / 0x40 = high := by omega
  have last : (high * 0x40 + low) % 0x40 = low := by omega
  rw [encodeChar, toNat_ofNat (by omega), if_neg (by omega), if_pos (by omega), first, last]

theorem encodeChar_three {high middle low : Nat} (below : high < 0x10)
    (middleSmall : middle < 0x40) (lowSmall : low < 0x40) (notShorter : high = 0 → 0x20 ≤ middle)
    (noSurrogate : high = 0xD → middle < 0x20) :
    encodeChar (Char.ofNat ((high * 0x40 + middle) * 0x40 + low)) =
      [octet (0xE0 + high), octet (0x80 + middle), octet (0x80 + low)] := by
  generalize codeEq : (high * 0x40 + middle) * 0x40 + low = code
  have first : code / 0x1000 = high := by omega
  have second : code / 0x40 % 0x40 = middle := by omega
  have last : code % 0x40 = low := by omega
  rw [encodeChar, toNat_ofNat (by omega), if_neg (by omega), if_neg (by omega),
    if_pos (by omega), first, second, last]

theorem encodeChar_four {high upper middle low : Nat} (upperSmall : upper < 0x40)
    (middleSmall : middle < 0x40) (lowSmall : low < 0x40) (notShorter : high = 0 → 0x10 ≤ upper)
    (inRange : high ≤ 4) (notBeyond : high = 4 → upper < 0x10) :
    encodeChar (Char.ofNat (((high * 0x40 + upper) * 0x40 + middle) * 0x40 + low)) =
      [octet (0xF0 + high), octet (0x80 + upper), octet (0x80 + middle), octet (0x80 + low)] := by
  generalize codeEq : ((high * 0x40 + upper) * 0x40 + middle) * 0x40 + low = code
  have first : code / 0x40000 = high := by omega
  have second : code / 0x1000 % 0x40 = upper := by omega
  have third : code / 0x40 % 0x40 = middle := by omega
  have last : code % 0x40 = low := by omega
  rw [encodeChar, toNat_ofNat (by omega), if_neg (by omega), if_neg (by omega),
    if_neg (by omega), first, second, third, last]

variable {bytes : List UInt8} {text : List Char}

/-- What follows inside a longer character is an octet in the announced range. -/
theorem exists_octet_of_decodeFrom_inside {value low high owed seen : Nat} (aboveTail : 0x80 ≤ low)
    (belowTail : high ≤ 0xBF)
    (accepted : decodeFrom position read (.inside value low high owed seen) bytes = .ok text) :
    ∃ bits rest, bits < 0x40 ∧ low ≤ 0x80 + bits ∧ 0x80 + bits ≤ high ∧
      bytes = octet (0x80 + bits) :: rest := by
  cases bytes with
  | nil => simp [decodeFrom] at accepted
  | cons byte rest =>
      simp only [decodeFrom] at accepted
      split at accepted
      · rename_i inRange
        have byteEq : 0x80 + (byte.toNat - 0x80) = byte.toNat := by omega
        refine ⟨byte.toNat - 0x80, rest, by omega, by omega, by omega, ?_⟩
        rw [byteEq, octet, UInt8.ofNat_toNat]
      · cases accepted

/-- The octets that announce further ones. -/
theorem exists_of_lead?_eq_some {value : Nat} {state : State} (announced : lead? value = some state) :
    (∃ high, value = 0xC0 + high ∧ 2 ≤ high ∧ high < 0x20) ∨
      (∃ high, value = 0xE0 + high ∧ high < 0x10) ∨ ∃ high, value = 0xF0 + high ∧ high < 5 := by
  rw [lead?] at announced
  split at announced
  · cases announced
  split at announced
  · exact Or.inl ⟨value - 0xC0, by omega, by omega, by omega⟩
  split at announced
  · exact Or.inr (Or.inl ⟨value - 0xE0, by omega, by omega⟩)
  split at announced
  · exact Or.inr (Or.inr ⟨value - 0xF0, by omega, by omega⟩)
  · cases announced

/-- What is read at the beginning of a character are the octets of one. -/
theorem exists_encodeChar_of_decodeFrom {byte : UInt8}
    (accepted : decodeFrom position read .ready (byte :: rest) = .ok text) :
    ∃ c later next, byte :: rest = encodeChar c ++ later ∧
      decodeFrom next (c :: read) .ready later = .ok text := by
  have byteEq : byte = octet byte.toNat := by rw [octet, UInt8.ofNat_toNat]
  have small := byte.toNat_lt
  generalize byte.toNat = value at byteEq small
  subst byteEq
  by_cases ascii : value < 0x80
  · rw [decodeFrom_ascii ascii] at accepted
    refine ⟨_, rest, _, ?_, accepted⟩
    rw [encodeChar, toNat_ofNat (by omega), if_pos ascii, List.singleton_append]
  cases announced : lead? value with
  | none =>
      simp only [decodeFrom, toNat_octet small] at accepted
      rw [if_neg ascii, announced] at accepted
      cases accepted
  | some state =>
      rcases exists_of_lead?_eq_some announced with
        ⟨high, rfl, above, below⟩ | ⟨high, rfl, below⟩ | ⟨high, rfl, below⟩
      · rw [decodeFrom_lead small (lead?_two above below)] at accepted
        obtain ⟨low, later, lowSmall, lowAbove, lowBelow, rfl⟩ :=
          exists_octet_of_decodeFrom_inside (by omega) (by omega) accepted
        rw [decodeFrom_last lowAbove lowBelow lowSmall] at accepted
        refine ⟨_, later, _, ?_, accepted⟩
        rw [encodeChar_two above below lowSmall]
        rfl
      · rw [decodeFrom_lead small (lead?_three below)] at accepted
        obtain ⟨middle, others, middleSmall, middleAbove, middleBelow, rfl⟩ :=
          exists_octet_of_decodeFrom_inside (by split <;> omega) (by split <;> omega) accepted
        rw [decodeFrom_inside middleAbove middleBelow middleSmall] at accepted
        obtain ⟨low, later, lowSmall, lowAbove, lowBelow, rfl⟩ :=
          exists_octet_of_decodeFrom_inside (by omega) (by omega) accepted
        rw [decodeFrom_last lowAbove lowBelow lowSmall] at accepted
        refine ⟨_, later, _, ?_, accepted⟩
        rw [encodeChar_three below middleSmall lowSmall
          (fun zero => by rw [if_pos zero] at middleAbove; omega)
          (fun last => by rw [if_pos last] at middleBelow; omega)]
        rfl
      · rw [decodeFrom_lead small (lead?_four below)] at accepted
        obtain ⟨upper, inner, upperSmall, upperAbove, upperBelow, rfl⟩ :=
          exists_octet_of_decodeFrom_inside (by split <;> omega) (by split <;> omega) accepted
        rw [decodeFrom_inside upperAbove upperBelow upperSmall] at accepted
        obtain ⟨middle, others, middleSmall, middleAbove, middleBelow, rfl⟩ :=
          exists_octet_of_decodeFrom_inside (by omega) (by omega) accepted
        rw [decodeFrom_inside middleAbove middleBelow middleSmall] at accepted
        obtain ⟨low, later, lowSmall, lowAbove, lowBelow, rfl⟩ :=
          exists_octet_of_decodeFrom_inside (by omega) (by omega) accepted
        rw [decodeFrom_last lowAbove lowBelow lowSmall] at accepted
        refine ⟨_, later, _, ?_, accepted⟩
        rw [encodeChar_four upperSmall middleSmall lowSmall
          (fun zero => by rw [if_pos zero] at upperAbove; omega) (by omega)
          (fun last => by rw [if_pos last] at upperBelow; omega)]
        rfl

theorem encodeChar_ne_nil (c : Char) : encodeChar c ≠ [] := by
  unfold encodeChar
  dsimp only
  split
  · simp
  split
  · simp
  split <;> simp

/-- Octets that are read are the octets of what is read.  The induction is on the number of
octets, as a character takes one to four of them. -/
theorem exists_encode_of_decodeFrom
    (accepted : decodeFrom position read .ready bytes = .ok text) :
    ∃ later, text = read.reverse ++ later ∧ bytes = encode later := by
  induction lengthEq : bytes.length using Nat.strongRecOn generalizing bytes position read with
  | _ count inductionHypothesis =>
    cases bytes with
    | nil =>
        rw [decodeFrom] at accepted
        exact ⟨[], by simpa using accepted.symm, rfl⟩
    | cons byte rest =>
        obtain ⟨c, others, next, split, acceptedOthers⟩ :=
          exists_encodeChar_of_decodeFrom accepted
        have shorter : others.length < count := by
          have positive := List.length_pos_iff.mpr (encodeChar_ne_nil c)
          have total := congrArg List.length split
          rw [List.length_append] at total
          omega
        obtain ⟨later, textEq, othersEq⟩ := inductionHypothesis _ shorter acceptedOthers rfl
        refine ⟨c :: later, by simp [textEq], ?_⟩
        rw [split, othersEq, encode, encode, List.flatMap_cons]

/-- Exactly the octets of a text are read as that text. -/
theorem decode_eq_ok_iff : decode bytes = .ok text ↔ bytes = encode text := by
  constructor
  · intro accepted
    obtain ⟨later, rfl, bytesEq⟩ := exists_encode_of_decodeFrom accepted
    exact bytesEq
  · rintro rfl
    exact decode_encode text

/-- Different texts have different octets. -/
theorem eq_of_encode_eq {first second : List Char} (equal : encode first = encode second) :
    first = second := by
  have readSame : decode (encode first) = .ok second := decode_eq_ok_iff.mpr equal
  rw [decode_encode] at readSame
  exact Except.ok.inj readSame

/-! ## Texts of ASCII -/

/-- A text of ASCII has one octet for each character. -/
theorem encode_of_ascii {text : List Char} (ascii : ∀ c ∈ text, c.toNat < 0x80) :
    encode text = text.map fun c => octet c.toNat := by
  induction text with
  | nil => rfl
  | cons c rest inductionHypothesis =>
      have asciiRest : ∀ d ∈ rest, d.toNat < 0x80 := fun d member =>
        ascii d (List.mem_cons_of_mem c member)
      rw [encode, List.flatMap_cons, ← encode, inductionHypothesis asciiRest, encodeChar,
        if_pos (ascii c List.mem_cons_self)]
      rfl

end SiteScript.Text.Utf8
