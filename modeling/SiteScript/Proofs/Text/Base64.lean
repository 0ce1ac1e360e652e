import SiteScript.Text.Base64

/-!
# Base64 is read back

Decoding the symbols of some octets gives the octets.  The symbols come in groups of
four, of which only the last one may be filled up, and a group of symbols holds the
bits of its octets in the same order.

Nothing else is read: a group that is accepted holds no bits but those of its octets,
and the padding stands where it has to.  So octets have one encoding.
-/

namespace SiteScript.Text.Base64

/-- The octet of a symbol's character. -/
def symbolOctet (c : Char) : UInt8 :=
  UInt8.ofNat c.toNat

/-! ## Symbols -/

/-- A symbol is read as its value, and it is not the padding. -/
theorem value?_symbol {value : Nat} (small : value < 0x40) :
    value? (symbolOctet (symbol value)) = some value ∧ symbolOctet (symbol value) ≠ pad := by
  have all : ∀ value : Fin 0x40, value? (symbolOctet (symbol value)) = some value.val ∧
      symbolOctet (symbol value) ≠ pad := by
    decide
  exact all ⟨value, small⟩

theorem valueAt_symbol {value : Nat} (small : value < 0x40) (position : Nat) :
    valueAt position (symbolOctet (symbol value)) = .ok value := by
  rw [valueAt, (value?_symbol small).1]

/-- Larger values have no symbols of their own. -/
theorem exists_symbol_eq (value : Nat) : ∃ small < 0x40, symbol value = symbol small := by
  by_cases small : value < 0x40
  · exact ⟨value, small, rfl⟩
  · refine ⟨63, by decide, ?_⟩
    rw [symbol, if_neg (by omega), if_neg (by omega), if_neg (by omega), if_neg (by omega)]
    rfl

/-- The characters of an encoding are symbols and the padding. -/
theorem mem_encode {bytes : List UInt8} {c : Char} (member : c ∈ encode bytes) :
    c = '=' ∨ ∃ value < 0x40, c = symbol value := by
  have isSymbol : ∀ value, c = symbol value → c = '=' ∨ ∃ value < 0x40, c = symbol value := by
    intro value equal
    obtain ⟨small, isSmall, same⟩ := exists_symbol_eq value
    exact Or.inr ⟨small, isSmall, equal.trans same⟩
  fun_induction encode bytes with
  | case1 => simp at member
  | case2 a bits =>
      simp only [List.mem_cons, List.not_mem_nil, or_false] at member
      rcases member with equal | equal | equal | equal
      · exact isSymbol _ equal
      · exact isSymbol _ equal
      · exact Or.inl equal
      · exact Or.inl equal
  | case3 a b bits =>
      simp only [List.mem_cons, List.not_mem_nil, or_false] at member
      rcases member with equal | equal | equal | equal
      · exact isSymbol _ equal
      · exact isSymbol _ equal
      · exact isSymbol _ equal
      · exact Or.inl equal
  | case4 a b c rest bits inductionHypothesis =>
      simp only [List.mem_cons] at member
      rcases member with equal | equal | equal | equal | member
      · exact isSymbol _ equal
      · exact isSymbol _ equal
      · exact isSymbol _ equal
      · exact isSymbol _ equal
      · exact inductionHypothesis member

/-- What holds of the padding and of every symbol holds of every character of an encoding. -/
theorem forall_mem_encode (holds : Char → Bool) (ofPad : holds '=')
    (ofSymbol : ∀ value : Fin 0x40, holds (symbol value)) {bytes : List UInt8} :
    ∀ c ∈ encode bytes, holds c := by
  intro c member
  rcases mem_encode member with equal | ⟨value, small, equal⟩
  · exact equal ▸ ofPad
  · exact equal ▸ ofSymbol ⟨value, small⟩

/-- An encoding comes in groups of four. -/
theorem length_encode_mod (bytes : List UInt8) : (encode bytes).length % 4 = 0 := by
  fun_induction encode bytes with
  | case1 => rfl
  | case2 a bits => simp
  | case3 a b bits => simp
  | case4 a b c rest bits inductionHypothesis =>
      simp only [List.length_cons]
      omega

/-! ## The last group -/

variable {start position : Nat}

theorem lastGroup_symbol {value : Nat} (small : value < 0x40) (rest : List UInt8) :
    lastGroup start none position (symbolOctet (symbol value) :: rest) =
      (lastGroup start none (position + 1) rest).map fun group =>
        (value :: group.1, group.2) := by
  conv => lhs; unfold lastGroup
  rw [if_neg (value?_symbol small).2, valueAt_symbol small]
  cases lastGroup start none (position + 1) rest <;> rfl

theorem lastGroup_pad {firstPad : Option Nat} (late : start + 2 ≤ position)
    (rest : List UInt8) :
    lastGroup start firstPad position (symbolOctet '=' :: rest) =
      (lastGroup start (some (firstPad.getD position)) (position + 1) rest).map fun group =>
        (group.1, group.2 + 1) := by
  have isPad : symbolOctet '=' = pad := rfl
  conv => lhs; unfold lastGroup
  rw [if_pos isPad, if_neg (by omega)]
  cases lastGroup start (some (firstPad.getD position)) (position + 1) rest <;> rfl

/-- The last group of a single octet. -/
theorem decodeLast_encode_one (a : UInt8) :
    decodeLast start ((encode [a]).map symbolOctet) = .ok [a] := by
  have below := a.toNat_lt
  have group : lastGroup start none start ((encode [a]).map symbolOctet) =
      .ok ([a.toNat * 0x10 / 0x40, a.toNat * 0x10 % 0x40], 2) := by
    simp only [encode, List.map_cons, List.map_nil]
    rw [lastGroup_symbol (by omega), lastGroup_symbol (by omega), lastGroup_pad (by omega),
      lastGroup_pad (by omega)]
    rfl
  have noBitsLeft : a.toNat * 0x10 % 0x40 % 0x10 = 0 := by omega
  have octet : a.toNat * 0x10 / 0x40 * 4 + a.toNat * 0x10 % 0x40 / 0x10 = a.toNat := by omega
  have notEmpty : ((encode [a]).map symbolOctet).isEmpty = false := rfl
  rw [decodeLast, notEmpty, group]
  simp [noBitsLeft, octet, bind, Except.bind]

/-- The last group of two octets. -/
theorem decodeLast_encode_two (a b : UInt8) :
    decodeLast start ((encode [a, b]).map symbolOctet) = .ok [a, b] := by
  have belowA := a.toNat_lt
  have belowB := b.toNat_lt
  generalize bitsEq : (a.toNat * 0x100 + b.toNat) * 4 = bits
  have group : lastGroup start none start ((encode [a, b]).map symbolOctet) =
      .ok ([bits / 0x1000, bits / 0x40 % 0x40, bits % 0x40], 1) := by
    simp only [encode, List.map_cons, List.map_nil, bitsEq]
    rw [lastGroup_symbol (by omega), lastGroup_symbol (by omega), lastGroup_symbol (by omega),
      lastGroup_pad (by omega)]
    rfl
  have together : (bits / 0x1000 * 0x40 + bits / 0x40 % 0x40) * 0x40 + bits % 0x40 = bits := by
    omega
  have noBitsLeft : bits % 4 = 0 := by omega
  have octetA : bits / 0x400 = a.toNat := by omega
  have octetB : bits / 4 % 0x100 = b.toNat := by omega
  have notEmpty : ((encode [a, b]).map symbolOctet).isEmpty = false := rfl
  rw [decodeLast, notEmpty, group]
  simp [together, noBitsLeft, octetA, octetB, bind, Except.bind]

/-- The last group of three octets. -/
theorem decodeLast_encode_three (a b c : UInt8) :
    decodeLast start ((encode [a, b, c]).map symbolOctet) = .ok [a, b, c] := by
  have belowA := a.toNat_lt
  have belowB := b.toNat_lt
  have belowC := c.toNat_lt
  generalize bitsEq : (a.toNat * 0x100 + b.toNat) * 0x100 + c.toNat = bits
  have group : lastGroup start none start ((encode [a, b, c]).map symbolOctet) =
      .ok ([bits / 0x40000, bits / 0x1000 % 0x40, bits / 0x40 % 0x40, bits % 0x40], 0) := by
    simp only [encode, List.map_cons, List.map_nil, bitsEq]
    rw [lastGroup_symbol (by omega), lastGroup_symbol (by omega), lastGroup_symbol (by omega),
      lastGroup_symbol (by omega)]
    rfl
  have together : ((bits / 0x40000 * 0x40 + bits / 0x1000 % 0x40) * 0x40 +
      bits / 0x40 % 0x40) * 0x40 + bits % 0x40 = bits := by
    omega
  have octetA : bits / 0x10000 = a.toNat := by omega
  have octetB : bits / 0x100 % 0x100 = b.toNat := by omega
  have octetC : bits % 0x100 = c.toNat := by omega
  have notEmpty : ((encode [a, b, c]).map symbolOctet).isEmpty = false := rfl
  rw [decodeLast, notEmpty, group]
  simp [together, octetA, octetB, octetC, bind, Except.bind]

/-! ## All groups -/

theorem encode_ne_nil {bytes : List UInt8} (notEmpty : bytes ≠ []) : encode bytes ≠ [] := by
  fun_cases encode bytes with
  | case1 => exact absurd rfl notEmpty
  | _ => simp

/-- A group of three octets with more behind it. -/
theorem decodeGroups_encode_cons (a b c : UInt8) {rest : List UInt8} (more : rest ≠ []) :
    decodeGroups start ((encode (a :: b :: c :: rest)).map symbolOctet) =
      (decodeGroups (start + 4) ((encode rest).map symbolOctet)).map
        fun later => a :: b :: c :: later := by
  have belowA := a.toNat_lt
  have belowB := b.toNat_lt
  have belowC := c.toNat_lt
  obtain ⟨first, others, nextGroup⟩ := List.exists_cons_of_ne_nil (encode_ne_nil more)
  generalize bitsEq : (a.toNat * 0x100 + b.toNat) * 0x100 + c.toNat = bits
  have together : ((bits / 0x40000 * 0x40 + bits / 0x1000 % 0x40) * 0x40 +
      bits / 0x40 % 0x40) * 0x40 + bits % 0x40 = bits := by
    omega
  have octetA : bits / 0x10000 = a.toNat := by omega
  have octetB : bits / 0x100 % 0x100 = b.toNat := by omega
  have octetC : bits % 0x100 = c.toNat := by omega
  simp only [encode, List.map_cons, bitsEq, nextGroup]
  rw [decodeGroups, valueAt_symbol (by omega), valueAt_symbol (by omega),
    valueAt_symbol (by omega), valueAt_symbol (by omega)]
  simp only [bind, Except.bind, together, octetA, octetB, octetC, UInt8.ofNat_toNat]
  cases decodeGroups (start + 4) (symbolOctet first :: others.map symbolOctet) <;> rfl

/-- The symbols of some octets are read as those octets. -/
theorem decodeGroups_encode (start : Nat) :
    ∀ bytes : List UInt8, decodeGroups start ((encode bytes).map symbolOctet) = .ok bytes
  | [] => rfl
  | [a] => decodeLast_encode_one a
  | [a, b] => decodeLast_encode_two a b
  | [a, b, c] => decodeLast_encode_three a b c
  | a :: b :: c :: d :: rest => by
    rw [decodeGroups_encode_cons a b c (List.cons_ne_nil d rest),
      decodeGroups_encode (start + 4) (d :: rest)]
    rfl

@[simp]
theorem decode_encode (bytes : List UInt8) :
    decode ((encode bytes).map symbolOctet) = .ok bytes := by
  have complete := length_encode_mod bytes
  have accepted : checkLoneLast ((encode bytes).map symbolOctet) = .ok () := by
    rw [checkLoneLast]
    split
    · rw [if_neg]
      rintro ⟨lone, -⟩
      rw [List.length_map] at lone
      omega
    · rfl
  rw [decode, accepted]
  exact decodeGroups_encode 0 bytes

/-! ## What is read -/

theorem bind_eq_ok {α β : Type} {first : Except Error α} {next : α → Except Error β} {result : β} :
    first >>= next = .ok result ↔ ∃ value, first = .ok value ∧ next value = .ok result := by
  cases first with
  | error error => simp [bind, Except.bind]
  | ok value => simp [bind, Except.bind]

/-- An octet that has a value is the symbol of that value. -/
theorem eq_symbolOctet_of_value? {byte : UInt8} {value : Nat} (known : value? byte = some value) :
    value < 0x40 ∧ byte = symbolOctet (symbol value) := by
  have all : ∀ code : Fin 0x100, ∀ value ∈ value? (UInt8.ofNat code),
      value < 0x40 ∧ UInt8.ofNat code = symbolOctet (symbol value) := by
    decide +kernel
  have byteEq : UInt8.ofNat byte.toNat = byte := UInt8.ofNat_toNat
  have ofByte := all ⟨byte.toNat, byte.toNat_lt⟩ value
  simp only [byteEq] at ofByte
  exact ofByte known

theorem eq_symbolOctet_of_valueAt {byte : UInt8} {value : Nat}
    (accepted : valueAt position byte = .ok value) :
    value < 0x40 ∧ byte = symbolOctet (symbol value) := by
  rw [valueAt] at accepted
  split at accepted
  · rename_i known
    obtain rfl := Except.ok.inj accepted
    exact eq_symbolOctet_of_value? known
  · cases accepted

/-- The octets of symbols with the given values. -/
def symbolOctets (values : List Nat) : List UInt8 :=
  values.map fun value => symbolOctet (symbol value)

/-- A group that ends the text consists of symbols and the padding behind them; there are no
symbols behind a padding octet. -/
theorem eq_of_lastGroup {firstPad : Option Nat} {group : List UInt8} {values : List Nat}
    {pads : Nat} (accepted : lastGroup start firstPad position group = .ok (values, pads)) :
    group = symbolOctets values ++ List.replicate pads pad ∧ (∀ value ∈ values, value < 0x40) ∧
      (firstPad.isSome → values = []) := by
  induction group generalizing firstPad position values pads with
  | nil =>
      rw [lastGroup] at accepted
      cases accepted
      exact ⟨rfl, by simp, fun _ => rfl⟩
  | cons byte rest inductionHypothesis =>
      unfold lastGroup at accepted
      split at accepted
      · rename_i isPad
        split at accepted
        · cases accepted
        obtain ⟨⟨laterValues, laterPads⟩, acceptedRest, returned⟩ := bind_eq_ok.mp accepted
        obtain ⟨rfl, rfl⟩ := Prod.mk.inj (Except.ok.inj returned)
        obtain ⟨restEq, -, noSymbols⟩ := inductionHypothesis acceptedRest
        obtain rfl := noSymbols rfl
        exact ⟨by rw [isPad, restEq]; rfl, by simp, fun _ => rfl⟩
      · split at accepted
        · cases accepted
        obtain ⟨value, known, accepted⟩ := bind_eq_ok.mp accepted
        obtain ⟨⟨laterValues, laterPads⟩, acceptedRest, returned⟩ := bind_eq_ok.mp accepted
        obtain ⟨rfl, rfl⟩ := Prod.mk.inj (Except.ok.inj returned)
        obtain ⟨restEq, areSmall, -⟩ := inductionHypothesis acceptedRest
        obtain ⟨small, byteEq⟩ := eq_symbolOctet_of_valueAt known
        refine ⟨by rw [byteEq, restEq]; rfl, ?_, nofun⟩
        exact List.forall_mem_cons.mpr ⟨small, areSmall⟩

/-- The symbols of one octet are those whose bits it holds; likewise for two and three. -/
theorem encode_one {a b : Nat} (aSmall : a < 0x40) (bSmall : b < 0x40) (noBitsLeft : b % 0x10 = 0) :
    encode [UInt8.ofNat (a * 4 + b / 0x10)] = [symbol a, symbol b, '=', '='] := by
  have octet : (UInt8.ofNat (a * 4 + b / 0x10)).toNat = a * 4 + b / 0x10 := by
    rw [UInt8.toNat_ofNat']
    omega
  have first : (a * 4 + b / 0x10) * 0x10 / 0x40 = a := by omega
  have second : (a * 4 + b / 0x10) * 0x10 % 0x40 = b := by omega
  simp only [encode, octet, first, second]

theorem encode_two {a b c : Nat} (aSmall : a < 0x40) (bSmall : b < 0x40) (cSmall : c < 0x40)
    {bits : Nat} (bitsEq : (a * 0x40 + b) * 0x40 + c = bits) (noBitsLeft : bits % 4 = 0) :
    encode [UInt8.ofNat (bits / 0x400), UInt8.ofNat (bits / 4 % 0x100)] =
      [symbol a, symbol b, symbol c, '='] := by
  have octetOne : (UInt8.ofNat (bits / 0x400)).toNat = bits / 0x400 := by
    rw [UInt8.toNat_ofNat']
    omega
  have octetTwo : (UInt8.ofNat (bits / 4 % 0x100)).toNat = bits / 4 % 0x100 := by
    rw [UInt8.toNat_ofNat']
    omega
  have together : (bits / 0x400 * 0x100 + bits / 4 % 0x100) * 4 = bits := by omega
  have first : bits / 0x1000 = a := by omega
  have second : bits / 0x40 % 0x40 = b := by omega
  have third : bits % 0x40 = c := by omega
  simp only [encode, octetOne, octetTwo, together, first, second, third]

theorem encode_three {a b c d : Nat} (aSmall : a < 0x40) (bSmall : b < 0x40) (cSmall : c < 0x40)
    (dSmall : d < 0x40) {bits : Nat} (bitsEq : ((a * 0x40 + b) * 0x40 + c) * 0x40 + d = bits)
    (later : List UInt8) :
    encode (UInt8.ofNat (bits / 0x10000) :: UInt8.ofNat (bits / 0x100 % 0x100) ::
        UInt8.ofNat (bits % 0x100) :: later) =
      symbol a :: symbol b :: symbol c :: symbol d :: encode later := by
  have octetOne : (UInt8.ofNat (bits / 0x10000)).toNat = bits / 0x10000 := by
    rw [UInt8.toNat_ofNat']
    omega
  have octetTwo : (UInt8.ofNat (bits / 0x100 % 0x100)).toNat = bits / 0x100 % 0x100 := by
    rw [UInt8.toNat_ofNat']
    omega
  have octetThree : (UInt8.ofNat (bits % 0x100)).toNat = bits % 0x100 := by
    rw [UInt8.toNat_ofNat']
    omega
  have together : (bits / 0x10000 * 0x100 + bits / 0x100 % 0x100) * 0x100 + bits % 0x100 = bits := by
    omega
  have first : bits / 0x40000 = a := by omega
  have second : bits / 0x1000 % 0x40 = b := by omega
  have third : bits / 0x40 % 0x40 = c := by omega
  have fourth : bits % 0x40 = d := by omega
  simp only [encode, octetOne, octetTwo, octetThree, together, first, second, third, fourth]

/-- A last group that is accepted is the encoding of its octets. -/
theorem eq_encode_of_decodeLast {group octets : List UInt8} (notLong : group.length ≤ 4)
    (accepted : decodeLast start group = .ok octets) :
    group = (encode octets).map symbolOctet := by
  rw [decodeLast] at accepted
  split at accepted
  · rename_i empty
    obtain rfl := Except.ok.inj accepted
    exact List.isEmpty_iff.mp empty
  rename_i notEmpty
  obtain ⟨⟨values, pads⟩, acceptedGroup, accepted⟩ := bind_eq_ok.mp accepted
  obtain ⟨groupEq, areSmall, -⟩ := eq_of_lastGroup acceptedGroup
  have lengthEq : group.length = values.length + pads := by
    rw [groupEq, symbolOctets, List.length_append, List.length_map, List.length_replicate]
  dsimp only at accepted
  split at accepted
  · cases accepted
  split at accepted
  · cases accepted
  rename_i enough full
  have padsEq : pads = 4 - values.length := by omega
  subst padsEq
  rw [groupEq]
  split at accepted
  · split at accepted
    · cases accepted
    rename_i a b noBitsLeft
    obtain rfl := Except.ok.inj accepted
    obtain ⟨aSmall, bSmall⟩ : a < 0x40 ∧ b < 0x40 := by simpa using areSmall
    rw [encode_one aSmall bSmall (by omega)]
    rfl
  · split at accepted
    · cases accepted
    rename_i a b c noBitsLeft
    obtain rfl := Except.ok.inj accepted
    obtain ⟨aSmall, bSmall, cSmall⟩ : a < 0x40 ∧ b < 0x40 ∧ c < 0x40 := by
      simpa using areSmall
    rw [encode_two aSmall bSmall cSmall rfl (by omega)]
    rfl
  · rename_i a b c d
    obtain rfl := Except.ok.inj accepted
    obtain ⟨aSmall, bSmall, cSmall, dSmall⟩ :
        a < 0x40 ∧ b < 0x40 ∧ c < 0x40 ∧ d < 0x40 := by
      simpa using areSmall
    rw [encode_three aSmall bSmall cSmall dSmall rfl]
    rfl
  · rename_i notTwo notThree notFour
    exfalso
    match values with
    | [] => exact enough (by simp)
    | [_] => exact enough (by simp)
    | [a, b] => exact notTwo a b rfl
    | [a, b, c] => exact notThree a b c rfl
    | [a, b, c, d] => exact notFour a b c d rfl
    | _ :: _ :: _ :: _ :: _ :: _ => simp at lengthEq; omega

/-- Octets that are accepted are the encoding of what is read. -/
theorem eq_encode_of_decodeGroups {start : Nat} {octets : List UInt8} :
    ∀ {bytes : List UInt8}, decodeGroups start bytes = .ok octets →
      bytes = (encode octets).map symbolOctet
  | [], accepted => eq_encode_of_decodeLast (by simp) accepted
  | [_], accepted => eq_encode_of_decodeLast (by simp) accepted
  | [_, _], accepted => eq_encode_of_decodeLast (by simp) accepted
  | [_, _, _], accepted => eq_encode_of_decodeLast (by simp) accepted
  | [_, _, _, _], accepted => eq_encode_of_decodeLast (by simp) accepted
  | _ :: _ :: _ :: _ :: e :: rest, accepted => by
    rw [decodeGroups] at accepted
    obtain ⟨a, aKnown, accepted⟩ := bind_eq_ok.mp accepted
    obtain ⟨b, bKnown, accepted⟩ := bind_eq_ok.mp accepted
    obtain ⟨c, cKnown, accepted⟩ := bind_eq_ok.mp accepted
    obtain ⟨d, dKnown, accepted⟩ := bind_eq_ok.mp accepted
    obtain ⟨later, acceptedLater, returned⟩ := bind_eq_ok.mp accepted
    obtain rfl := Except.ok.inj returned
    obtain ⟨aSmall, aEq⟩ := eq_symbolOctet_of_valueAt aKnown
    obtain ⟨bSmall, bEq⟩ := eq_symbolOctet_of_valueAt bKnown
    obtain ⟨cSmall, cEq⟩ := eq_symbolOctet_of_valueAt cKnown
    obtain ⟨dSmall, dEq⟩ := eq_symbolOctet_of_valueAt dKnown
    rw [encode_three aSmall bSmall cSmall dSmall rfl, aEq, bEq, cEq, dEq,
      eq_encode_of_decodeGroups acceptedLater]
    rfl

/-- Exactly the symbols of some octets, with their padding, are read as those octets. -/
theorem decode_eq_ok_iff {bytes octets : List UInt8} :
    decode bytes = .ok octets ↔ bytes = (encode octets).map symbolOctet := by
  constructor
  · intro accepted
    obtain ⟨_, -, acceptedGroups⟩ := bind_eq_ok.mp accepted
    exact eq_encode_of_decodeGroups acceptedGroups
  · rintro rfl
    exact decode_encode octets

end SiteScript.Text.Base64
