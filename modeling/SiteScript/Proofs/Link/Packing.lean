import SiteScript.Link
import SiteScript.Proofs.Text.Base64
import SiteScript.Proofs.Text.CleanForm
import SiteScript.Proofs.Text.Utf8

/-!
# Packed texts

Every text can be packed: one that holds a forbidden character is cleaned first, and a
clean form holds none.  Unpacking a packed text gives it back, and nothing else is
unpacked: a text has one packed form, around which only blanks may stand.
-/

namespace SiteScript.Link

open Text

/-- The text that is packed in place of a given one. -/
def packable (text : String) : String :=
  if text.toList.any isForbidden then clean text else text

/-- Every text is packed. -/
theorem encode_eq (text : String) : encode text = .ok (pack (packable text)) := by
  by_cases forbidden : text.toList.any isForbidden
  · have refused : ∃ found, checkControls text = .error ⟨found⟩ := by
      rw [checkControls]
      split
      · rename_i noneFound
        rw [List.filter_eq_nil_iff] at noneFound
        obtain ⟨c, member, isForbidden⟩ := List.any_eq_true.mp forbidden
        exact absurd isForbidden (noneFound c member)
      · exact ⟨_, rfl⟩
    obtain ⟨found, refused⟩ := refused
    rw [encode, refused, packable, if_pos forbidden]
    simp only [checkControls_clean]
    rfl
  · have accepted : checkControls text = .ok () := checkControls_eq_ok fun c member isForbidden =>
      forbidden (List.any_eq_true.mpr ⟨c, member, isForbidden⟩)
    rw [encode, accepted, packable, if_neg forbidden]
    rfl

/-- A text without forbidden characters is packed as it is. -/
theorem packable_of_noneForbidden {text : String}
    (noneForbidden : ∀ c ∈ text.toList, ¬ isForbidden c) : packable text = text := by
  rw [packable, if_neg]
  simpa using noneForbidden

/-- A clean text is packed as it is. -/
theorem packable_of_clean {text : String} (isClean : clean text = text) : packable text = text := by
  rw [packable, isClean, ite_self]

/-! ## Unpacking -/

/-- What holds of the padding and of every symbol holds of every character of a packed text. -/
theorem forall_mem_pack (holds : Char → Bool) (ofPad : holds '=')
    (ofSymbol : ∀ value : Fin 0x40, holds (Base64.symbol value)) {text : String} :
    ∀ c ∈ (pack text).toList, holds c := by
  intro c member
  rw [pack, String.toList_ofList] at member
  exact Base64.forall_mem_encode holds ofPad ofSymbol c member

/-- There are no blanks in a packed text. -/
theorem trimChars_pack (text : String) : trimChars (pack text).toList = (pack text).toList := by
  apply trimChars_eq_self
  intro c member
  have notBlank := forall_mem_pack (fun c => !isBlank c) (by decide) (by decide) c member
  simpa using notBlank

/-- The octets of a packed text. -/
theorem unpackBytes_pack (text : String) :
    unpackBytes (pack text).toList = .ok (Utf8.encode text.toList) := by
  have ascii : ∀ c ∈ (pack text).toList, c.toNat < 0x80 := by
    intro c member
    have isAscii := forall_mem_pack (fun c => c.toNat < 0x80) (by decide) (by decide) c member
    simpa using isAscii
  rw [unpackBytes, trimChars_pack, Utf8.encode_of_ascii ascii, pack,
    String.toList_ofList]
  exact Base64.decode_encode _

/-- A packed text is unpacked. -/
@[simp]
theorem decode_pack (text : String) : decode (pack text) = .ok text := by
  rw [decode, unpackBytes_pack]
  simp

/-- Exactly the packed form of a text, with any blanks around it, is unpacked as that text. -/
theorem decode_eq_ok_iff {packed text : String} :
    decode packed = .ok text ↔ trim packed = pack text := by
  constructor
  · intro unpacked
    rw [decode] at unpacked
    split at unpacked
    · cases unpacked
    rename_i bytes acceptedBytes
    split at unpacked
    · cases unpacked
    rename_i chars acceptedChars
    obtain rfl := Except.ok.inj unpacked
    obtain rfl := Utf8.decode_eq_ok_iff.mp acceptedChars
    have octetsEq := Base64.decode_eq_ok_iff.mp acceptedBytes
    have ascii : ∀ c ∈ Base64.encode (Utf8.encode chars), c.toNat < 0x80 := by
      intro c member
      simpa using Base64.forall_mem_encode (fun c => c.toNat < 0x80) (by decide) (by decide) c
        member
    have trimmedEq : trimChars packed.toList = Base64.encode (Utf8.encode chars) := by
      apply Utf8.eq_of_encode_eq
      rw [octetsEq, Utf8.encode_of_ascii ascii]
      rfl
    rw [trim, pack, trimmedEq, String.toList_ofList]
  · intro trimmedEq
    have charsEq : trimChars packed.toList = trimChars (pack text).toList := by
      rw [← toList_trim, trimmedEq, trimChars_pack]
    rw [← decode_pack text, decode, decode, unpackBytes, unpackBytes, charsEq]

/-! ## Exactness -/

/-- How a text is packed and what is unpacked as it. -/
structure IsPackedExactly (text : String) : Prop where
  /-- The text is packed, and what is packed is unpacked as the text itself unless it holds a
  forbidden character, and else as its clean form. -/
  unpacked : ∃ packed, encode text = .ok packed ∧
    ((∀ c ∈ text.toList, ¬ isForbidden c) → decode packed = .ok text) ∧
    ((∃ c ∈ text.toList, isForbidden c) → decode packed = .ok (clean text))
  /-- Exactly the padded Base64 of the text's UTF-8 octets, with any blanks around it, is
  unpacked as the text. -/
  canonical : ∀ packed, decode packed = .ok text ↔
    trim packed = .ofList (Base64.encode (Utf8.encode text.toList))
  /-- It is what the text is packed as unless the text holds a forbidden character. -/
  packed : (∀ c ∈ text.toList, ¬ isForbidden c) → ∀ packed, decode packed = .ok text →
    encode text = .ok (trim packed)
  /-- Packed texts that differ within the blanks around them are not unpacked as one text. -/
  unique : ∀ first second, decode first = .ok text → decode second = .ok text →
    trim first = trim second

/-- Packing and unpacking are inverse to each other. -/
theorem isPackedExactly (text : String) : IsPackedExactly text := by
  constructor
  · refine ⟨_, encode_eq text, fun noneForbidden => ?_, fun someForbidden => ?_⟩
    · rw [decode_pack, packable_of_noneForbidden noneForbidden]
    · rw [decode_pack, packable, if_pos (List.any_eq_true.mpr someForbidden)]
  · exact fun packed => decode_eq_ok_iff
  · intro noneForbidden packed unpacked
    rw [encode_eq, packable_of_noneForbidden noneForbidden, decode_eq_ok_iff.mp unpacked]
  · intro first second unpackedFirst unpackedSecond
    rw [decode_eq_ok_iff.mp unpackedFirst, decode_eq_ok_iff.mp unpackedSecond]

end SiteScript.Link
