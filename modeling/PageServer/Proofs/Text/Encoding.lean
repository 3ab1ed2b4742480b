import PageServer.Text.Bytes

/-! # Texts and their bytes

Reading the bytes of a text gives the text, and bytes that begin with those of a text are read as one that
begins with it. A byte below 128 stands for the character of its number, wherever it occurs among the bytes
of a text.
-/

namespace PageServer.Text

theorem encode_ofList (chars : List Char) :
    encode (String.ofList chars) = chars.flatMap String.utf8EncodeChar := by
  rw [encode, String.toList_ofList]

theorem toByteArray_encode (text : String) : (⟨(encode text).toArray⟩ : ByteArray) = text.toByteArray := by
  rw [← String.utf8Encode_toList]
  apply ByteArray.ext
  simp [encode, List.utf8Encode]

theorem decode?_encode (text : String) : decode? (encode text) = some text := by
  rw [decode?, toByteArray_encode, String.fromUTF8?, dif_pos text.isValidUTF8]
  rfl

/-- Bytes are read as a text exactly if they are the bytes of that text. -/
theorem decode?_eq_some_iff {bytes : Bytes} {text : String} :
    decode? bytes = some text ↔ bytes = encode text := by
  constructor
  · intro read
    rw [decode?, String.fromUTF8?, Option.dite_none_right_eq_some] at read
    obtain ⟨valid, same⟩ := read
    have bytesOfText := congrArg ByteArray.data (toByteArray_encode text)
    rw [← Option.some.inj same] at bytesOfText ⊢
    exact (Array.toList_inj.mpr bytesOfText).symm
  · rintro rfl
    exact decode?_encode text

theorem isValidUTF8_of_encode_append {chars : List Char} {rest : Bytes}
    (valid : ByteArray.IsValidUTF8 ⟨(chars.flatMap String.utf8EncodeChar ++ rest).toArray⟩) :
    ByteArray.IsValidUTF8 ⟨rest.toArray⟩ := by
  induction chars with
  | nil => exact valid
  | cons c chars ih =>
    refine ih ((ByteArray.isValidUTF8_utf8Encode_singleton_append_iff (c := c)).mp ?_)
    have same : [c].utf8Encode ++ ⟨(chars.flatMap String.utf8EncodeChar ++ rest).toArray⟩ =
        (⟨((c :: chars).flatMap String.utf8EncodeChar ++ rest).toArray⟩ : ByteArray) := by
      apply ByteArray.ext
      simp [List.utf8Encode]
    rw [same]
    exact valid

/-- What is read from the bytes of a text and more begins with that text. -/
theorem decode?_encode_append {text whole : String} {rest : Bytes}
    (read : decode? (encode text ++ rest) = some whole) :
    ∃ more, rest = encode more ∧ whole = text ++ more := by
  have valid : ByteArray.IsValidUTF8 ⟨rest.toArray⟩ := by
    rw [decode?, String.fromUTF8?, Option.dite_none_right_eq_some] at read
    exact isValidUTF8_of_encode_append read.1
  obtain ⟨more, readRest⟩ : ∃ more, decode? rest = some more := ⟨_, dif_pos valid⟩
  have bytes := decode?_eq_some_iff.mp readRest
  refine ⟨more, bytes, ?_⟩
  rw [bytes, ← encode_append, decode?_encode] at read
  exact (Option.some.inj read).symm

private theorem not_ascii {n : Nat} (low : 128 ≤ n) (high : n < 256) :
    ¬ (UInt8.ofNat n).toNat < 128 := by
  rw [UInt8.toNat_ofNat']
  omega

/-- A byte below 128 is the whole of its character. -/
theorem toNat_eq_of_mem_utf8EncodeChar {c : Char} {byte : UInt8}
    (member : byte ∈ String.utf8EncodeChar c) (ascii : byte.toNat < 128) : c.toNat = byte.toNat := by
  simp only [String.utf8EncodeChar] at member
  split at member
  · next small =>
    have value := congrArg UInt8.toNat (List.mem_singleton.mp member)
    rw [UInt8.toNat_ofNat'] at value
    change c.val.toNat = byte.toNat
    omega
  · -- In a longer code every byte carries a mark of at least 128.
    split at member
    · simp only [List.mem_cons, List.not_mem_nil, or_false] at member
      rcases member with rfl | rfl <;> exact (not_ascii (by omega) (by omega) ascii).elim
    · split at member
      · simp only [List.mem_cons, List.not_mem_nil, or_false] at member
        rcases member with rfl | rfl | rfl <;> exact (not_ascii (by omega) (by omega) ascii).elim
      · simp only [List.mem_cons, List.not_mem_nil, or_false] at member
        rcases member with rfl | rfl | rfl | rfl <;>
          exact (not_ascii (by omega) (by omega) ascii).elim

theorem eq_of_mem_utf8EncodeChar {c d : Char} {byte : UInt8} (member : byte ∈ String.utf8EncodeChar d)
    (ascii : byte.toNat < 128) (same : c.toNat = byte.toNat) : d = c := by
  have number := toNat_eq_of_mem_utf8EncodeChar member ascii
  rw [← Char.ofNat_toNat d, ← Char.ofNat_toNat c, number, same]

theorem mem_of_mem_encode {text : String} {c : Char} {byte : UInt8} (member : byte ∈ encode text)
    (ascii : byte.toNat < 128) (same : c.toNat = byte.toNat) : c ∈ text.toList := by
  obtain ⟨d, present, inside⟩ := List.mem_flatMap.mp member
  rwa [← eq_of_mem_utf8EncodeChar inside ascii same]

/-- If a text has no other byte than one below 128, it has no other character than that one. -/
theorem forall_eq_of_encode {text : String} {c : Char} {byte : UInt8} (ascii : byte.toNat < 128)
    (same : c.toNat = byte.toNat) (only : ∀ other ∈ encode text, other = byte) :
    ∀ d ∈ text.toList, d = c := by
  intro d present
  obtain ⟨first, more, code⟩ := List.exists_cons_of_ne_nil (String.utf8EncodeChar_ne_nil (c := d))
  have inCode : first ∈ String.utf8EncodeChar d := by rw [code]; exact List.mem_cons_self
  rw [only first (List.mem_flatMap.mpr ⟨d, present, inCode⟩)] at inCode
  exact eq_of_mem_utf8EncodeChar inCode ascii same

end PageServer.Text
