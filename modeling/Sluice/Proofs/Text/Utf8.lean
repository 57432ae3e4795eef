/-
  Sluice.Proofs.Text.Utf8

  Characters as UTF-8 bytes. An ASCII character is one byte below 0x80; every byte of any other
  character is at least 0x80. So an ASCII byte never lies inside of a longer character, and a reader
  of bytes that meets one stands in front of a character.
-/

import Sluice.Operator.Network

namespace Sluice

namespace Text

/-- The UTF-8 bytes of some characters. -/
def utf8 (cs : List Char) : List UInt8 :=
  cs.flatMap String.utf8EncodeChar

@[simp] theorem utf8_nil : utf8 [] = [] := rfl

theorem utf8_cons (c : Char) (cs : List Char) :
    utf8 (c :: cs) = String.utf8EncodeChar c ++ utf8 cs := rfl

-- ============================================================================
-- ASCII
-- ============================================================================

theorem utf8EncodeChar_ascii {c : Char} (h : c.toNat < 0x80) :
    String.utf8EncodeChar c = [UInt8.ofNat c.toNat] := by
  have hle : c.val.toNat ≤ 0x7f := Nat.le_of_lt_succ h
  rw [String.utf8EncodeChar, if_pos hle]
  rfl

/-- Above ASCII every byte of a character has its high bit set. -/
theorem le_of_mem_utf8EncodeChar {c : Char} (h : 0x80 ≤ c.toNat) {b : UInt8}
    (hb : b ∈ String.utf8EncodeChar c) : 0x80 ≤ b.toNat := by
  have hhigh : ¬ c.val.toNat ≤ 0x7f := Nat.not_le.2 h
  have hbyte : ∀ n, (UInt8.ofNat n).toNat = n % 256 := fun n => UInt8.toNat_ofNat'
  rw [String.utf8EncodeChar, if_neg hhigh] at hb
  split at hb
  · simp only [List.mem_cons, List.not_mem_nil, or_false] at hb
    rcases hb with rfl | rfl <;> rw [hbyte] <;> omega
  · split at hb
    · simp only [List.mem_cons, List.not_mem_nil, or_false] at hb
      rcases hb with rfl | rfl | rfl <;> rw [hbyte] <;> omega
    · simp only [List.mem_cons, List.not_mem_nil, or_false] at hb
      rcases hb with rfl | rfl | rfl | rfl <;> rw [hbyte] <;> omega

theorem utf8_cons_ascii {c : Char} (h : c.toNat < 0x80) (cs : List Char) :
    utf8 (c :: cs) = UInt8.ofNat c.toNat :: utf8 cs := by
  rw [utf8_cons, utf8EncodeChar_ascii h, List.singleton_append]

/-- An ASCII byte in front is an ASCII character in front. -/
theorem exists_of_utf8_eq_cons {cs : List Char} {b : UInt8} {rest : List UInt8}
    (h : utf8 cs = b :: rest) (hb : b.toNat < 0x80) :
    ∃ more, cs = Char.ofNat b.toNat :: more ∧ utf8 more = rest := by
  cases cs with
  | nil => cases h
  | cons c cs =>
    have hascii : c.toNat < 0x80 := by
      rcases Nat.lt_or_ge c.toNat 0x80 with hlt | hge
      · exact hlt
      · obtain ⟨first, others, hchar⟩ :=
          List.exists_cons_of_ne_nil (@String.utf8EncodeChar_ne_nil c)
        have hle := le_of_mem_utf8EncodeChar hge (hchar ▸ List.mem_cons_self : first ∈ _)
        rw [utf8_cons, hchar] at h
        cases h
        omega
    rw [utf8_cons_ascii hascii] at h
    obtain ⟨rfl, rfl⟩ := List.cons.inj h
    refine ⟨cs, ?_, rfl⟩
    rw [UInt8.toNat_ofNat', Nat.mod_eq_of_lt (by omega), Char.ofNat_toNat]

end Text

-- ============================================================================
-- Strings
-- ============================================================================

namespace Network

theorem toList_loop (array : ByteArray) (i : Nat) (read : List UInt8) :
    ByteArray.toList.loop array i read = read.reverse ++ array.data.toList.drop i := by
  fun_induction ByteArray.toList.loop array i read with
  | case1 i read hi ih =>
    have hlength : i < array.data.toList.length := hi
    have hget : array.get! i = array.data.toList[i] := by
      show array.data[i]! = _
      rw [getElem!_pos array.data i hi, Array.getElem_toList]
    rw [ih, List.drop_eq_getElem_cons hlength, hget, List.reverse_cons, List.append_assoc,
      List.singleton_append]
  | case2 i read hi =>
    rw [List.drop_eq_nil_of_le (Nat.not_lt.1 hi), List.append_nil]

theorem bytes_eq_data (s : String) : bytes s = s.toByteArray.data.toList := by
  rw [bytes, String.toUTF8_eq_toByteArray, ByteArray.toList, toList_loop]
  rfl

theorem bytes_eq (s : String) : bytes s = Text.utf8 s.toList := by
  rw [bytes_eq_data, ← String.utf8Encode_toList]
  exact List.toList_data_toByteArray

/-- Bytes are read as the text that is made of them, if there is one. -/
theorem fromUTF8?_eq_some_iff {bs : List UInt8} {t : String} :
    String.fromUTF8? ⟨bs.toArray⟩ = some t ↔ bytes t = bs := by
  rw [bytes_eq_data]
  constructor
  · intro h
    rw [String.fromUTF8?] at h
    split at h
    · cases h
      rfl
    · cases h
  · rintro rfl
    rw [String.fromUTF8?, Array.toArray_toList, dif_pos t.isValidUTF8]
    rfl

/-- Bytes are valid UTF-8 if some text is made of them. -/
theorem isValidUTF8_iff {bs : List UInt8} : bs.toByteArray.IsValidUTF8 ↔ ∃ t, bytes t = bs := by
  constructor
  · rintro ⟨cs, hcs⟩
    refine ⟨String.ofList cs, ?_⟩
    rw [bytes_eq, String.toList_ofList]
    exact (List.toByteArray_inj.1 hcs).symm
  · rintro ⟨t, rfl⟩
    rw [bytes_eq]
    exact ⟨t.toList, rfl⟩

end Network

end Sluice
