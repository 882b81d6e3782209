import Formula.Proofs.Reading.ErrorPlace

/-!
Texts as bytes. A slice is checked: it has to lie inside the text, and one of characters has to begin
and end between two of them. The delimiters take one byte each, and that byte is in the encoding of no
other character.
-/

namespace Formula

namespace Text

def bytes (text : String) : List UInt8 :=
  text.toUTF8.data.toList

def bytesFrom? (text : String) (start : Nat) : Option (List UInt8) :=
  if start ≤ (bytes text).length then some ((bytes text).drop start) else none

/-- The characters from one place to another, if these are in order, lie in the text and are not
inside a character. -/
def slice? (text : String) (start stop : Nat) : Option String :=
  if start ≤ stop ∧ String.Pos.Raw.IsValid text ⟨start⟩ ∧ String.Pos.Raw.IsValid text ⟨stop⟩ then
    some (Span.slice ⟨start, stop⟩ text)
  else none

theorem bytes_eq (text : String) :
    bytes text = text.toList.flatMap String.utf8EncodeChar := by
  rw [bytes, String.toUTF8_eq_toByteArray, ← String.utf8Encode_toList, List.utf8Encode,
    List.toList_data_toByteArray]

theorem bytes_append (a b : String) : bytes (a ++ b) = bytes a ++ bytes b := by
  simp [bytes_eq]

theorem length_encoded (text : List Char) :
    (text.flatMap String.utf8EncodeChar).length = byteSize text := by
  induction text with
  | nil => rfl
  | cons c rest ih => simp [ih]

theorem length_bytes (text : String) : (bytes text).length = text.utf8ByteSize := by
  rw [bytes_eq, length_encoded, byteSize_toList]

theorem bytesFrom?_cut (done rest : String) :
    bytesFrom? (done ++ rest) done.utf8ByteSize = some (bytes rest) := by
  rw [bytesFrom?, bytes_append, List.length_append, length_bytes, if_pos (Nat.le_add_right _ _),
    List.drop_append_of_le_length (Nat.le_of_eq (length_bytes done).symm), ← length_bytes done,
    List.drop_length, List.nil_append]

theorem slice?_cut (before middle after : String) :
    slice? (before ++ middle ++ after) before.utf8ByteSize
      (before.utf8ByteSize + middle.utf8ByteSize) = some middle := by
  have start : String.Pos.Raw.IsValid (before ++ middle ++ after) ⟨before.utf8ByteSize⟩ := by
    rw [String.append_assoc]
    exact isValid_beginning ..
  have stop : String.Pos.Raw.IsValid (before ++ middle ++ after)
      ⟨before.utf8ByteSize + middle.utf8ByteSize⟩ := by
    rw [← String.utf8ByteSize_append]
    exact isValid_beginning ..
  rw [slice?, if_pos ⟨Nat.le_add_right _ _, start, stop⟩, Span.slice, ← String.utf8ByteSize_append,
    takeBytes_beginning, String.append_assoc, takeBytes_beginning, String.toList_append,
    List.drop_left, String.ofList_toList]

theorem le_of_mem_encoded {c : Char} {b : UInt8} (wide : 128 ≤ c.toNat)
    (mem : b ∈ String.utf8EncodeChar c) : 128 ≤ b.toNat := by
  have large : ¬ c.val.toNat ≤ 127 := Nat.not_le.mpr wide
  rw [String.utf8EncodeChar, if_neg large] at mem
  split at mem
  · simp only [List.mem_cons, List.not_mem_nil, or_false] at mem
    rcases mem with rfl | rfl <;> simp only [UInt8.toNat_ofNat'] <;> omega
  · split at mem
    · simp only [List.mem_cons, List.not_mem_nil, or_false] at mem
      rcases mem with rfl | rfl | rfl <;> simp only [UInt8.toNat_ofNat'] <;> omega
    · simp only [List.mem_cons, List.not_mem_nil, or_false] at mem
      rcases mem with rfl | rfl | rfl | rfl <;> simp only [UInt8.toNat_ofNat'] <;> omega

theorem encoded_single {c : Char} (single : c.toNat < 128) :
    String.utf8EncodeChar c = [c.toUInt8] := by
  have small : c.val.toNat ≤ 127 := Nat.le_of_lt_succ single
  rw [String.utf8EncodeChar, if_pos small]
  rfl

/-- A character of one byte is found by that byte: no other character has it in its encoding. -/
theorem mem_encoded {a c : Char} (single : a.toNat < 128) :
    a.toUInt8 ∈ String.utf8EncodeChar c ↔ c = a := by
  have value (d : Char) (small : d.toNat < 128) : d.toUInt8.toNat = d.toNat :=
    Nat.mod_eq_of_lt (Nat.lt_trans small (by decide))
  constructor
  · intro mem
    by_cases small : c.toNat < 128
    · rw [encoded_single small, List.mem_singleton] at mem
      have same := congrArg UInt8.toNat mem
      rw [value a single, value c small] at same
      exact (Char.toNat_inj.mp same).symm
    · have wide := le_of_mem_encoded (Nat.not_lt.mp small) mem
      rw [value a single] at wide
      exact absurd wide (Nat.not_le.mpr single)
  · rintro rfl
    rw [encoded_single single]
    exact List.mem_singleton_self _

/-- What holds of all bytes of the characters in a class, and of no byte of the others, cuts the bytes
where the class cuts the characters. -/
theorem takeWhile_encoded {p : UInt8 → Bool} {q : Char → Bool}
    (agree : ∀ c, ∀ b ∈ String.utf8EncodeChar c, p b = q c) (text : List Char) :
    (text.flatMap String.utf8EncodeChar).takeWhile p =
      (text.takeWhile q).flatMap String.utf8EncodeChar := by
  induction text with
  | nil => rfl
  | cons c rest ih =>
    rw [List.flatMap_cons, List.takeWhile_cons]
    cases holds : q c with
    | true =>
      have all : ∀ b ∈ String.utf8EncodeChar c, p b = true :=
        fun b mem => (agree c b mem).trans holds
      rw [List.takeWhile_append_of_pos all, ih]
      rfl
    | false =>
      obtain ⟨b, more, bytes⟩ := List.exists_cons_of_ne_nil (String.utf8EncodeChar_ne_nil (c := c))
      have stops : p b = false :=
        (agree c b (by rw [bytes]; exact List.mem_cons_self)).trans holds
      rw [bytes, List.cons_append, List.takeWhile_cons, stops]
      rfl

theorem beq_encoded {a c : Char} {b : UInt8} (single : a.toNat < 128)
    (mem : b ∈ String.utf8EncodeChar c) : (b == a.toUInt8) = (c == a) := by
  by_cases same : c = a
  · subst same
    rw [encoded_single single, List.mem_singleton] at mem
    rw [mem, beq_self_eq_true, beq_self_eq_true]
  · have other : b ≠ a.toUInt8 := by
      rintro rfl
      exact same ((mem_encoded single).mp mem)
    rw [beq_false_of_ne other, beq_false_of_ne same]

end Text

end Formula
