import Mathlib.Data.List.TakeWhile
import ShapeMend.Json.Read
import ShapeMend.Json.Writer

/-!
# Texts as bytes

A JSON text is written as characters and scanned as bytes.  ASCII characters are
one byte each; all others are bytes beyond ASCII, which end no string and belong
to no number.
-/

namespace ShapeMend.Json

def bytes (text : List Char) : List UInt8 := text.flatMap String.utf8EncodeChar

@[simp] theorem bytes_nil : bytes [] = [] := rfl

@[simp] theorem bytes_cons (c : Char) (text : List Char) :
    bytes (c :: text) = String.utf8EncodeChar c ++ bytes text := rfl

@[simp] theorem bytes_append (text more : List Char) :
    bytes (text ++ more) = bytes text ++ bytes more :=
  List.flatMap_append

private theorem loop_eq (data : ByteArray) (start : Nat) (taken : List UInt8) :
    ByteArray.toList.loop data start taken = taken.reverse ++
      data.data.toList.drop start := by
  rw [ByteArray.toList.loop]
  split
  · next hinside =>
      have hget : data.get! start = data.data.toList[start] := by
        cases data with
        | mk array => exact getElem!_pos array start hinside
      rw [loop_eq, List.reverse_cons, hget, List.append_assoc,
        List.singleton_append, List.getElem_cons_drop]
  · next houtside =>
      have hlength : data.data.toList.length ≤ start :=
        Nat.le_of_not_lt houtside
      rw [List.drop_eq_nil_of_le hlength, List.append_nil]
  termination_by data.size - start

theorem toList_toUTF8 (text : String) :
    text.toUTF8.toList = bytes text.toList := by
  have hbytes : text.toByteArray = text.toList.utf8Encode := by
    rw [← String.toByteArray_ofList, String.ofList_toList]
  rw [String.toUTF8_eq_toByteArray, ByteArray.toList, loop_eq, hbytes,
    List.utf8Encode, List.data_toByteArray]
  simp [bytes]

theorem fromUTF8?_bytes (text : String) :
    String.fromUTF8? (ByteArray.mk (bytes text.toList).toArray) =
      some text := by
  have hbytes :
      ByteArray.mk (bytes text.toList).toArray = text.toByteArray := by
    rw [← String.ofList_toList (s := text), String.toByteArray_ofList]
    apply ByteArray.ext
    simp [bytes, List.utf8Encode, List.data_toByteArray]
  rw [hbytes, String.fromUTF8?, dif_pos text.isValidUTF8]
  rfl

/-! ## Single characters -/

theorem encode_of_lt {c : Char} (h : c.toNat < 0x80) :
    String.utf8EncodeChar c = [UInt8.ofNat c.toNat] := by
  exact if_pos (Nat.le_of_lt_succ h)

theorem le_of_mem_encode {c : Char} (h : 0x80 ≤ c.toNat) {byte : UInt8}
    (hbyte : byte ∈ String.utf8EncodeChar c) : 0x80 ≤ byte := by
  have hgt : ¬ c.val.toNat ≤ 127 := Nat.not_le.mpr h
  have hmarked {n : Nat} (hn : 128 ≤ n ∧ n < 256)
      (hsame : byte = UInt8.ofNat n) : 0x80 ≤ byte := by
    rw [UInt8.le_iff_toNat_le, hsame, UInt8.toNat_ofNat_of_lt' hn.2]
    exact hn.1
  simp only [String.utf8EncodeChar, if_neg hgt] at hbyte
  split at hbyte
  · simp only [List.mem_cons, List.not_mem_nil, or_false] at hbyte
    rcases hbyte with hbyte | hbyte <;> exact hmarked (by omega) hbyte
  split at hbyte
  · simp only [List.mem_cons, List.not_mem_nil, or_false] at hbyte
    rcases hbyte with hbyte | hbyte | hbyte <;> exact hmarked (by omega) hbyte
  · simp only [List.mem_cons, List.not_mem_nil, or_false] at hbyte
    rcases hbyte with hbyte | hbyte | hbyte | hbyte <;>
      exact hmarked (by omega) hbyte

theorem encode_digit {c : Char} (h : c.isDigit) :
    String.utf8EncodeChar c = [UInt8.ofNat c.toNat] ∧
      Scan.isDigit (UInt8.ofNat c.toNat) ∧
      Scan.digitValue (UInt8.ofNat c.toNat) = c.toNat - '0'.toNat := by
  obtain ⟨hlow, hhigh⟩ : 48 ≤ c.toNat ∧ c.toNat ≤ 57 :=
    Char.isDigit_iff_toNat.mp h
  have hcode : (UInt8.ofNat c.toNat).toNat = c.toNat :=
    UInt8.toNat_ofNat_of_lt' (Nat.lt_of_le_of_lt hhigh (by decide))
  refine ⟨encode_of_lt (Nat.lt_of_le_of_lt hhigh (by decide)), ?_, by
    rw [Scan.digitValue, hcode]; rfl⟩
  rw [Scan.isDigit, Bool.and_eq_true, decide_eq_true_eq, decide_eq_true_eq,
    UInt8.le_iff_toNat_le, UInt8.le_iff_toNat_le, hcode]
  exact ⟨hlow, hhigh⟩

end ShapeMend.Json
