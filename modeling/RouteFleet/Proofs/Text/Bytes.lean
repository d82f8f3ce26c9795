import RouteFleet.Text.Split

/-! # Bytes of texts

A text is read back from its bytes (`Text.fromUTF8?_toUTF8`), also where they are put together from
those of its characters (`Text.fromUTF8?_flatMap`).
-/

namespace RouteFleet.Text

theorem byteArray_toList_loop (bs : ByteArray) (i : Nat) (r : List UInt8) :
    ByteArray.toList.loop bs i r = r.reverse ++ bs.data.toList.drop i := by
  induction hn : bs.size - i generalizing i r with
  | zero =>
    have hle : bs.data.toList.length ≤ i := by
      rw [Array.length_toList, ByteArray.size_data]
      omega
    rw [ByteArray.toList.loop, if_neg (by omega), List.drop_eq_nil_of_le hle, List.append_nil]
  | succ n ih =>
    have hlt : i < bs.data.toList.length := by
      rw [Array.length_toList, ByteArray.size_data]
      omega
    have hget : bs.get! i = bs.data.toList[i] := by
      have hsize : i < bs.data.size := by simpa using hlt
      rw [ByteArray.get!, Array.getElem_toList]
      exact getElem!_pos bs.data i hsize
    rw [ByteArray.toList.loop, if_pos (by omega), ih (i + 1) _ (by omega),
      List.drop_eq_getElem_cons hlt, hget]
    simp

theorem byteArray_toList (bs : ByteArray) : bs.toList = bs.data.toList := by
  rw [ByteArray.toList, byteArray_toList_loop]
  rfl

/-- The bytes of a character. -/
theorem toList_toUTF8_singleton (c : Char) :
    (String.singleton c).toUTF8.toList = String.utf8EncodeChar c := by
  rw [byteArray_toList, String.toUTF8_eq_toByteArray, String.toByteArray_singleton,
    List.utf8Encode, List.toList_data_toByteArray]
  simp

theorem fromUTF8?_toUTF8 (s : String) : String.fromUTF8? s.toUTF8 = some s := by
  have hvalid : s.toUTF8.IsValidUTF8 := s.isValidUTF8
  rw [String.fromUTF8?, dif_pos hvalid]
  rfl

theorem fromUTF8?_flatMap (cs : List Char) :
    String.fromUTF8? ⟨(cs.flatMap String.utf8EncodeChar).toArray⟩ = some (String.ofList cs) := by
  have heq : (⟨(cs.flatMap String.utf8EncodeChar).toArray⟩ : ByteArray) =
      (String.ofList cs).toUTF8 := by
    rw [String.toUTF8_eq_toByteArray, String.toByteArray_ofList, List.utf8Encode]
    exact ByteArray.ext (List.data_toByteArray).symm
  rw [heq, fromUTF8?_toUTF8]

end RouteFleet.Text
