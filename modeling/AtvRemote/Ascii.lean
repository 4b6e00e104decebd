import Mathlib.Data.List.Basic

namespace AtvRemote.Ascii

def utf8 (s : String) : List UInt8 := s.toUTF8.data.toList

theorem utf8_ofList (chars : List Char) :
    utf8 (String.ofList chars) = chars.flatMap String.utf8EncodeChar := by
  rw [utf8, String.toUTF8_eq_toByteArray, String.toByteArray_ofList, List.utf8Encode,
    List.toList_data_toByteArray]

theorem utf8_injective : Function.Injective utf8 := by
  intro s t h
  apply String.toByteArray_inj.mp
  exact ByteArray.ext (Array.ext' h)

theorem utf8_append (s t : String) : utf8 (s ++ t) = utf8 s ++ utf8 t := by
  simp [utf8]

def charOf (b : UInt8) : Char := Char.ofNat b.toNat

theorem charOf_val {b : UInt8} (h : b.toNat < 128) : (charOf b).val.toNat = b.toNat := by
  have hvalid : b.toNat.isValidChar := .inl (by omega)
  rw [charOf, Char.ofNat, dif_pos hvalid]
  rfl

theorem utf8_charOf {b : UInt8} (h : b.toNat < 128) : String.utf8EncodeChar (charOf b) = [b] := by
  rw [String.utf8EncodeChar, charOf_val h, if_pos (by omega), UInt8.ofNat_toNat]

theorem toUpper_charOf {b : UInt8} (h : b.toNat < 97 ∨ 122 < b.toNat ∧ b.toNat < 128) :
    (charOf b).toUpper = charOf b := by
  have hval := @charOf_val b (by omega)
  apply dif_neg
  rintro ⟨hge, hle⟩
  have hge : 97 ≤ (charOf b).val.toNat := hge
  have hle : (charOf b).val.toNat ≤ 122 := hle
  omega

/-- The characters of a text whose bytes are all ASCII. -/
theorem toList_ascii {s : String} (h : ∀ b ∈ utf8 s, b.toNat < 128) :
    s.toList = (utf8 s).map charOf := by
  have hbytes : utf8 (String.ofList ((utf8 s).map charOf)) = utf8 s := by
    rw [utf8_ofList, List.flatMap_map]
    calc (utf8 s).flatMap (fun b => String.utf8EncodeChar (charOf b))
      _ = (utf8 s).flatMap (fun b => [b]) :=
          List.flatMap_congr fun b hb => utf8_charOf (h b hb)
      _ = utf8 s := List.flatMap_singleton' _
  rw [← utf8_injective hbytes, String.toList_ofList, utf8_injective hbytes]

end AtvRemote.Ascii
