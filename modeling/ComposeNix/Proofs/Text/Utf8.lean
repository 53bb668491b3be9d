import ComposeNix.Text.Utf8
import Mathlib.Data.List.Basic

/-!
# Text of ASCII and its bytes

A text of ASCII has one byte for every character, and is read back from its bytes
(`decodeUtf8_ascii`).  The characters of ASCII are few enough to look at each of them
(`forall_ascii`).
-/

namespace ComposeNix.Text

/-- What holds of every character of ASCII can be seen by looking at each of them. -/
@[elab_as_elim]
theorem forall_ascii {p : Char → Prop} {c : Char} (hc : c.toNat < 0x80)
    (h : ∀ n < 0x80, p (Char.ofNat n)) : p c := by
  have hself := h c.toNat hc
  rwa [Char.ofNat_toNat] at hself

/-- The bytes of an array from a place on, behind those that have been taken. -/
theorem toList_loop (bytes : ByteArray) (place : Nat) (taken : List UInt8) :
    ByteArray.toList.loop bytes place taken
      = taken.reverse ++ bytes.data.toList.drop place := by
  fun_induction ByteArray.toList.loop bytes place taken with
  | case1 place taken hlt ih =>
    have hbound : place < bytes.data.toList.length := by simpa using hlt
    have hbyte : bytes.get! place = bytes.data.toList[place] :=
      getElem!_pos bytes.data place (by simpa using hlt)
    rw [ih, hbyte, List.drop_eq_getElem_cons hbound, List.reverse_cons, List.append_assoc]
    rfl
  | case2 place taken hge =>
    rw [List.drop_eq_nil_of_le (by simpa using hge), List.append_nil]

/-- The bytes of a text are those of its characters. -/
theorem toList_toUTF8 (s : String) : s.toUTF8.toList = s.toList.flatMap String.utf8EncodeChar := by
  have hbytes : s.toUTF8 = (s.toList.flatMap String.utf8EncodeChar).toByteArray := by
    conv_lhs => rw [← String.ofList_toList (s := s)]
    rfl
  rw [hbytes, ByteArray.toList, toList_loop, List.data_toByteArray]
  rfl

/-- A character of ASCII has one byte. -/
theorem utf8EncodeChar_ascii {c : Char} (h : c.toNat < 0x80) :
    String.utf8EncodeChar c = [UInt8.ofNat c.toNat] := by
  have hsize : c.utf8Size = 1 := by
    rw [Char.utf8Size_eq_one_iff, UInt32.le_iff_toNat_le]
    exact Nat.le_of_lt_succ h
  rw [String.utf8EncodeChar_eq_singleton hsize]
  rfl

theorem toList_toUTF8_ascii {s : String} (h : ∀ c ∈ s.toList, c.toNat < 0x80) :
    s.toUTF8.toList = s.toList.map fun c => UInt8.ofNat c.toNat := by
  rw [toList_toUTF8, ← List.flatMap_singleton' (s.toList.map _), List.flatMap_map]
  exact List.flatMap_congr fun c hc => utf8EncodeChar_ascii (h c hc)

/-- The bytes of characters of ASCII are read as these. -/
theorem decodeUtf8From_ascii {cs : List Char} (h : ∀ c ∈ cs, c.toNat < 0x80) (position : Nat) :
    decodeUtf8From position none (cs.map fun c => UInt8.ofNat c.toNat) = .ok cs := by
  induction cs generalizing position with
  | nil => rfl
  | cons c cs ih =>
    obtain ⟨hc, hcs⟩ := List.forall_mem_cons.mp h
    have hbyte : (UInt8.ofNat c.toNat).toNat = c.toNat :=
      UInt8.toNat_ofNat_of_lt' (Nat.lt_trans hc (by decide))
    have hsmall : UInt8.ofNat c.toNat < 0x80 := by
      rw [UInt8.lt_iff_toNat_lt, hbyte]
      exact hc
    rw [List.map_cons, decodeUtf8From, if_pos hsmall, ih hcs, hbyte, Char.ofNat_toNat]
    rfl

theorem decodeUtf8_ascii {s : String} (h : ∀ c ∈ s.toList, c.toNat < 0x80) :
    decodeUtf8 (s.toList.map fun c => UInt8.ofNat c.toNat) = .ok s := by
  rw [decodeUtf8, decodeUtf8From_ascii h 0]
  exact congrArg Except.ok String.ofList_toList

end ComposeNix.Text
