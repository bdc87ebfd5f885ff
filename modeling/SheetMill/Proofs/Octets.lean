import SheetMill.Wire.Codec

/-!
# Texts as octets

The octets of a text are read back as the text.
-/

namespace SheetMill.Wire

open List

theorem toList_loop (bs : ByteArray) (i : Nat) (r : List UInt8) :
    ByteArray.toList.loop bs i r = r.reverse ++ bs.data.toList.drop i := by
  fun_induction ByteArray.toList.loop bs i r with
  | case1 i r hlt ih =>
    have hlen : i < bs.data.toList.length := hlt
    have hget : bs.get! i = bs.data.toList[i] := getElem!_pos bs.data i hlt
    rw [ih, drop_eq_getElem_cons hlen, hget, reverse_cons, append_assoc, singleton_append]
  | case2 i r hge =>
    have hle : bs.data.toList.length ≤ i := Nat.le_of_not_lt hge
    rw [drop_of_length_le hle, append_nil]

theorem octetsText?_textOctets (s : String) : octetsText? (textOctets s) = some s := by
  have hoctets : (⟨(textOctets s).toArray⟩ : ByteArray) = s.toByteArray := by
    unfold textOctets
    have hlist : s.toUTF8.toList = s.toByteArray.data.toList := by
      refine (toList_loop s.toByteArray 0 []).trans ?_
      simp
    rw [hlist]
  unfold octetsText?
  rw [hoctets]
  unfold String.fromUTF8?
  rw [dif_pos s.isValidUTF8]
  rfl

end SheetMill.Wire
