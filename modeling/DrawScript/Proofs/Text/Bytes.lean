import Mathlib.Tactic.SplitIfs

/-!
The order of texts is the order of their bytes. Characters are compared by their numbers, and UTF-8
keeps this order: the bytes of the smaller of two characters come first whatever follows either.
-/

namespace DrawScript.Text

def bytes (s : String) : List UInt8 := s.toUTF8.data.toList

theorem toList_data_utf8Encode (cs : List Char) :
    cs.utf8Encode.data.toList = cs.flatMap String.utf8EncodeChar := by
  rw [List.utf8Encode, List.toList_data_toByteArray]

theorem bytes_eq (s : String) : bytes s = s.toList.flatMap String.utf8EncodeChar := by
  rw [bytes, String.toUTF8_eq_toByteArray, ← String.utf8Encode_toList, toList_data_utf8Encode]

/-- Of two numbers in base 64, the smaller one has the smaller digit where they first differ. -/
theorem lex_of_digits_lt {a b c d a' b' c' d' : Nat} (hb : b < 64) (hc : c < 64) (hd : d < 64)
    (hb' : b' < 64) (hc' : c' < 64) (hd' : d' < 64)
    (h : 262144 * a + 4096 * b + 64 * c + d < 262144 * a' + 4096 * b' + 64 * c' + d') :
    a < a' ∨ a = a' ∧ (b < b' ∨ b = b' ∧ (c < c' ∨ c = c' ∧ d < d')) := by
  omega

theorem digits_eq {n : Nat} (h : n < 0x200000) :
    262144 * (n / 262144 % 8) + 4096 * (n / 4096 % 64) + 64 * (n / 64 % 64) + n % 64 = n := by
  omega

theorem ofNat_add_lt {m n k : Nat} (h : m < n) (hn : n + k < 256) :
    UInt8.ofNat (m + k) < UInt8.ofNat (n + k) := by
  rw [UInt8.lt_iff_toNat_lt, UInt8.toNat_ofNat', UInt8.toNat_ofNat']
  omega

theorem toNat_val_lt (c : Char) : c.val.toNat < 0x110000 := by
  have hvalid := c.valid
  simp only [UInt32.isValidChar, Nat.isValidChar] at hvalid
  omega

theorem encodeChar_of_four_bytes {c : Char} (h : 0xffff < c.val.toNat) :
    String.utf8EncodeChar c =
      [UInt8.ofNat (c.val.toNat / 262144 % 8 + 0xf0), UInt8.ofNat (c.val.toNat / 4096 % 64 + 0x80),
        UInt8.ofNat (c.val.toNat / 64 % 64 + 0x80), UInt8.ofNat (c.val.toNat % 64 + 0x80)] := by
  rw [String.utf8EncodeChar, if_neg (by omega), if_neg (by omega), if_neg (by omega)]

theorem encodeChar_append_lt_of_four_bytes {c d : Char} (hc : 0xffff < c.val.toNat) (h : c < d)
    (xs ys : List UInt8) : String.utf8EncodeChar c ++ xs < String.utf8EncodeChar d ++ ys := by
  have hlt : c.val.toNat < d.val.toNat := h
  have hd := toNat_val_lt d
  have hmod : ∀ n, n % 64 < 64 := fun n => Nat.mod_lt n (by decide)
  have hc' := digits_eq (n := c.val.toNat) (by omega)
  have hd' := digits_eq (n := d.val.toNat) (by omega)
  have hlex := lex_of_digits_lt (hmod _) (hmod _) (hmod _) (hmod _) (hmod _) (hmod _)
    (hc'.symm ▸ hd'.symm ▸ hlt)
  rw [encodeChar_of_four_bytes hc, encodeChar_of_four_bytes (Nat.lt_trans hc hlt)]
  rcases hlex with h₁ | ⟨h₁, h₂ | ⟨h₂, h₃ | ⟨h₃, h₄⟩⟩⟩
  · exact .rel (ofNat_add_lt h₁ (by omega))
  · rw [h₁]
    exact .cons (.rel (ofNat_add_lt h₂ (by omega)))
  · rw [h₁, h₂]
    exact .cons (.cons (.rel (ofNat_add_lt h₃ (by omega))))
  · rw [h₁, h₂, h₃]
    exact .cons (.cons (.cons (.rel (ofNat_add_lt h₄ (by omega)))))

theorem encodeChar_append_lt {c d : Char} (h : c < d) (xs ys : List UInt8) :
    String.utf8EncodeChar c ++ xs < String.utf8EncodeChar d ++ ys := by
  by_cases hc : 0xffff < c.val.toNat
  · exact encodeChar_append_lt_of_four_bytes hc h xs ys
  · have hlt : c.val.toNat < d.val.toNat := h
    have hd := toNat_val_lt d
    unfold String.utf8EncodeChar
    dsimp only
    -- One case for each pair of lengths.
    split_ifs <;>
      simp only [List.cons_append, List.nil_append, List.cons_lt_cons_iff, UInt8.lt_iff_toNat_lt,
        ← UInt8.toNat_inj, UInt8.toNat_ofNat', Nat.reducePow] <;>
      omega

theorem flatMap_encodeChar_lt {cs ds : List Char} (h : cs < ds) :
    cs.flatMap String.utf8EncodeChar < ds.flatMap String.utf8EncodeChar := by
  induction h with
  | nil =>
    rw [List.flatMap_nil, List.flatMap_cons]
    obtain ⟨b, bs, hbytes⟩ := List.exists_cons_of_ne_nil (String.utf8EncodeChar_ne_nil)
    rw [hbytes]
    exact List.nil_lt_cons b _
  | cons _ ih =>
    rw [List.flatMap_cons, List.flatMap_cons]
    exact List.append_left_lt ih
  | rel h =>
    rw [List.flatMap_cons, List.flatMap_cons]
    exact encodeChar_append_lt h _ _

theorem bytes_lt_of_lt {s t : String} (h : s < t) : bytes s < bytes t := by
  rw [bytes_eq, bytes_eq]
  exact flatMap_encodeChar_lt (String.lt_iff.mp h)

end DrawScript.Text
