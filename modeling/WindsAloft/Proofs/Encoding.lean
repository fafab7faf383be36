import Mathlib
import WindsAloft.Text.Utf8

/-!
# What is UTF-8

`Utf8.decode` accepts exactly the encodings of texts and gives the text back.
The bounds on bytes are restated as bounds on numbers first, which decides both
directions: the encoding of every character meets them, and bytes that meet them
are the encoding of the character that is made of their bits.
-/

namespace WindsAloft
namespace Utf8

/-- The bytes of a text. -/
def encode (text : List Char) : List UInt8 :=
  text.flatMap String.utf8EncodeChar

theorem size_append (front back : List Char) : size (front ++ back) = size front + size back := by
  induction front with
  | nil => exact (Nat.zero_add _).symm
  | cons c front ih =>
      show c.utf8Size + size (front ++ back) = c.utf8Size + size front + size back
      rw [ih, Nat.add_assoc]

theorem width_eq (byte : UInt8) :
    width byte =
      if byte.toNat < 0x80 then 1
      else if 0xC2 ≤ byte.toNat ∧ byte.toNat ≤ 0xDF then 2
      else if 0xE0 ≤ byte.toNat ∧ byte.toNat ≤ 0xEF then 3
      else if 0xF0 ≤ byte.toNat ∧ byte.toNat ≤ 0xF4 then 4
      else 0 := by
  simp only [width, UInt8.lt_iff_toNat_lt, UInt8.le_iff_toNat_le, Bool.and_eq_true,
    decide_eq_true_eq]
  rfl

theorem isContinuation_iff (byte : UInt8) :
    isContinuation byte = true ↔ 0x80 ≤ byte.toNat ∧ byte.toNat ≤ 0xBF := by
  simp only [isContinuation, UInt8.le_iff_toNat_le, Bool.and_eq_true, decide_eq_true_eq]
  rfl

theorem fits_iff (first second : UInt8) :
    fits first second = true ↔
      (0x80 ≤ second.toNat ∧ second.toNat ≤ 0xBF) ∧
        (first.toNat = 0xE0 → 0xA0 ≤ second.toNat) ∧
        (first.toNat = 0xED → second.toNat ≤ 0x9F) ∧
        (first.toNat = 0xF0 → 0x90 ≤ second.toNat) ∧
        (first.toNat = 0xF4 → second.toNat ≤ 0x8F) := by
  have same (byte : UInt8) : first = byte ↔ first.toNat = byte.toNat := UInt8.toNat_inj.symm
  unfold fits isContinuation
  simp only [same]
  split_ifs <;>
    simp only [UInt8.le_iff_toNat_le, Bool.and_eq_true, decide_eq_true_eq] <;>
    simp only [UInt8.reduceToNat] at * <;>
    omega

section Steps

variable {a b c d : UInt8} (index : ℕ) (rest : List UInt8)

theorem decodeFrom_one (wide : width a = 1) :
    decodeFrom index (a :: rest) =
      (decodeFrom (index + 1) rest).map (Char.ofNat a.toNat :: ·) :=
  decodeFrom.eq_2 index a rest wide

theorem decodeFrom_two (wide : width a = 2) (second : fits a b = true) :
    decodeFrom index (a :: b :: rest) =
      (decodeFrom (index + 2) rest).map (Char.ofNat (a.toNat % 32 * 64 + payload b) :: ·) := by
  rw [decodeFrom.eq_3 index a b rest wide, if_pos second]

theorem decodeFrom_three
    (wide : width a = 3)
    (second : fits a b = true)
    (third : isContinuation c = true) :
    decodeFrom index (a :: b :: c :: rest) =
      (decodeFrom (index + 3) rest).map
        (Char.ofNat ((a.toNat % 16 * 64 + payload b) * 64 + payload c) :: ·) := by
  rw [decodeFrom.eq_4 index a b c rest wide, if_neg (not_not_intro second),
    if_neg (not_not_intro third)]

theorem decodeFrom_four
    (wide : width a = 4)
    (second : fits a b = true)
    (third : isContinuation c = true)
    (fourth : isContinuation d = true) :
    decodeFrom index (a :: b :: c :: d :: rest) =
      (decodeFrom (index + 4) rest).map
        (Char.ofNat
          (((a.toNat % 8 * 64 + payload b) * 64 + payload c) * 64 + payload d) :: ·) := by
  rw [decodeFrom.eq_6 index a b c d rest wide, if_neg (not_not_intro second),
    if_neg (not_not_intro third), if_neg (not_not_intro fourth)]

end Steps

theorem toNat_ofNat_of_lt {n : ℕ} (small : n < 256) : (UInt8.ofNat n).toNat = n := by
  rw [UInt8.toNat_ofNat']
  exact Nat.mod_eq_of_lt small

theorem payload_ofNat (n : ℕ) : payload (UInt8.ofNat (n % 64 + 128)) = n % 64 := by
  rw [payload, toNat_ofNat_of_lt (by omega)]
  omega

theorem isContinuation_ofNat (n : ℕ) : isContinuation (UInt8.ofNat (n % 64 + 128)) = true := by
  rw [isContinuation_iff, toNat_ofNat_of_lt (by omega)]
  omega

/-- The encoding of a character is decoded to it, whatever follows. -/
theorem decodeFrom_encodeChar (index : ℕ) (c : Char) (rest : List UInt8) :
    decodeFrom index (String.utf8EncodeChar c ++ rest) =
      (decodeFrom (index + (String.utf8EncodeChar c).length) rest).map (c :: ·) := by
  have valid : c.val.toNat < 0xD800 ∨ 0xDFFF < c.val.toNat ∧ c.val.toNat < 0x110000 := c.valid
  obtain ⟨v, value⟩ : ∃ v, c.val.toNat = v := ⟨_, rfl⟩
  obtain rfl : Char.ofNat v = c := value ▸ Char.ofNat_toNat c
  unfold String.utf8EncodeChar
  rw [value] at valid
  simp only [value]
  split_ifs with one two three
  · have lead : (UInt8.ofNat v).toNat = v := toNat_ofNat_of_lt (by omega)
    have wide : width (UInt8.ofNat v) = 1 := by
      rw [width_eq, lead]
      split_ifs <;> omega
    rw [List.singleton_append, decodeFrom_one _ _ wide, lead]
    rfl
  · have lead : (UInt8.ofNat (v / 64 % 32 + 192)).toNat = v / 64 % 32 + 192 :=
      toNat_ofNat_of_lt (by omega)
    have wide : width (UInt8.ofNat (v / 64 % 32 + 192)) = 2 := by
      rw [width_eq, lead]
      split_ifs <;> omega
    have second : fits (UInt8.ofNat (v / 64 % 32 + 192)) (UInt8.ofNat (v % 64 + 128)) = true := by
      rw [fits_iff, lead, toNat_ofNat_of_lt (by omega)]
      omega
    have bits : (v / 64 % 32 + 192) % 32 * 64 + v % 64 = v := by omega
    simp only [List.cons_append, List.nil_append]
    rw [decodeFrom_two _ _ wide second, lead, payload_ofNat, bits]
    rfl
  · have lead : (UInt8.ofNat (v / 4096 % 16 + 224)).toNat = v / 4096 % 16 + 224 :=
      toNat_ofNat_of_lt (by omega)
    have wide : width (UInt8.ofNat (v / 4096 % 16 + 224)) = 3 := by
      rw [width_eq, lead]
      split_ifs <;> omega
    have second :
        fits (UInt8.ofNat (v / 4096 % 16 + 224)) (UInt8.ofNat (v / 64 % 64 + 128)) = true := by
      rw [fits_iff, lead, toNat_ofNat_of_lt (by omega)]
      omega
    have bits : ((v / 4096 % 16 + 224) % 16 * 64 + v / 64 % 64) * 64 + v % 64 = v := by omega
    simp only [List.cons_append, List.nil_append]
    rw [decodeFrom_three _ _ wide second (isContinuation_ofNat v), lead, payload_ofNat,
      payload_ofNat, bits]
    rfl
  · have lead : (UInt8.ofNat (v / 262144 % 8 + 240)).toNat = v / 262144 % 8 + 240 :=
      toNat_ofNat_of_lt (by omega)
    have wide : width (UInt8.ofNat (v / 262144 % 8 + 240)) = 4 := by
      rw [width_eq, lead]
      split_ifs <;> omega
    have second :
        fits (UInt8.ofNat (v / 262144 % 8 + 240)) (UInt8.ofNat (v / 4096 % 64 + 128)) = true := by
      rw [fits_iff, lead, toNat_ofNat_of_lt (by omega)]
      omega
    have bits :
        (((v / 262144 % 8 + 240) % 8 * 64 + v / 4096 % 64) * 64 + v / 64 % 64) * 64 + v % 64 =
          v := by
      omega
    simp only [List.cons_append, List.nil_append]
    rw [decodeFrom_four _ _ wide second (isContinuation_ofNat _) (isContinuation_ofNat v), lead,
      payload_ofNat, payload_ofNat, payload_ofNat, bits]
    rfl

theorem decodeFrom_encode (index : ℕ) (text : List Char) :
    decodeFrom index (encode text) = .ok text := by
  induction text generalizing index with
  | nil => rfl
  | cons c text ih =>
      rw [encode, List.flatMap_cons, decodeFrom_encodeChar]
      show (decodeFrom _ (encode text)).map _ = _
      rw [ih]
      rfl

theorem toNat_val_ofNat {n : ℕ} (valid : n < 0xD800 ∨ 0xDFFF < n ∧ n < 0x110000) :
    (Char.ofNat n).val.toNat = n := by
  have valid' : n.isValidChar := valid
  rw [Char.ofNat, dif_pos valid']
  rfl

/-- A byte is given by its number. -/
theorem ofNat_eq {n : ℕ} {byte : UInt8} (same : n = byte.toNat) : UInt8.ofNat n = byte := by
  rw [same, UInt8.ofNat_toNat]

/-! Bytes that meet the bounds are the encoding of the character that is made of their bits. -/

section Bits

variable {a b c d : UInt8}

theorem encodeChar_one (wide : width a = 1) :
    String.utf8EncodeChar (Char.ofNat a.toNat) = [a] := by
  rw [width_eq] at wide
  have lead : a.toNat < 0x80 := by split_ifs at wide <;> omega
  unfold String.utf8EncodeChar
  simp only [toNat_val_ofNat (.inl (by omega : a.toNat < 0xD800))]
  rw [if_pos (by omega), UInt8.ofNat_toNat]

theorem encodeChar_two (wide : width a = 2) (second : fits a b = true) :
    String.utf8EncodeChar (Char.ofNat (a.toNat % 32 * 64 + payload b)) = [a, b] := by
  rw [width_eq] at wide
  have lead : 0xC2 ≤ a.toNat ∧ a.toNat ≤ 0xDF := by split_ifs at wide <;> omega
  rw [fits_iff] at second
  obtain ⟨n, value⟩ : ∃ n, n = a.toNat % 32 * 64 + payload b := ⟨_, rfl⟩
  rw [← value]
  unfold payload at value
  unfold String.utf8EncodeChar
  simp only [toNat_val_ofNat (.inl (by omega : n < 0xD800))]
  rw [if_neg (by omega), if_pos (by omega)]
  exact congrArg₂ (fun a b => [a, b]) (ofNat_eq (by omega)) (ofNat_eq (by omega))

theorem encodeChar_three
    (wide : width a = 3)
    (second : fits a b = true)
    (third : isContinuation c = true) :
    String.utf8EncodeChar
        (Char.ofNat ((a.toNat % 16 * 64 + payload b) * 64 + payload c)) = [a, b, c] := by
  rw [width_eq] at wide
  have lead : 0xE0 ≤ a.toNat ∧ a.toNat ≤ 0xEF := by split_ifs at wide <;> omega
  rw [fits_iff] at second
  rw [isContinuation_iff] at third
  obtain ⟨n, value⟩ :
      ∃ n, n = (a.toNat % 16 * 64 + payload b) * 64 + payload c := ⟨_, rfl⟩
  rw [← value]
  unfold payload at value
  have valid : n < 0xD800 ∨ 0xDFFF < n ∧ n < 0x110000 := by omega
  unfold String.utf8EncodeChar
  simp only [toNat_val_ofNat valid]
  rw [if_neg (by omega), if_neg (by omega), if_pos (by omega), ofNat_eq (by omega : _ = a.toNat),
    ofNat_eq (by omega : _ = b.toNat), ofNat_eq (by omega : _ = c.toNat)]

theorem encodeChar_four
    (wide : width a = 4)
    (second : fits a b = true)
    (third : isContinuation c = true)
    (fourth : isContinuation d = true) :
    String.utf8EncodeChar
        (Char.ofNat (((a.toNat % 8 * 64 + payload b) * 64 + payload c) * 64 + payload d)) =
      [a, b, c, d] := by
  rw [width_eq] at wide
  have lead : 0xF0 ≤ a.toNat ∧ a.toNat ≤ 0xF4 := by split_ifs at wide <;> omega
  rw [fits_iff] at second
  rw [isContinuation_iff] at third fourth
  obtain ⟨n, value⟩ :
      ∃ n, n = ((a.toNat % 8 * 64 + payload b) * 64 + payload c) * 64 + payload d := ⟨_, rfl⟩
  rw [← value]
  unfold payload at value
  have valid : n < 0xD800 ∨ 0xDFFF < n ∧ n < 0x110000 := by omega
  unfold String.utf8EncodeChar
  simp only [toNat_val_ofNat valid]
  rw [if_neg (by omega), if_neg (by omega), if_neg (by omega), ofNat_eq (by omega : _ = a.toNat),
    ofNat_eq (by omega : _ = b.toNat), ofNat_eq (by omega : _ = c.toNat),
    ofNat_eq (by omega : _ = d.toNat)]

end Bits

/-- A character in front of a decoded text. -/
theorem exists_of_map_cons
    {decoded : Except Fault (List Char)}
    {c : Char}
    {text : List Char}
    (value : decoded.map (c :: ·) = .ok text) :
    ∃ rest, decoded = .ok rest ∧ text = c :: rest := by
  cases decoded with
  | error fault => cases value
  | ok rest => exact ⟨rest, rfl, (Except.ok.inj value).symm⟩

/-- Only encodings are decoded. -/
theorem eq_encode_of_decodeFrom
    {index : ℕ}
    {bytes : List UInt8}
    {text : List Char}
    (decoded : decodeFrom index bytes = .ok text) :
    bytes = encode text := by
  fun_induction decodeFrom index bytes generalizing text with
  | case1 =>
      obtain rfl := Except.ok.inj decoded
      rfl
  | case2 index a rest wide ih =>
      obtain ⟨tail, decodedTail, rfl⟩ := exists_of_map_cons decoded
      rw [encode, List.flatMap_cons, encodeChar_one wide, ih decodedTail]
      rfl
  | case3 index a b rest wide second ih =>
      obtain ⟨tail, decodedTail, rfl⟩ := exists_of_map_cons decoded
      rw [encode, List.flatMap_cons, encodeChar_two wide second, ih decodedTail]
      rfl
  | case7 index a b c rest wide second third ih =>
      obtain ⟨tail, decodedTail, rfl⟩ := exists_of_map_cons decoded
      rw [encode, List.flatMap_cons,
        encodeChar_three wide (not_not.mp second) (not_not.mp third), ih decodedTail]
      rfl
  | case12 index a b c d rest wide second third fourth ih =>
      obtain ⟨tail, decodedTail, rfl⟩ := exists_of_map_cons decoded
      rw [encode, List.flatMap_cons,
        encodeChar_four wide (not_not.mp second) (not_not.mp third) (not_not.mp fourth),
        ih decodedTail]
      rfl
  | _ => cases decoded

/-- Exactly the encodings of texts are decoded, and they are decoded to these texts. -/
theorem decode_eq_ok_iff {bytes : List UInt8} {text : List Char} :
    decode bytes = .ok text ↔ bytes = encode text := by
  constructor
  · exact eq_encode_of_decodeFrom
  · rintro rfl
    exact decodeFrom_encode 0 text

end Utf8
end WindsAloft
