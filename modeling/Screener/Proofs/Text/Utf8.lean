import Screener.Text.Utf8

/-!
Characters in bytes read back. The first byte of a character tells how many follow; these carry six
bits each, so the code is put together again by division with remainder.
-/

namespace Screener.Text

open String (utf8EncodeChar)

-----------------------------------------------------------------------------------------
-- The forms of one to four bytes
-----------------------------------------------------------------------------------------

theorem toNat_ofNat {n : Nat} (fits : n < 256) : (UInt8.ofNat n).toNat = n := by
  rw [UInt8.toNat_ofNat', Nat.mod_eq_of_lt fits]

/-- A continuing byte adds the six bits that it was made from. -/
theorem continued?_ofNat {n : Nat} (bits : n < 64)
    : continued? (UInt8.ofNat (n + 128)) = some n := by
  have value : (UInt8.ofNat (n + 128)).toNat = n + 128 := toNat_ofNat (by omega)
  have inside : 0x80 ≤ UInt8.ofNat (n + 128) ∧ UInt8.ofNat (n + 128) ≤ 0xBF := by
    rw [UInt8.le_iff_toNat_le, UInt8.le_iff_toNat_le, value]
    exact ⟨Nat.le_add_left _ _, show n + 128 ≤ 191 by omega⟩
  rw [continued?, if_pos inside, value, Nat.add_sub_cancel]

section Forms

variable {lead second third fourth : UInt8} {a b c d : Nat} (rest : List UInt8)

theorem firstCode?_one (first : lead.toNat = a) (ascii : a < 128)
    : firstCode? (lead :: rest) = some a := by
  simp only [firstCode?, UInt8.lt_iff_toNat_lt, UInt8.reduceToNat, first]
  rw [if_pos ascii]

-- Rewriting by definition would leave it to the kernel to compare the bounds, digit for digit.

theorem firstCode?_two (first : lead.toNat = a + 192) (hb : continued? second = some b)
    (least : 2 ≤ a) (most : a < 32)
    : firstCode? (lead :: second :: rest) = some (a * 64 + b) := by
  simp only [firstCode?, UInt8.lt_iff_toNat_lt, UInt8.reduceToNat, first]
  rw [if_neg (by omega), if_neg (by omega), if_pos (by omega)]
  simp -implicitDefEqProofs only [List.getElem?_cons_zero, Option.bind_eq_bind,
    Option.bind_some, hb]
  rw [Nat.add_sub_cancel]

theorem firstCode?_three (first : lead.toNat = a + 224) (hb : continued? second = some b)
    (hc : continued? third = some c) (most : a < 16) (least : 0x800 ≤ a * 4096 + b * 64 + c)
    (apart : a * 4096 + b * 64 + c < 0xD800 ∨ 0xE000 ≤ a * 4096 + b * 64 + c)
    : firstCode? (lead :: second :: third :: rest) = some (a * 4096 + b * 64 + c) := by
  simp only [firstCode?, UInt8.lt_iff_toNat_lt, UInt8.reduceToNat, first]
  rw [if_neg (by omega), if_neg (by omega), if_neg (by omega), if_pos (by omega)]
  simp -implicitDefEqProofs only [List.getElem?_cons_zero, List.getElem?_cons_succ,
    Option.bind_eq_bind, Option.bind_some, hb, hc]
  rw [Nat.add_sub_cancel, if_pos ⟨least, apart⟩]

theorem firstCode?_four (first : lead.toNat = a + 240) (hb : continued? second = some b)
    (hc : continued? third = some c) (hd : continued? fourth = some d)
    (least : 0x10000 ≤ a * 262144 + b * 4096 + c * 64 + d)
    (most : a * 262144 + b * 4096 + c * 64 + d < 0x110000)
    : firstCode? (lead :: second :: third :: fourth :: rest)
      = some (a * 262144 + b * 4096 + c * 64 + d) := by
  simp only [firstCode?, UInt8.lt_iff_toNat_lt, UInt8.reduceToNat, first]
  rw [if_neg (by omega), if_neg (by omega), if_neg (by omega), if_neg (by omega),
    if_pos (by omega)]
  simp -implicitDefEqProofs only [List.getElem?_cons_zero, List.getElem?_cons_succ,
    Option.bind_eq_bind, Option.bind_some, hb, hc, hd]
  rw [Nat.add_sub_cancel, if_pos ⟨least, most⟩]

end Forms

-----------------------------------------------------------------------------------------
-- Characters and texts
-----------------------------------------------------------------------------------------

/-- The bytes of a character start with its code. -/
theorem firstCode?_append (c : Char) (rest : List UInt8)
    : firstCode? (utf8EncodeChar c ++ rest) = some c.toNat := by
  have valid : c.val.toNat.isValidChar := c.valid
  change _ = some c.val.toNat
  unfold utf8EncodeChar
  unfold Nat.isValidChar at valid
  generalize c.val.toNat = n at *
  have bits (k : Nat) : continued? (UInt8.ofNat (n / k % 64 + 128)) = some (n / k % 64) :=
    continued?_ofNat (Nat.mod_lt _ (by decide))
  have last : continued? (UInt8.ofNat (n % 64 + 128)) = some (n % 64) :=
    continued?_ofNat (Nat.mod_lt _ (by decide))
  dsimp only
  split
  case isTrue one => exact firstCode?_one rest (toNat_ofNat (by omega)) (by omega)
  case isFalse one =>
  split
  case isTrue two =>
    have code : n / 64 % 32 * 64 + n % 64 = n := by omega
    have read := firstCode?_two rest (toNat_ofNat (n := n / 64 % 32 + 192) (by omega)) last
      (by omega) (by omega)
    rwa [code] at read
  case isFalse two =>
  split
  case isTrue three =>
    have code : n / 4096 % 16 * 4096 + n / 64 % 64 * 64 + n % 64 = n := by omega
    have read := firstCode?_three rest (toNat_ofNat (n := n / 4096 % 16 + 224) (by omega))
      (bits 64) last (by omega) (by omega) (by omega)
    rwa [code] at read
  case isFalse three =>
    have code
        : n / 262144 % 8 * 262144 + n / 4096 % 64 * 4096 + n / 64 % 64 * 64 + n % 64 = n := by
      omega
    have read := firstCode?_four rest (toNat_ofNat (n := n / 262144 % 8 + 240) (by omega))
      (bits 4096) (bits 64) last (by omega) (by omega)
    rwa [code] at read

/-- The bytes of a text are decoded to its characters, by induction along the text. -/
theorem decode_utf8 (before : Nat) (text : List Char)
    : decode before (text.flatMap utf8EncodeChar) = .ok text := by
  induction text generalizing before with
  | nil => rw [List.flatMap_nil, decode]
  | cons c text ih =>
      have size := String.length_utf8EncodeChar c
      have code := firstCode?_append c (text.flatMap utf8EncodeChar)
      rw [List.flatMap_cons]
      cases bytes : utf8EncodeChar c with
      | nil =>
          rw [bytes] at size
          exact absurd size.symm (Nat.ne_of_gt c.utf8Size_pos)
      | cons first others =>
          rw [bytes] at size code
          have rest : (others ++ text.flatMap utf8EncodeChar).drop (c.utf8Size - 1)
              = text.flatMap utf8EncodeChar := by
            rw [← size, List.length_cons, Nat.add_sub_cancel, List.drop_left]
          rw [List.cons_append, decode, ← List.cons_append, code]
          dsimp only
          rw [Char.ofNat_toNat, rest, ih]
          rfl

/-- The bytes of a string are those of its characters. -/
theorem toUTF8_ofList (text : List Char)
    : (String.ofList text).toUTF8.data.toList = text.flatMap utf8EncodeChar := by
  rw [String.toUTF8_eq_toByteArray, String.toByteArray_ofList, List.utf8Encode,
    List.toList_data_toByteArray]

/-- All bytes of a character outside of ASCII are outside of it too. -/
theorem le_of_mem_utf8EncodeChar {c : Char} (beyond : 128 ≤ c.toNat) {b : UInt8}
    (member : b ∈ utf8EncodeChar c)
    : 128 ≤ b.toNat := by
  change 128 ≤ c.val.toNat at beyond
  unfold utf8EncodeChar at member
  generalize c.val.toNat = n at *
  have high (k m mark : Nat) (some : 0 < m) (fits : m + mark ≤ 256) (least : 128 ≤ mark)
      : 128 ≤ (UInt8.ofNat (k % m + mark)).toNat := by
    have part := Nat.mod_lt k some
    rw [toNat_ofNat (by omega)]
    exact Nat.le_add_left_of_le least
  have two := high (n / 64) 32 192 (by decide) (by decide) (by decide)
  have three := high (n / 4096) 16 224 (by decide) (by decide) (by decide)
  have four := high (n / 262144) 8 240 (by decide) (by decide) (by decide)
  have next (k : Nat) := high k 64 128 (by decide) (by decide) (by decide)
  dsimp only at member
  split at member
  case isTrue one => omega
  case isFalse one =>
  split at member
  case isTrue =>
    simp only [List.mem_cons, List.not_mem_nil, or_false] at member
    rcases member with rfl | rfl
    · exact two
    · exact next n
  case isFalse =>
  split at member
  case isTrue =>
    simp only [List.mem_cons, List.not_mem_nil, or_false] at member
    rcases member with rfl | rfl | rfl
    · exact three
    · exact next (n / 64)
    · exact next n
  case isFalse =>
    simp only [List.mem_cons, List.not_mem_nil, or_false] at member
    rcases member with rfl | rfl | rfl | rfl
    · exact four
    · exact next (n / 4096)
    · exact next (n / 64)
    · exact next n

end Screener.Text
