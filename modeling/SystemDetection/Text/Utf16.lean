import Mathlib.Data.List.TakeWhile

namespace utf16

/-- The units of one character: its code point, or a pair of surrogates. -/
def encode_char (character : Char) : List UInt16 :=
  if character.toNat < 0x10000 then
    [.ofNat character.toNat]
  else
    [.ofNat (0xD800 + (character.toNat - 0x10000) / 0x400), .ofNat (0xDC00 + (character.toNat - 0x10000) % 0x400)]

def encode (text : List Char) : List UInt16 := text.flatMap encode_char

def is_high_surrogate (unit : UInt16) : Bool := 0xD800 ≤ unit.toNat && unit.toNat < 0xDC00

def is_low_surrogate (unit : UInt16) : Bool := 0xDC00 ≤ unit.toNat && unit.toNat < 0xE000

/-- The text of well-formed units; unpaired surrogates are refused. -/
def decode : List UInt16 → Option (List Char)
  | [] => some []
  | [unit] => if is_high_surrogate unit || is_low_surrogate unit then none else some [Char.ofNat unit.toNat]
  | unit :: next :: rest =>
    if is_high_surrogate unit then
      if is_low_surrogate next then
        (decode rest).map fun text =>
          Char.ofNat (0x10000 + (unit.toNat - 0xD800) * 0x400 + (next.toNat - 0xDC00)) :: text
      else none
    else if is_low_surrogate unit then none
    else (decode (next :: rest)).map fun text => Char.ofNat unit.toNat :: text

theorem char_bounds (character : Char) :
    character.toNat < 0xD800 ∨ 0xDFFF < character.toNat ∧ character.toNat < 0x110000 :=
  character.valid

theorem toNat_ofNat {value : Nat} (hvalue : value < 0x10000) : (UInt16.ofNat value).toNat = value :=
  UInt16.toNat_ofNat_of_lt' hvalue

theorem decode_unit {unit : UInt16} (hhigh : is_high_surrogate unit = false) (hlow : is_low_surrogate unit = false)
    (rest : List UInt16) : decode (unit :: rest) = (decode rest).map fun text => Char.ofNat unit.toNat :: text := by
  cases rest with
  | nil => simp [decode, hhigh, hlow]
  | cons next rest => simp [decode, hhigh, hlow]

/-- A character is decoded from its one or two units. -/
theorem decode_encode_char (character : Char) (rest : List UInt16) :
    decode (encode_char character ++ rest) = (decode rest).map fun text => character :: text := by
  have hbounds := char_bounds character
  rw [encode_char]
  split
  · rename_i hsmall
    have hunit := toNat_ofNat hsmall
    rw [List.singleton_append, decode_unit, hunit, Char.ofNat_toNat]
    · rw [is_high_surrogate, hunit, Bool.and_eq_false_iff, decide_eq_false_iff_not, decide_eq_false_iff_not]
      omega
    · rw [is_low_surrogate, hunit, Bool.and_eq_false_iff, decide_eq_false_iff_not, decide_eq_false_iff_not]
      omega
  · rename_i hlarge
    have hhigh := toNat_ofNat (show 0xD800 + (character.toNat - 0x10000) / 0x400 < 0x10000 by omega)
    have hlow := toNat_ofNat (show 0xDC00 + (character.toNat - 0x10000) % 0x400 < 0x10000 by omega)
    have hpoint : 0x10000 + (0xD800 + (character.toNat - 0x10000) / 0x400 - 0xD800) * 0x400 +
        (0xDC00 + (character.toNat - 0x10000) % 0x400 - 0xDC00) = character.toNat := by omega
    have his_high : is_high_surrogate (.ofNat (0xD800 + (character.toNat - 0x10000) / 0x400)) = true := by
      rw [is_high_surrogate, hhigh, Bool.and_eq_true, decide_eq_true_eq, decide_eq_true_eq]
      omega
    have his_low : is_low_surrogate (.ofNat (0xDC00 + (character.toNat - 0x10000) % 0x400)) = true := by
      rw [is_low_surrogate, hlow, Bool.and_eq_true, decide_eq_true_eq, decide_eq_true_eq]
      omega
    rw [List.cons_append, List.singleton_append, decode, if_pos his_high, if_pos his_low, hhigh, hlow, hpoint,
      Char.ofNat_toNat]

/-- What is encoded is read back. -/
theorem decode_encode (text : List Char) : decode (encode text) = some text := by
  induction text with
  | nil => rfl
  | cons character text ih => rw [encode, List.flatMap_cons, decode_encode_char, ← encode, ih, Option.map_some]

/-- Only the character U+0000 has a unit that is zero. -/
theorem zero_mem_encode_char (character : Char) : 0 ∈ encode_char character ↔ character = '\x00' := by
  have hbounds := char_bounds character
  have hzero : ∀ value < 0x10000, (0 : UInt16) = .ofNat value ↔ value = 0 := by
    intro value hvalue
    rw [← UInt16.toNat_inj, toNat_ofNat hvalue, UInt16.toNat_zero, eq_comm]
  have hnul : character = '\x00' ↔ character.toNat = 0 := by
    rw [← Char.toNat_inj]
    rfl
  rw [encode_char, hnul]
  split
  · rename_i hsmall
    rw [List.mem_singleton, hzero _ hsmall]
  · rename_i hlarge
    rw [List.mem_cons, List.mem_singleton, hzero _ (by omega), hzero _ (by omega)]
    omega

/-- A reader that stops at the first zero unit gets the text up to the first U+0000. -/
theorem takeWhile_encode (text : List Char) (rest : List UInt16) :
    (encode text ++ 0 :: rest).takeWhile (· != 0) = encode (text.takeWhile (· != '\x00')) := by
  induction text with
  | nil => rfl
  | cons character text ih =>
    rw [encode, List.flatMap_cons, List.append_assoc, ← encode, List.takeWhile_cons]
    split
    · rename_i hcharacter
      have hunits : ∀ unit ∈ encode_char character, (unit != 0) = true := by
        intro unit hmem
        rw [bne_iff_ne]
        rintro rfl
        exact bne_iff_ne.mp hcharacter ((zero_mem_encode_char character).mp hmem)
      rw [List.takeWhile_append_of_pos hunits, ih]
      rfl
    · rename_i hcharacter
      have hnul : character = '\x00' := by simpa using hcharacter
      subst hnul
      rfl

end utf16
