import SystemDetection.Platform.Words
import SystemDetection.Sigscan.Pattern
import SystemDetection.Store.Listing

open store

namespace systemdetection.patches.sigscan

/-- A hexadecimal digit of either case stands for its place in the alphabet. -/
def HexDigit (character : Char) (value : Nat) : Prop :=
  "0123456789abcdef".toList[value]? = some character ∨ "0123456789ABCDEF".toList[value]? = some character

/-- The words of the signature grammar, and the pattern entries they stand for. -/
inductive Spells : List Char → Option UInt8 → Prop where
  | wildcard : Spells ['?'] none
  | double_wildcard : Spells ['?', '?'] none
  | digit {low : Char} {value : Nat} (hlow : HexDigit low value) : Spells [low] (some (UInt8.ofNat value))
  | digits {high low : Char} {upper lower : Nat} (hhigh : HexDigit high upper) (hlow : HexDigit low lower) :
    Spells [high, low] (some (UInt8.ofNat (upper * 16 + lower)))

/-- The spelling of a byte behind any number of zeros. -/
inductive Padded : List Char → UInt8 → Prop where
  | spelled {digits : List Char} {byte : UInt8} (hspells : Spells digits (some byte)) : Padded digits byte
  | zero {digits : List Char} {byte : UInt8} (hpadded : Padded digits byte) : Padded ('0' :: digits) byte

/-- The words outside the grammar that the number parser takes for a byte. -/
inductive Disguises : List Char → Option UInt8 → Prop where
  | signed {digits : List Char} {byte : UInt8} (hpadded : Padded digits byte) :
    Disguises ('+' :: digits) (some byte)
  | overlong {digits : List Char} {byte : UInt8} (hpadded : Padded digits byte) (hlong : 2 < digits.length) :
    Disguises digits (some byte)

/-- The text is made of spellings of the entries, with any white space around them. -/
def Pattern.SpelledBy (pattern : Pattern) (text : String) : Prop :=
  ∃ spelled, Spaced is_whitespace spelled text.toList ∧ List.Forall₂ Spells spelled pattern.bytes

section Digits

theorem HexDigit.value_lt {character : Char} {value : Nat} (hdigit : HexDigit character value) : value < 16 := by
  obtain hlower | hupper := hdigit
  · exact (List.getElem?_eq_some_iff.mp hlower).1
  · exact (List.getElem?_eq_some_iff.mp hupper).1

/-- The characters of a range of codes stand in the alphabet one after the other. -/
theorem getElem?_of_range (alphabet : List Char) (place : Nat) {first last character : Char}
    (hrange : first ≤ character ∧ character ≤ last)
    (hlisted : ∀ offset ≤ last.toNat - first.toNat,
      alphabet[offset + place]? = some (Char.ofNat (first.toNat + offset))) :
    alphabet[character.toNat - first.toNat + place]? = some character := by
  have hfirst : first.toNat ≤ character.toNat := hrange.1
  have hlast : character.toNat ≤ last.toNat := hrange.2
  rw [hlisted _ (Nat.sub_le_sub_right hlast _), Nat.add_sub_cancel' hfirst, Char.ofNat_toNat]

/-- Exactly the hexadecimal digits have a value. -/
theorem to_digit_eq_some_iff {character : Char} {value : Nat} :
    to_digit character = some value ↔ HexDigit character value := by
  constructor
  · intro hdigit
    unfold to_digit at hdigit
    split at hdigit
    · rename_i hdecimal
      cases hdigit
      exact .inl (getElem?_of_range _ 0 hdecimal (by decide))
    · split at hdigit
      · rename_i hlower
        cases hdigit
        exact .inl (getElem?_of_range _ 10 hlower (by decide))
      · split at hdigit
        · rename_i hupper
          cases hdigit
          exact .inr (getElem?_of_range _ 10 hupper (by decide))
        · cases hdigit
  · have hlower : ∀ place : Fin 16, ("0123456789abcdef".toList[place.val]?).bind to_digit = some place.val := by
      decide
    have hupper : ∀ place : Fin 16, ("0123456789ABCDEF".toList[place.val]?).bind to_digit = some place.val := by
      decide
    intro hdigit
    have hsmall := hdigit.value_lt
    obtain hcharacter | hcharacter := hdigit
    · have h := hlower ⟨value, hsmall⟩
      rwa [hcharacter] at h
    · have h := hupper ⟨value, hsmall⟩
      rwa [hcharacter] at h

/-- A digit is followed by the number that the rest makes of it. -/
theorem parse_digits_cons_eq_some_iff {accumulated value : Nat} {character : Char} {rest : List Char} :
    parse_digits accumulated (character :: rest) = some value ↔
      ∃ digit, HexDigit character digit ∧ accumulated * 16 + digit < 256 ∧
        parse_digits (accumulated * 16 + digit) rest = some value := by
  rw [parse_digits]
  cases hdigit : to_digit character with
  | none =>
    simp only [reduceCtorEq, false_iff, not_exists, not_and]
    intro digit hexDigit
    rw [to_digit_eq_some_iff.mpr hexDigit] at hdigit
    cases hdigit
  | some digit =>
    constructor
    · intro hparse
      simp only at hparse
      split at hparse
      · exact ⟨digit, to_digit_eq_some_iff.mp hdigit, ‹_›, hparse⟩
      · cases hparse
    · rintro ⟨other, hother, hsmall, hparse⟩
      rw [to_digit_eq_some_iff.mpr hother] at hdigit
      cases hdigit
      simpa only [if_pos hsmall] using hparse

/-- A byte is read from its spelling, with zeros before it or not. -/
theorem Padded.parse_digits_eq {digits : List Char} {byte : UInt8} (hpadded : Padded digits byte) :
    (parse_digits 0 digits).map UInt8.ofNat = some byte := by
  induction hpadded with
  | spelled hspells =>
    cases hspells with
    | @digit low value hlow =>
      have hvalue := hlow.value_lt
      have hparse : parse_digits 0 [low] = some value :=
        parse_digits_cons_eq_some_iff.mpr ⟨value, hlow, by omega, by simp [parse_digits]⟩
      rw [hparse, Option.map_some]
    | @digits high low upper lower hhigh hlow =>
      have hupper := hhigh.value_lt
      have hlower := hlow.value_lt
      have hparse : parse_digits 0 [high, low] = some (upper * 16 + lower) :=
        parse_digits_cons_eq_some_iff.mpr ⟨upper, hhigh, by omega,
          parse_digits_cons_eq_some_iff.mpr ⟨lower, hlow, by omega, by simp [parse_digits]⟩⟩
      rw [hparse, Option.map_some]
  | @zero digits byte _ ih =>
    have hparse : parse_digits 0 ('0' :: digits) = parse_digits 0 digits := rfl
    rw [hparse, ih]

/-- Digits that are read without overflow are a byte behind zeros: of three or
more the first one is a zero. -/
theorem padded_of_parse_digits {digits : List Char} {value : Nat}
    (hparse : parse_digits 0 digits = some value) (hnonempty : digits ≠ []) :
    Padded digits (UInt8.ofNat value) := by
  induction digits with
  | nil => exact absurd rfl hnonempty
  | cons first rest ih =>
    obtain ⟨upper, hfirst, -, hparse⟩ := parse_digits_cons_eq_some_iff.mp hparse
    rw [Nat.zero_mul, Nat.zero_add] at hparse
    cases rest with
    | nil =>
      cases hparse
      exact .spelled (.digit hfirst)
    | cons second rest =>
      obtain ⟨lower, hsecond, hfits, hrest⟩ := parse_digits_cons_eq_some_iff.mp hparse
      cases rest with
      | nil =>
        cases hrest
        exact .spelled (.digits hfirst hsecond)
      | cons third rest =>
        obtain ⟨_, _, hfits', _⟩ := parse_digits_cons_eq_some_iff.mp hrest
        obtain rfl : upper = 0 := by omega
        obtain rfl : first = '0' := by simpa [HexDigit, eq_comm] using hfirst
        exact .zero (ih hparse (List.cons_ne_nil _ _))

/-- Digits are a byte when only zeros stand before the last two. -/
theorem parse_digits_eq_some_iff {digits : List Char} {byte : UInt8} (hnonempty : digits ≠ []) :
    (parse_digits 0 digits).map UInt8.ofNat = some byte ↔ Padded digits byte := by
  constructor
  · intro hparse
    obtain ⟨value, hvalue, rfl⟩ := Option.map_eq_some_iff.mp hparse
    exact padded_of_parse_digits hvalue hnonempty
  · exact Padded.parse_digits_eq

/-- The sign is no digit. -/
theorem not_padded_signed {digits : List Char} {byte : UInt8} : ¬Padded ('+' :: digits) byte := by
  intro hpadded
  have hparse := hpadded.parse_digits_eq
  rw [show parse_digits 0 ('+' :: digits) = none from rfl] at hparse
  cases hparse

theorem Padded.nonempty {digits : List Char} {byte : UInt8} (hpadded : Padded digits byte) : digits ≠ [] := by
  cases hpadded with
  | spelled hspells => cases hspells <;> exact List.cons_ne_nil _ _
  | zero => exact List.cons_ne_nil _ _

/-- Of at most two digits all are significant. -/
theorem Padded.spells {digits : List Char} {byte : UInt8} (hpadded : Padded digits byte)
    (hshort : digits.length ≤ 2) : Spells digits (some byte) := by
  induction hpadded with
  | spelled hspells => exact hspells
  | @zero digits byte hpadded ih =>
    rw [List.length_cons] at hshort
    have hspells := ih (by omega)
    cases hspells with
    | @digit low value hlow =>
      have hzero : HexDigit '0' 0 := .inl rfl
      simpa using Spells.digits hzero hlow
    | digits =>
      simp only [List.length_cons, List.length_nil] at hshort
      omega

end Digits

section Parts

/-- A word is read as a byte when it is one, padded with zeros, after at most one plus. -/
theorem from_str_radix_eq_some_iff {word : List Char} {byte : UInt8} :
    from_str_radix word = some byte ↔ Padded word byte ∨ ∃ digits, word = '+' :: digits ∧ Padded digits byte := by
  fun_cases from_str_radix word with
  | case1 => simpa using fun hpadded : Padded [] byte => hpadded.nonempty rfl
  | case2 => simpa [not_padded_signed] using fun hpadded : Padded [] byte => hpadded.nonempty rfl
  | case3 digits hnonempty => simp [not_padded_signed, parse_digits_eq_some_iff hnonempty]
  | case4 _ hnonempty _ hunsigned =>
    rw [parse_digits_eq_some_iff hnonempty, or_iff_left]
    rintro ⟨digits, hsigned, _⟩
    exact hunsigned digits hsigned

/-- A part of a signature is read as the entry that it spells, or as a byte that it disguises. -/
theorem parse_part_eq_some_iff {word : List Char} {entry : Option UInt8} :
    parse_part word = some entry ↔ Spells word entry ∨ Disguises word entry := by
  have hnumber : ∀ byte, from_str_radix word = some byte → parse_part word = some (some byte) := by
    intro byte hbyte
    have hwild : ¬(word = "??".toList ∨ word = "?".toList) := by
      rintro (rfl | rfl) <;> cases hbyte
    rw [parse_part, if_neg hwild, hbyte, Option.map_some]
  constructor
  · intro hpart
    unfold parse_part at hpart
    split at hpart
    · rename_i hwild
      cases hpart
      obtain rfl | rfl := hwild
      · exact .inl .double_wildcard
      · exact .inl .wildcard
    · obtain ⟨byte, hbyte, rfl⟩ := Option.map_eq_some_iff.mp hpart
      obtain hpadded | ⟨digits, rfl, hpadded⟩ := from_str_radix_eq_some_iff.mp hbyte
      · by_cases hshort : word.length ≤ 2
        · exact .inl (hpadded.spells hshort)
        · exact .inr (.overlong hpadded (by omega))
      · exact .inr (.signed hpadded)
  · rintro (hspells | hdisguises)
    · cases entry with
      | none => cases hspells <;> rfl
      | some byte => exact hnumber byte (from_str_radix_eq_some_iff.mpr (.inl (.spelled hspells)))
    · cases hdisguises with
      | @signed digits byte hpadded =>
        exact hnumber byte (from_str_radix_eq_some_iff.mpr (.inr ⟨digits, rfl, hpadded⟩))
      | @overlong _ byte hpadded _ => exact hnumber byte (from_str_radix_eq_some_iff.mpr (.inl hpadded))

/-- A word that disguises a byte starts with a sign or is longer than every spelling. -/
theorem not_disguises {word : List Char} {entry : Option UInt8} (hunsigned : word.head? ≠ some '+')
    (hshort : word.length ≤ 2) : ¬Disguises word entry := by
  intro hdisguises
  cases hdisguises with
  | signed => exact hunsigned rfl
  | overlong _ hlong => omega

/-- A word of the grammar has no sign and two characters at most. -/
theorem Spells.unsigned_short {word : List Char} {entry : Option UInt8} (hspells : Spells word entry) :
    word.head? ≠ some '+' ∧ word.length ≤ 2 := by
  refine ⟨fun hsign => ?_, by cases hspells <;> simp⟩
  obtain ⟨digits, rfl⟩ := List.head?_eq_some_iff.mp hsign
  cases entry with
  | none => cases hspells
  | some byte => exact not_padded_signed (.spelled hspells)

theorem Disguises.not_spells {word : List Char} {entry other : Option UInt8}
    (hdisguises : Disguises word entry) : ¬Spells word other := by
  intro hspells
  obtain ⟨hunsigned, hshort⟩ := hspells.unsigned_short
  exact not_disguises hunsigned hshort hdisguises

end Parts

section Parse

theorem split_whitespace_eq_iff {text : List Char} {spelled : List (List Char)} :
    split_whitespace text = spelled ↔ Spaced is_whitespace spelled text := words_eq_iff

/-- The entries of a pattern are those of the words, in their order. -/
theorem Pattern.parse_eq_ok_iff {text : String} {pattern : Pattern} :
    Pattern.parse text = .ok pattern ↔
      List.Forall₂ (fun word entry => parse_part word = some entry) (split_whitespace text.toList)
        pattern.bytes := by
  rw [← mapM_eq_some_iff, Pattern.parse]
  split
  · simp [*]
  · rename_i bytes hbytes
    rw [hbytes, Option.some.injEq]
    split
    · rename_i hempty
      simp only [reduceCtorEq, false_iff]
      rintro rfl
      exact pattern.bytes_ne_nil hempty
    · constructor
      · rintro ⟨rfl⟩
        rfl
      · rintro rfl
        rfl

/-- The only error names the whole signature. -/
theorem Pattern.parse_eq_error {text : String} (hrefused : ∀ pattern, Pattern.parse text ≠ .ok pattern) :
    Pattern.parse text = .error (.InvalidPattern text) := by
  unfold Pattern.parse at hrefused ⊢
  split
  · rfl
  · split
    · rfl
    · rename_i bytes hbytes hnonempty
      exact absurd (by simp [hbytes, hnonempty]) (hrefused ⟨bytes, hnonempty⟩)

/-- A text is a pattern when it has words, each of which can be read. -/
theorem Pattern.exists_parse_iff {text : String} :
    (∃ pattern, Pattern.parse text = .ok pattern) ↔
      split_whitespace text.toList ≠ [] ∧
        ∀ word ∈ split_whitespace text.toList, ∃ entry, parse_part word = some entry := by
  simp only [Pattern.parse_eq_ok_iff]
  rw [← exists_forall₂_iff]
  constructor
  · rintro ⟨pattern, hparts⟩
    refine ⟨fun hempty => pattern.bytes_ne_nil ?_, _, hparts⟩
    rw [hempty] at hparts
    exact List.forall₂_nil_left_iff.mp hparts
  · rintro ⟨hnonempty, bytes, hparts⟩
    refine ⟨⟨bytes, fun hempty => hnonempty ?_⟩, hparts⟩
    rw [hempty] at hparts
    exact List.forall₂_nil_right_iff.mp hparts

/-- A pattern is read back from everything that spells it. -/
theorem Pattern.SpelledBy.parse_eq {pattern : Pattern} {text : String} (hspelled : pattern.SpelledBy text) :
    Pattern.parse text = .ok pattern := by
  obtain ⟨spelled, hspaced, hspells⟩ := hspelled
  rw [Pattern.parse_eq_ok_iff, split_whitespace_eq_iff.mpr hspaced]
  exact hspells.imp fun word entry hword => parse_part_eq_some_iff.mpr (.inl hword)

end Parse

section Grammar

/-- Every word of the text belongs to the grammar, and there is one. -/
def InGrammar (text : String) : Prop :=
  split_whitespace text.toList ≠ [] ∧ ∀ word ∈ split_whitespace text.toList, ∃ entry, Spells word entry

/-- On this text the code reads the signature grammar and nothing else. -/
structure ReadsGrammar (text : String) : Prop where
  accepts : (∃ pattern, Pattern.parse text = .ok pattern) ↔ InGrammar text
  denotes : ∀ pattern, Pattern.parse text = .ok pattern →
    List.Forall₂ Spells (split_whitespace text.toList) pattern.bytes
  reads_back : ∀ pattern : Pattern, pattern.SpelledBy text → Pattern.parse text = .ok pattern
  rejects : ¬InGrammar text → Pattern.parse text = .error (.InvalidPattern text)

/-- A text outside of the grammar that is refused is read as it should be. -/
theorem ReadsGrammar.of_refused {text : String} (hgrammar : ¬InGrammar text)
    (hrefused : ∀ pattern, Pattern.parse text ≠ .ok pattern) : ReadsGrammar text where
  accepts := iff_of_false (fun ⟨pattern, hparse⟩ => hrefused pattern hparse) hgrammar
  denotes pattern hparse := absurd hparse (hrefused pattern)
  reads_back _ hspelled := hspelled.parse_eq
  rejects _ := Pattern.parse_eq_error hrefused

/-- Without disguised words the parts are read by the grammar alone. -/
theorem ReadsGrammar.of_plain {text : String}
    (hplain : ∀ word ∈ split_whitespace text.toList, ∀ entry, ¬Disguises word entry) : ReadsGrammar text := by
  have hpart : ∀ word ∈ split_whitespace text.toList, ∀ entry,
      parse_part word = some entry ↔ Spells word entry := by
    intro word hword entry
    rw [parse_part_eq_some_iff, or_iff_left (hplain word hword entry)]
  have haccepts : (∃ pattern, Pattern.parse text = .ok pattern) ↔ InGrammar text := by
    rw [Pattern.exists_parse_iff, InGrammar]
    refine and_congr_right' (forall₂_congr fun word hword => ?_)
    exact exists_congr (hpart word hword)
  refine ⟨haccepts, fun pattern hparse => ?_, fun _ hspelled => hspelled.parse_eq, fun hgrammar => ?_⟩
  · have hparts := Pattern.parse_eq_ok_iff.mp hparse
    rw [List.forall₂_iff_get] at hparts ⊢
    exact ⟨hparts.1, fun index hword hentry =>
      (hpart _ (List.get_mem _ _) _).mp (hparts.2 index hword hentry)⟩
  · exact Pattern.parse_eq_error fun pattern hparse => hgrammar (haccepts.mp ⟨pattern, hparse⟩)

/-- A signature without signs and long words spells the pattern that is read from it. -/
theorem Pattern.spelledBy_of_parse {text : String} {pattern : Pattern}
    (hparse : Pattern.parse text = .ok pattern)
    (hshort : ∀ word ∈ split_whitespace text.toList, word.head? ≠ some '+' ∧ word.length ≤ 2) :
    pattern.SpelledBy text := by
  have hplain : ∀ word ∈ split_whitespace text.toList, ∀ entry, ¬Disguises word entry := by
    intro word hword entry
    obtain ⟨hunsigned, hlength⟩ := hshort word hword
    exact not_disguises hunsigned hlength
  exact ⟨_, split_whitespace_eq_iff.mp rfl, (ReadsGrammar.of_plain hplain).denotes pattern hparse⟩

/-- The number parser lets signs and overlong numbers pass: the code reads the
grammar on a text exactly when no word of it disguises a byte, or the text is
refused for another word. -/
theorem Pattern.reads_grammar_iff (text : String) :
    ReadsGrammar text ↔
      (∀ word ∈ split_whitespace text.toList, ∀ entry, ¬Disguises word entry) ∨
        ∃ word ∈ split_whitespace text.toList, ∀ entry, ¬Spells word entry ∧ ¬Disguises word entry := by
  constructor
  · intro hreads
    by_contra hneither
    simp only [not_or, not_forall, not_not, not_exists, not_and] at hneither
    obtain ⟨⟨word, hword, entry, hdisguises⟩, hothers⟩ := hneither
    have hparts : ∀ word ∈ split_whitespace text.toList, ∃ entry, parse_part word = some entry := by
      intro other hother
      obtain ⟨entry, hentry⟩ := hothers other hother
      exact ⟨entry, parse_part_eq_some_iff.mpr (or_iff_not_imp_left.mpr hentry)⟩
    have hparse := Pattern.exists_parse_iff.mpr ⟨List.ne_nil_of_mem hword, hparts⟩
    obtain ⟨_, hspelled⟩ := hreads.accepts.mp hparse
    obtain ⟨other, hspells⟩ := hspelled word hword
    exact hdisguises.not_spells hspells
  · rintro (hplain | ⟨word, hword, houtside⟩)
    · exact .of_plain hplain
    · refine .of_refused ?_ fun pattern hparse => ?_
      · rintro ⟨_, hspelled⟩
        obtain ⟨entry, hspells⟩ := hspelled word hword
        exact (houtside entry).1 hspells
      · obtain ⟨_, hparts⟩ := Pattern.exists_parse_iff.mp ⟨pattern, hparse⟩
        obtain ⟨entry, hpart⟩ := hparts word hword
        obtain hspells | hdisguises := parse_part_eq_some_iff.mp hpart
        · exact (houtside entry).1 hspells
        · exact (houtside entry).2 hdisguises

/-- Without the space between two bytes `0005` is one of them, and the signature
is an entry short. -/
theorem joined_bytes_misread :
    Pattern.parse "AA 0005 AA" = .ok ⟨[some 0xAA, some 0x05, some 0xAA], List.cons_ne_nil _ _⟩ ∧
      ¬ReadsGrammar "AA 0005 AA" := by
  have hparse : Pattern.parse "AA 0005 AA" =
      .ok ⟨[some 0xAA, some 0x05, some 0xAA], List.cons_ne_nil _ _⟩ := by decide
  refine ⟨hparse, fun hreads => ?_⟩
  have hwords : split_whitespace "AA 0005 AA".toList = ["AA".toList, "0005".toList, "AA".toList] := by decide
  obtain ⟨_, hspelled⟩ := hreads.accepts.mp ⟨_, hparse⟩
  rw [hwords] at hspelled
  obtain ⟨entry, hspells⟩ := hspelled "0005".toList (by simp)
  cases hspells

end Grammar

end systemdetection.patches.sigscan
