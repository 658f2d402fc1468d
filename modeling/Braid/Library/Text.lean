import Mathlib.Data.Nat.Digits.Defs

/-! Texts of one byte for each character: numbers in decimal, and how they are read back. -/

namespace Text

/-- The characters of a string, each of which is one byte. -/
def ofString (string : String) : List UInt8 :=
  string.toList.map fun character => UInt8.ofNat character.toNat

/-- The character is a decimal digit. -/
def isDigit (character : UInt8) : Bool := 48 ≤ character && character ≤ 57

/-- The character is white space, as `isspace` has it. -/
def isSpace (character : UInt8) : Bool := character = 32 || 9 ≤ character && character ≤ 13

/-- A natural number in decimal, the most significant digit first. -/
def ofNat (number : Nat) : List UInt8 :=
  if number = 0 then [48]
  else (Nat.digits 10 number).reverse.map fun digit => UInt8.ofNat (48 + digit)

/-- An integer in decimal, with a sign if it is negative. -/
def ofInt (number : Int) : List UInt8 :=
  if number < 0 then 45 :: ofNat number.natAbs else ofNat number.natAbs

/-- The number that some digits write. -/
def value (digits : List UInt8) : Nat :=
  -- Each digit is ten times what stands in front of it, and its distance from '0'.
  digits.foldl (fun number digit => 10 * number + (digit.toNat - 48)) 0

/-- The longest beginning that consists of digits, as a number, if there is a digit. -/
def readNat? (text : List UInt8) : Option Nat :=
  if text.takeWhile isDigit = [] then none else some (value (text.takeWhile isDigit))

/-- The integer at the front of a text, behind white space and a sign. -/
def readInt? (text : List UInt8) : Option Int :=
  match text.dropWhile isSpace with
  -- A minus sign, a plus sign, or none.
  | 45 :: rest => (readNat? rest).map fun number : Nat => -(number : Int)
  | 43 :: rest => (readNat? rest).map fun number : Nat => (number : Int)
  | rest => (readNat? rest).map fun number : Nat => (number : Int)

/-- A digit is written as a character of its own, which reads back as the digit. -/
theorem digit_character {digit : Nat} (small : digit < 10) :
    isDigit (UInt8.ofNat (48 + digit)) ∧ (UInt8.ofNat (48 + digit)).toNat - 48 = digit := by
  -- There are ten of them.
  rcases digit with _ | _ | _ | _ | _ | _ | _ | _ | _ | _ | digit
  all_goals first | exact ⟨rfl, rfl⟩ | omega

/-- What is written consists of digits. -/
theorem isDigit_of_mem_ofNat {number : Nat} {character : UInt8}
    (member : character ∈ ofNat number) : isDigit character := by
  unfold ofNat at member
  split at member
  · rw [List.mem_singleton.mp member]
    rfl
  · obtain ⟨digit, listed, rfl⟩ := List.mem_map.mp member
    exact (digit_character (Nat.digits_lt_base (by decide) (List.mem_reverse.mp listed))).1

/-- At least one digit is written. -/
theorem ofNat_ne_nil (number : Nat) : ofNat number ≠ [] := by
  unfold ofNat
  split
  · simp
  · rename_i positive
    simpa [Nat.digits_eq_nil_iff_eq_zero] using positive

/-- The digits of a number write that number. -/
theorem value_ofNat (number : Nat) : value (ofNat number) = number := by
  -- The characters are folded from the most significant one on, as the digits are.
  have general (digits : List Nat) (small : ∀ digit ∈ digits, digit < 10) :
      value (digits.reverse.map fun digit => UInt8.ofNat (48 + digit)) = Nat.ofDigits 10 digits := by
    induction digits with
    | nil => rfl
    | cons digit rest ih =>
      have read := (digit_character (small digit List.mem_cons_self)).2
      have behind := ih fun other member => small other (List.mem_cons_of_mem _ member)
      simp only [value, List.reverse_cons, List.map_append, List.map_cons, List.map_nil,
        List.foldl_append, List.foldl_cons, List.foldl_nil, Nat.ofDigits_cons] at behind ⊢
      rw [behind, read]
      exact Nat.add_comm _ _
  unfold ofNat
  split
  · rename_i zero
    rw [zero]
    rfl
  · rw [general _ fun _ member => Nat.digits_lt_base (by decide) member, Nat.ofDigits_digits]

/-- A number reads back from the front of a text in which no further digit follows it. -/
theorem readNat?_ofNat (number : Nat) {rest : List UInt8}
    (ends : ∀ character ∈ rest.head?, isDigit character = false) :
    readNat? (ofNat number ++ rest) = some number := by
  have front : (ofNat number ++ rest).takeWhile isDigit = ofNat number := by
    rw [List.takeWhile_append_of_pos fun _ member => isDigit_of_mem_ofNat member]
    -- What follows begins with something else, so nothing more is taken.
    cases rest with
    | nil => simp
    | cons first rest => simp [ends first rfl]
  rw [readNat?, front, if_neg (ofNat_ne_nil number), value_ofNat]

/-- A digit is neither white space nor a sign. -/
theorem plain_of_isDigit {character : UInt8} (digit : isDigit character) :
    isSpace character = false ∧ character ≠ 45 ∧ character ≠ 43 := by
  -- The digits lie above the space and above both signs.
  simp only [isDigit, Bool.and_eq_true, decide_eq_true_eq, UInt8.le_iff_toNat_le] at digit
  simp only [isSpace, Bool.or_eq_false_iff, Bool.and_eq_false_iff, decide_eq_false_iff_not,
    UInt8.le_iff_toNat_le, ne_eq, ← UInt8.toNat_inj]
  simp only [UInt8.reduceToNat] at digit ⊢
  omega

/-- A text that begins with a digit is read without a sign. -/
theorem readInt?_digit {first : UInt8} {rest : List UInt8} (digit : isDigit first) :
    readInt? (first :: rest) =
      (readNat? (first :: rest)).map fun number : Nat => (number : Int) := by
  obtain ⟨space, minus, plus⟩ := plain_of_isDigit digit
  have front : (first :: rest).dropWhile isSpace = first :: rest := by simp [space]
  rw [readInt?, front]
  -- Neither of the signs is a digit, so that the last case is the one.
  split
  · rename_i same
    exact absurd (List.cons.inj same).1 minus
  · rename_i same
    exact absurd (List.cons.inj same).1 plus
  · rfl

/-- An integer reads back from the front of a text in which no further digit follows it. -/
theorem readInt?_ofInt (number : Int) {rest : List UInt8}
    (ends : ∀ character ∈ rest.head?, isDigit character = false) :
    readInt? (ofInt number ++ rest) = some number := by
  have read := readNat?_ofNat number.natAbs ends
  unfold ofInt
  split
  · -- The sign stands in front of the digits.
    have front : (45 :: ofNat number.natAbs ++ rest).dropWhile isSpace =
        45 :: (ofNat number.natAbs ++ rest) := rfl
    rw [readInt?, front]
    simp only [read, Option.map_some]
    rw [show -(number.natAbs : Int) = number by omega]
  · -- The first character is a digit.
    obtain ⟨first, digits, written⟩ := List.exists_cons_of_ne_nil (ofNat_ne_nil number.natAbs)
    have digit : isDigit first := isDigit_of_mem_ofNat (by rw [written]; exact List.mem_cons_self)
    rw [written, List.cons_append] at read ⊢
    rw [readInt?_digit digit, read, Option.map_some]
    rw [show (number.natAbs : Int) = number by omega]

end Text
