import Braid.Library.Overload
import Braid.Message.SendBuffer

/-! Which overload of `SendBuffer::write` a call selects, by the types of its arguments. -/

namespace Braid.SendBuffer

/-- The types of the arguments that calls of `write` are made with here. -/
inductive ArgType where
  | charPointer (const : Bool)
  | int
  | sizeT
  | string
  deriving DecidableEq, Repr

/-- An implicit conversion of an argument to a parameter, by how good it is. -/
inductive Conversion where
  -- Also the binding of a reference to the argument itself.
  | identity
  -- `char*` to `const char*`.
  | qualification
  -- `size_t` to `int`.
  | integral
  -- A `std::string` made of a pointer to characters.
  | userDefined
  deriving DecidableEq, Repr

/-- The place of a conversion in the order from the best to the worst. -/
def Conversion.rank : Conversion → Nat
  | .identity => 0
  | .qualification => 1
  | .integral => 2
  | .userDefined => 3

instance : LT Conversion := ⟨fun first second => first.rank < second.rank⟩

instance : DecidableLT Conversion := fun first second =>
  inferInstanceAs (Decidable (first.rank < second.rank))

/-- The three functions named `write`. -/
inductive WriteFunction where
  | args
  | string
  | chars
  deriving DecidableEq, Repr

/-- The conversion of an argument to `const std::string&`. -/
def ArgType.toString? : ArgType → Option Conversion
  | .charPointer _ => some .userDefined
  | .string => some .identity
  | _ => none

/-- The conversion of an argument to `const char*`. -/
def ArgType.toConstCharPointer? : ArgType → Option Conversion
  | .charPointer true => some .identity
  | .charPointer false => some .qualification
  | _ => none

/-- The conversion of an argument to `int`. -/
def ArgType.toInt? : ArgType → Option Conversion
  | .int => some .identity
  | .sizeT => some .integral
  | _ => none

/-- `write(const Args&...)`, an instance of which takes every argument as it is. -/
def writeArgsOverload (types : List ArgType) : Overload WriteFunction Conversion :=
  ⟨.args, types.map fun _ => .identity, true⟩

/-- `write(const std::string&)`, for a single argument that converts. -/
def writeStringOverload : List ArgType → Option (Overload WriteFunction Conversion)
  | [str] => str.toString?.map fun conversion => ⟨.string, [conversion], false⟩
  | _ => none

/-- `write(const char*, int)`, for two arguments that convert. -/
def writeCharsOverload : List ArgType → Option (Overload WriteFunction Conversion)
  | [str, size] => str.toConstCharPointer?.bind fun pointer =>
    size.toInt?.map fun length => ⟨.chars, [pointer, length], false⟩
  | _ => none

/-- The functions that a call with arguments of these types can be made to. -/
def viable (types : List ArgType) : List (Overload WriteFunction Conversion) :=
  writeArgsOverload types ::
    ((writeStringOverload types).toList ++ (writeCharsOverload types).toList)

/-- The function that a call with arguments of these types selects. -/
def selected (types : List ArgType) : Option WriteFunction :=
  (Overload.select (viable types)).map Overload.function

/-- A pointer to characters: its type, the address that it is, and what it points at. -/
structure CharPointer where
  const : Bool
  address : BitVec 64
  pointee : List Byte

/-- A length of one of the two integer types. -/
structure CharCount where
  isSizeT : Bool
  value : Nat

/-- The type of a length. -/
def CharCount.type (count : CharCount) : ArgType := if count.isSizeT then .sizeT else .int

/-- The bytes that represent a number, the least significant first. -/
def objectBytes (size value : Nat) : List Byte :=
  (List.range size).map fun i => UInt8.ofNat (value / 256 ^ i)

/-- The bytes that a pointer is represented by. -/
def CharPointer.bytes (pointer : CharPointer) : List Byte := objectBytes 8 pointer.address.toNat

/-- The bytes that a length is represented by. -/
def CharCount.bytes (count : CharCount) : List Byte :=
  objectBytes (if count.isSizeT then 8 else 4) count.value

/-- The types of the two arguments of `write(p, n)`. -/
def rangeTypes (pointer : CharPointer) (count : CharCount) : List ArgType :=
  [.charPointer pointer.const, count.type]

/-- `write(p, n)`, by the function that it selects, if there is one. -/
def writeRange (send : SendBuffer) (pointer : CharPointer) (count : CharCount) :
    Option (Except WriteFault SendBuffer) :=
  (selected (rangeTypes pointer count)).bind fun
    | .args => some (send.writeArgs [pointer.bytes, count.bytes])
    | .string => none
    -- The parameter is an `int`.
    | .chars => some (send.writeChars pointer.pointee (BitVec.ofNat 32 count.value).toInt)

/-- The call selects the function that appends the first characters behind the content. -/
def AppendsCharacters (send : SendBuffer) (content : List Byte) (pointer : CharPointer)
    (count : CharCount) : Prop :=
  selected (rangeTypes pointer count) = some .chars ∧
    ∃ after, send.writeRange pointer count = some (.ok after) ∧
      after.Holds (content ++ pointer.pointee.take count.value)

/-- The function for characters is better than the template where it needs no conversion. -/
theorem chars_better_iff (pointer length : Conversion) :
    (⟨.chars, [pointer, length], false⟩ : Overload WriteFunction Conversion).Better
        ⟨.args, [.identity, .identity], true⟩ ↔
      pointer = .identity ∧ length = .identity := by
  cases pointer <;> cases length <;> decide

/-- The function for characters is selected exactly where it needs no conversion. -/
theorem selected_chars_iff {str size : ArgType} {pointer length : Conversion}
    (strConverts : str.toConstCharPointer? = some pointer)
    (sizeConverts : size.toInt? = some length) :
    selected [str, size] = some .chars ↔ pointer = .identity ∧ length = .identity := by
  -- Two functions take a pointer and a length, and the one for a string takes one argument.
  have both : viable [str, size] =
      [⟨.args, [.identity, .identity], true⟩, ⟨.chars, [pointer, length], false⟩] := by
    simp [viable, writeArgsOverload, writeStringOverload, writeCharsOverload, strConverts,
      sizeConverts]
  rw [← chars_better_iff, selected, both]
  constructor
  · -- The one that is selected is no worse than the other, and not a template.
    intro chosen
    obtain ⟨best, found, named⟩ := Option.map_eq_some_iff.mp chosen
    obtain ⟨member, better⟩ := Overload.select_eq_some_iff.mp found
    rcases List.mem_pair.mp member with rfl | rfl
    · cases named
    · exact (better _ List.mem_cons_self).resolve_left (by simp)
  · intro better
    refine Option.map_eq_some_iff.mpr
      ⟨⟨.chars, [pointer, length], false⟩, Overload.select_eq_some_iff.mpr ⟨?_, ?_⟩, rfl⟩
    · exact List.mem_cons_of_mem _ List.mem_cons_self
    · intro other member
      rcases List.mem_pair.mp member with rfl | rfl
      · exact .inr better
      · exact .inl rfl

/-- A pointer and a length select the function for characters by their own types. -/
theorem selected_range_iff (pointer : CharPointer) (count : CharCount) :
    selected (rangeTypes pointer count) = some .chars ↔
      pointer.const = true ∧ count.isSizeT = false := by
  -- Only a pointer to const needs no conversion.
  have converts : (ArgType.charPointer pointer.const).toConstCharPointer? =
      some (if pointer.const then .identity else .qualification) := by
    cases pointer.const <;> rfl
  -- Only an `int` needs no conversion.
  have converted : count.type.toInt? =
      some (if count.isSizeT then Conversion.integral else .identity) := by
    rw [CharCount.type]
    cases count.isSizeT <;> rfl
  rw [rangeTypes, selected_chars_iff converts converted]
  cases pointer.const <;> cases count.isSizeT <;> simp

/--
A character range is appended as characters exactly if it is given by a `const char*` and an `int`.

For every other pair of types the template needs no conversion where the function for characters
needs one, so that it is selected and appends the bytes of the pointer and of the length.
-/
theorem appendsCharacters_iff {send : SendBuffer} {content : List Byte}
    (holds : send.Holds content) (pointer : CharPointer) (count : CharCount)
    (readable : count.value ≤ pointer.pointee.length)
    (fits : content.length + count.value ≤ maxMessageSize) :
    send.AppendsCharacters content pointer count ↔
      pointer.const = true ∧ count.isSizeT = false := by
  rw [← selected_range_iff]
  refine ⟨And.left, fun chars => ⟨chars, ?_⟩⟩
  have small : count.value ≤ intMax := by
    simp only [maxMessageSize, intMax] at fits ⊢
    omega
  -- The parameter is the length itself.
  have isInt : (BitVec.ofNat 32 count.value).toInt = count.value := by
    simp only [intMax] at small
    rw [BitVec.toInt_ofNat', Int.bmod_def]
    omega
  have length : (pointer.pointee.take count.value).length = count.value :=
    List.length_take_of_le readable
  have measured : (Write.chars pointer.pointee count.value readable small).Measured content := by
    refine ⟨?_, .inl (by simp [Write.tested, Write.bytes, length])⟩
    simp only [Write.tested, maxMessageSize, intMax] at fits ⊢
    omega
  obtain ⟨after, written, kept, -⟩ := holds.writeChars measured
  refine ⟨after, ?_, ?_⟩
  · rw [writeRange, chars]
    simp only [Option.bind_some, isInt, written]
  · have whole : (Write.chars pointer.pointee count.value readable small).Fits content := by
      simp only [Write.Fits, Write.bytes, length]
      exact fits
    simpa only [expect, if_pos whole, Write.bytes] using kept

/-- A fresh buffer, over memory that is all zeros. -/
def blank : SendBuffer := new (Vector.replicate maxMessageSize 0)

/-- A fresh buffer holds nothing. -/
theorem blank_holds : blank.Holds [] := ⟨rfl, List.nil_prefix⟩

/--
A `const char*` to three characters and the `int` two append the first two of them.

A string literal is a `const char[N]`, and taken here as the pointer that it decays to.
-/
theorem appendsCharacters_iff_literal :
    blank.AppendsCharacters [] ⟨true, 0x1000, [104, 105, 33]⟩ ⟨false, 2⟩ :=
  (appendsCharacters_iff blank_holds ⟨true, 0x1000, [104, 105, 33]⟩ ⟨false, 2⟩ (by decide)
    (by decide)).mpr (by decide)

/-- `write(payload.data(), 2)` on a string that is not const appends an address and the two. -/
theorem append_characters_fails :
    ∃ (pointer : CharPointer) (count : CharCount),
      pointer.const = false ∧ pointer.pointee = [104, 105] ∧ count.value = 2 ∧
      (∃ after, blank.writeRange pointer count = some (.ok after) ∧
        after.getBuffer = [0, 16, 0, 0, 0, 0, 0, 0, 2, 0, 0, 0]) ∧
      ¬ blank.AppendsCharacters [] pointer count := by
  refine ⟨⟨false, 0x1000, [104, 105]⟩, ⟨false, 2⟩, rfl, rfl, rfl, ?_, ?_⟩
  · -- The address is appended as eight bytes, and the length as four.
    have written : (blank.writeRange ⟨false, 0x1000, [104, 105]⟩ ⟨false, 2⟩).any fun result =>
        result.toOption.any fun after =>
          after.getBuffer = [0, 16, 0, 0, 0, 0, 0, 0, 2, 0, 0, 0] := by decide +kernel
    obtain ⟨result, called, returned⟩ := (Option.any_eq_true _ _).mp written
    obtain ⟨after, value, same⟩ := (Option.any_eq_true _ _).mp returned
    refine ⟨after, ?_, of_decide_eq_true same⟩
    cases result with
    | error fault => cases value
    | ok other => cases value; exact called
  · rintro ⟨chars, -⟩
    exact absurd chars (by decide)

end Braid.SendBuffer
