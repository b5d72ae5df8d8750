import Mathlib

/-! The base64 encoding of RFC 4648: the octets as one stream of bits, cut into
groups of six. -/
namespace Framing.Base64

section Bits

/-- The lowest bits of a number, the most significant one first. Bits of the number
above the width are left out. -/
def bits : Nat → Nat → List Bool
  | 0, _ => []
  | width + 1, n => n.testBit width :: bits width n

/-- The number that bits stand for, with the first one as the most significant. It
is the inverse of `bits` at each width. -/
def value (digits : List Bool) : Nat := digits.foldl (fun value digit => 2 * value + digit.toNat) 0

variable {digits : List Bool} {digit : Bool} {width n : Nat}

theorem value_concat : value (digits ++ [digit]) = 2 * value digits + digit.toNat := by
  simp [value]

/-- The bits of a number end with its last one, behind those of its half. This is
the recursion from the right, which the inductions on `value` need. -/
theorem bits_succ : bits (width + 1) n = bits width (n / 2) ++ [n.testBit 0] := by
  induction width with
  | zero => rfl
  | succ width ih =>
      rw [bits, ih, bits, Nat.testBit_div_two]
      rfl

@[simp] theorem length_bits : (bits width n).length = width := by
  induction width with
  | zero => rfl
  | succ width ih => rw [bits, List.length_cons, ih]

theorem value_bits (h : n < 2 ^ width) : value (bits width n) = n := by
  induction width generalizing n with
  | zero =>
      have hZero : n = 0 := by simpa using h
      rw [hZero]
      rfl
  | succ width ih =>
      have hHalf : n / 2 < 2 ^ width := by
        rw [Nat.pow_succ] at h
        omega
      rw [bits_succ, value_concat, ih hHalf, Nat.toNat_testBit]
      omega

/-- Putting bits behind others shifts those in front by their number. Together with
`value_bits` it computes the value of any cut. -/
theorem value_append {front back : List Bool} :
    value (front ++ back) = value front * 2 ^ back.length + value back := by
  induction back using List.reverseRecOn with
  | nil => simp [value]
  | append_singleton back digit ih =>
      rw [← List.append_assoc, value_concat, ih, value_concat, List.length_append,
        List.length_singleton, Nat.pow_succ]
      ring

/-- A number is cut in two by a shift: the upper bits are those of the shifted
number, and the lower ones its own. -/
theorem bits_add {high low : Nat} : bits (high + low) n = bits high (n >>> low) ++ bits low n := by
  induction high with
  | zero => simp [bits]
  | succ high ih =>
      have hBit : (n >>> low).testBit high = n.testBit (high + low) := by
        rw [Nat.testBit_shiftRight, Nat.add_comm]
      rw [Nat.add_right_comm, bits, ih, bits, hBit, List.cons_append]

/-- Taking a remainder by a power of two leaves the bits below it as they are. -/
theorem bits_mod : bits width (n % 2 ^ width) = bits width n := by
  have hBits : ∀ less, less ≤ width → bits less (n % 2 ^ width) = bits less n := by
    intro less hLess
    induction less with
    | zero => rfl
    | succ less ih =>
        have hBit : (n % 2 ^ width).testBit less = n.testBit less := by
          simp [Nat.testBit_mod_two_pow, show less < width by omega]
        rw [bits, bits, hBit, ih (by omega)]
  exact hBits width le_rfl

/-- The bits of two numbers, one behind the other, in the operations of a program
that packs them: mask, shift and or. -/
theorem value_bits_append {high low a b : Nat} : value (bits high a ++ bits low b) =
    ((a &&& (2 ^ high - 1)) <<< low) ||| (b &&& (2 ^ low - 1)) := by
  have hHigh : value (bits high a) = a % 2 ^ high := by
    rw [← bits_mod, value_bits (Nat.mod_lt a (Nat.two_pow_pos high))]
  have hLow : value (bits low b) = b % 2 ^ low := by
    rw [← bits_mod, value_bits (Nat.mod_lt b (Nat.two_pow_pos low))]
  rw [value_append, hHigh, hLow, length_bits, Nat.and_two_pow_sub_one_eq_mod,
    Nat.and_two_pow_sub_one_eq_mod, ← Nat.shiftLeft_add_eq_or_of_lt
      (Nat.mod_lt b (Nat.two_pow_pos low)), Nat.shiftLeft_eq]

theorem bits_value : bits digits.length (value digits) = digits := by
  induction digits using List.reverseRecOn with
  | nil => rfl
  | append_singleton digits digit ih =>
      have hHalf : (2 * value digits + digit.toNat) / 2 = value digits := by
        cases digit <;> grind
      have hLast : (2 * value digits + digit.toNat).testBit 0 = digit := by
        cases digit <;> simp [Nat.testBit_zero]
      rw [List.length_append, List.length_singleton, bits_succ, value_concat, hHalf, hLast, ih]

/-- The number of bits bounds the value, as it does for the words of a program. -/
theorem value_lt : value digits < 2 ^ digits.length := by
  induction digits using List.reverseRecOn with
  | nil => simp [value]
  | append_singleton digits digit ih =>
      have hDigit : digit.toNat < 2 := Bool.toNat_lt digit
      rw [value_concat, List.length_append, List.length_singleton, Nat.pow_succ]
      omega

end Bits

section Letters

/-- The alphabet of the RFC: the position of a letter is the value of its six bits,
and the last two letters are those that differ in the variant for URLs. -/
def alphabet : List UInt8 :=
  "ABCDEFGHIJKLMNOPQRSTUVWXYZabcdefghijklmnopqrstuvwxyz0123456789+/".toList.map
    (fun letter => letter.toNat.toUInt8)

def pad : UInt8 := 61

/-- The letter of a value. Beyond the table there is none, and groups of six bits do
not get there. -/
def letter (n : Nat) : UInt8 := alphabet.getD n 0

/-- The value of a letter, if the alphabet has it. The padding is not one of them. -/
def sextet (letter : UInt8) : Option Nat := alphabet.idxOf? letter

theorem sextet_letter {n : Nat} (h : n < 64) : sextet (letter n) = some n := by
  have hAll : ∀ n : Fin 64, sextet (letter n.val) = some n.val := by decide +kernel
  exact hAll ⟨n, h⟩

theorem letter_ne_pad {n : Nat} (h : n < 64) : letter n ≠ pad := by
  have hAll : ∀ n : Fin 64, letter n.val ≠ pad := by decide +kernel
  exact hAll ⟨n, h⟩

end Letters

section Encoding

/-- Zeros are added on the right to form whole groups of six. There are none, two or
four of them when the stream is made of octets. -/
def filled (stream : List Bool) : List Bool :=
  stream ++ List.replicate ((6 - stream.length % 6) % 6) false

/-- Groups of six bits from the left. A group that is not whole is dropped, which is
why a stream is filled first. -/
def groups : List Bool → List (List Bool)
  | b₀ :: b₁ :: b₂ :: b₃ :: b₄ :: b₅ :: rest => [b₀, b₁, b₂, b₃, b₄, b₅] :: groups rest
  | _ => []

/-- The octets as one stream of bits, each from its most significant bit on. -/
def stream (octets : List UInt8) : List Bool := octets.flatMap (fun octet => bits 8 octet.toNat)

def letters (stream : List Bool) : List UInt8 :=
  (groups (filled stream)).map (fun group => letter (value group))

/-- The letters with padding up to a multiple of four. This is the encoding of the
RFC, stated on bits and without the cases by which a program goes through it. -/
def encode (octets : List UInt8) : List UInt8 :=
  let text := letters (stream octets)
  text ++ List.replicate ((4 - text.length % 4) % 4) pad

/-- Groups of eight bits. What is left over is zero, or the text does not come from
octets at all and is not decoded. -/
def octets : List Bool → Option (List UInt8)
  | b₀ :: b₁ :: b₂ :: b₃ :: b₄ :: b₅ :: b₆ :: b₇ :: rest =>
      (octets rest).map ((value [b₀, b₁, b₂, b₃, b₄, b₅, b₆, b₇]).toUInt8 :: ·)
  | last => if true ∈ last then none else some []

/-- Padding may only stand at the end, and is shorter than three. The text in front
consists of letters, and its length with the padding is a multiple of four. -/
def decode (text : List UInt8) : Option (List UInt8) :=
  let body := text.takeWhile (· ≠ pad)
  let padding := text.dropWhile (· ≠ pad)
  if text.length % 4 = 0 ∧ padding.length ≤ 2 ∧ ∀ byte ∈ padding, byte = pad then
    (body.mapM sextet).bind (fun values => octets (values.flatMap (bits 6)))
  else none

section Groups

variable {digits group : List Bool}

theorem length_filled : 6 ∣ (filled digits).length := by
  rw [filled, List.length_append, List.length_replicate]
  omega

theorem length_of_mem_groups (h : group ∈ groups digits) : group.length = 6 := by
  fun_induction groups digits with
  | case1 b₀ b₁ b₂ b₃ b₄ b₅ rest ih =>
      rcases List.mem_cons.1 h with rfl | hRest
      · rfl
      · exact ih hRest
  | case2 => cases h

/-- Every group has a letter: six bits stand for less than 64. -/
theorem value_lt_of_mem_groups (h : group ∈ groups digits) : value group < 64 := by
  have hValue := @value_lt group
  rwa [length_of_mem_groups h] at hValue

theorem length_lt_six (h : ∀ (b₀ b₁ b₂ b₃ b₄ b₅ : Bool) (rest : List Bool),
    digits = b₀ :: b₁ :: b₂ :: b₃ :: b₄ :: b₅ :: rest → False) : digits.length < 6 := by
  rcases digits with _ | ⟨b₀, _ | ⟨b₁, _ | ⟨b₂, _ | ⟨b₃, _ | ⟨b₄, _ | ⟨b₅, rest⟩⟩⟩⟩⟩⟩
  case cons.cons.cons.cons.cons.cons => exact absurd rfl (h b₀ b₁ b₂ b₃ b₄ b₅ rest)
  all_goals simp

/-- Nothing is left out where the groups are whole, so the stream is got back by
putting the groups together. -/
theorem flatten_groups (h : 6 ∣ digits.length) : (groups digits).flatten = digits := by
  fun_induction groups digits with
  | case1 b₀ b₁ b₂ b₃ b₄ b₅ rest ih =>
      simp only [List.length_cons] at h
      rw [List.flatten_cons, ih (by omega)]
      rfl
  | case2 last hLast =>
      have hShort : last.length < 6 := length_lt_six hLast
      exact (List.eq_nil_of_length_eq_zero (by omega)).symm

/-- The length of a filled stream counts its groups, since none of it is left over. -/
theorem length_groups : 6 * (groups (filled digits)).length = (filled digits).length := by
  have hSum : ((groups (filled digits)).map List.length).sum = 6 * (groups (filled digits)).length := by
    rw [List.map_congr_left fun group hGroup => length_of_mem_groups hGroup]
    simp [Nat.mul_comm]
  rw [← hSum, ← List.length_flatten, flatten_groups length_filled]

theorem flatMap_values : ((groups (filled digits)).map value).flatMap (bits 6) = filled digits := by
  have hBits : ∀ group ∈ groups (filled digits), bits 6 (value group) = group := by
    intro group hGroup
    rw [← length_of_mem_groups hGroup, bits_value]
  rw [List.flatMap_map, List.flatMap_congr hBits, List.flatMap_id', flatten_groups length_filled]

/-- Cutting into groups can be done piece by piece, provided that the first piece
ends where a group does. -/
theorem groups_append {front rest : List Bool} (h : 6 ∣ front.length) :
    groups (front ++ rest) = groups front ++ groups rest := by
  fun_induction groups front with
  | case1 b₀ b₁ b₂ b₃ b₄ b₅ front ih =>
      simp only [List.length_cons] at h
      simp only [List.cons_append, groups, ih (by omega)]
  | case2 front hFront =>
      have hNone : front.length < 6 := length_lt_six hFront
      obtain rfl : front = [] := List.eq_nil_of_length_eq_zero (by omega)
      rfl

/-- Groups that are put together are found again, with the same ends. It is the
converse of `flatten_groups`. -/
theorem groups_flatten {list : List (List Bool)} (h : ∀ group ∈ list, group.length = 6) :
    groups list.flatten = list := by
  induction list with
  | nil => rfl
  | cons group list ih =>
      have hLength := h group List.mem_cons_self
      have hWhole : 6 ∣ group.length := ⟨1, hLength⟩
      have hAlone : groups group = [group] := by
        rcases group with _ | ⟨b₀, _ | ⟨b₁, _ | ⟨b₂, _ | ⟨b₃, _ | ⟨b₄, _ | ⟨b₅, _ | ⟨b₆, rest⟩⟩⟩⟩⟩⟩⟩
        case cons.cons.cons.cons.cons.cons.nil => rfl
        all_goals simp at hLength
      rw [List.flatten_cons, groups_append hWhole, hAlone,
        ih fun other hOther => h other (List.mem_cons_of_mem group hOther)]
      rfl

end Groups

section Text

variable {digits : List Bool} {x : List UInt8}

@[simp] theorem length_stream : (stream x).length = 8 * x.length := by
  simp [stream, Nat.mul_comm]

/-- The padding can be told from the letters, so that the end of the letters is where
the first padding stands. -/
theorem pad_not_mem_letters : pad ∉ letters digits := by
  intro h
  obtain ⟨group, hGroup, hPad⟩ := List.mem_map.1 h
  exact letter_ne_pad (value_lt_of_mem_groups hGroup) hPad

/-- Each letter gives back the group that it was made of, so that decoding gets to the
filled stream. -/
theorem mapM_sextet_letters :
    (letters digits).mapM sextet = some ((groups (filled digits)).map value) := by
  rw [letters, List.mapM_map]
  have hLetters : ∀ list : List (List Bool), (∀ group ∈ list, value group < 64) →
      list.mapM (sextet ∘ fun group => letter (value group)) = some (list.map value) := by
    intro list hList
    induction list with
    | nil => rfl
    | cons group list ih =>
        have hGroup := hList group List.mem_cons_self
        simp [List.mapM_cons, sextet_letter hGroup,
          ih fun other hMem => hList other (List.mem_cons_of_mem group hMem)]
  exact hLetters _ fun group hGroup => value_lt_of_mem_groups hGroup

/-- The octets are read up to fewer than eight zeros. Those are the bits that the
encoder has filled in, and they never amount to an octet. -/
theorem octets_stream {count : Nat} (h : count < 8) :
    octets (stream x ++ List.replicate count false) = some x := by
  induction x with
  | nil =>
      interval_cases count <;> rfl
  | cons octet x ih =>
      have hOctet : value (bits 8 octet.toNat) = octet.toNat := value_bits octet.toNat_lt
      have hRest : octets (stream (octet :: x) ++ List.replicate count false) =
          (octets (stream x ++ List.replicate count false)).map
            ((value (bits 8 octet.toNat)).toUInt8 :: ·) := rfl
      rw [hRest, ih, hOctet]
      simp

/-- Four characters for every group of three octets that has been begun, the last
one with padding where octets are missing. -/
theorem length_encode : (encode x).length = 4 * (x.length ⌈/⌉ 3) := by
  have hLetters : 6 * (letters (stream x)).length = (filled (stream x)).length := by
    rw [letters, List.length_map, length_groups]
  rw [filled, List.length_append, List.length_replicate, length_stream] at hLetters
  rw [encode, List.length_append, List.length_replicate, Nat.ceilDiv_eq_add_pred_div]
  omega

/-- The padding completes the last group: one character for each octet that is
missing to a group of three. -/
theorem encode_eq : encode x =
    letters (stream x) ++ List.replicate ((3 - x.length % 3) % 3) pad := by
  have hLetters : 6 * (letters (stream x)).length = (filled (stream x)).length := by
    rw [letters, List.length_map, length_groups]
  rw [filled, List.length_append, List.length_replicate, length_stream] at hLetters
  have hRest : x.length % 3 = 0 ∨ x.length % 3 = 1 ∨ x.length % 3 = 2 := by omega
  have hCount : (4 - (letters (stream x)).length % 4) % 4 = (3 - x.length % 3) % 3 := by
    rcases hRest with hNone | hOne | hTwo <;> omega
  rw [encode, hCount]

/-- Every list of octets is got back from its text. In particular nothing that is
encoded is refused, whatever the length. -/
theorem decode_encode : decode (encode x) = some x := by
  have hLength : (encode x).length % 4 = 0 := by
    rw [length_encode]
    omega
  have hNone : ∀ byte ∈ letters (stream x), decide (byte ≠ pad) = true := by
    intro byte hByte
    exact decide_eq_true fun hPad => pad_not_mem_letters (hPad ▸ hByte)
  have hBody : (encode x).takeWhile (· ≠ pad) = letters (stream x) := by
    rw [encode_eq, List.takeWhile_append_of_pos hNone, List.takeWhile_replicate]
    simp
  have hPadding : (encode x).dropWhile (· ≠ pad) =
      List.replicate ((3 - x.length % 3) % 3) pad := by
    rw [encode_eq, List.dropWhile_append_of_pos hNone, List.dropWhile_replicate]
    simp
  have hShort : ((3 - x.length % 3) % 3) ≤ 2 := by omega
  have hFill : (6 - (stream x).length % 6) % 6 < 8 := by omega
  rw [decode, hBody, hPadding, if_pos ⟨hLength, by simpa using hShort, by simp⟩,
    mapM_sextet_letters, Option.bind_some, flatMap_values, filled, octets_stream hFill]

/-- What is encoded up to a whole group does not depend on the rest. A program may
therefore go through the octets three at a time. -/
theorem encode_append {y : List UInt8} (h : 3 ∣ x.length) :
    encode (x ++ y) = encode x ++ encode y := by
  have hWhole : 6 ∣ (stream x).length := by
    rw [length_stream]
    omega
  have hAlone : filled (stream x) = stream x := by
    have hNone : (6 - (stream x).length % 6) % 6 = 0 := by omega
    rw [filled, hNone, List.replicate_zero, List.append_nil]
  have hBoth : filled (stream (x ++ y)) = stream x ++ filled (stream y) := by
    have hCount : (6 - (stream (x ++ y)).length % 6) % 6 = (6 - (stream y).length % 6) % 6 := by
      rw [length_stream, length_stream, List.length_append]
      omega
    rw [filled, hCount, filled, ← List.append_assoc]
    exact congrArg (· ++ _) List.flatMap_append
  have hLetters : letters (stream (x ++ y)) = letters (stream x) ++ letters (stream y) := by
    rw [letters, hBoth, groups_append hWhole, List.map_append, letters, hAlone, letters]
  have hNone : (3 - x.length % 3) % 3 = 0 := by omega
  have hSame : (3 - (x ++ y).length % 3) % 3 = (3 - y.length % 3) % 3 := by
    rw [List.length_append]
    omega
  rw [encode_eq, encode_eq, encode_eq, hLetters, hNone, hSame, List.replicate_zero,
    List.append_nil, List.append_assoc]

/-- Different lists of octets have different texts, which follows from decoding them. -/
theorem encode_injective : Function.Injective encode := by
  intro x y h
  exact Option.some.inj (by rw [← @decode_encode x, h, decode_encode])

end Text

end Encoding

end Framing.Base64
