import Httpuv.Framing.Message
import Mathlib.Data.List.DropRight

/-! Header blocks that keep to the grammar of HTTP/1.1, and which lists of fields are
read back from one. -/
namespace Framing

/-- An octet of a field value: a blank, a visible one, or one above ASCII. -/
def isValueByte (byte : UInt8) : Bool := byte == 9 || (32 ≤ byte && byte != 127)

def isValue (value : Octets) : Bool := value.all isValueByte

/-- A field that can be written. Blanks at the ends of the value are lost. -/
def Writable (field : Octets × Octets) : Prop :=
  isToken field.1 = true ∧ isValue field.2 = true

/-- A field as it can be read. -/
def Proper (field : Octets × Octets) : Prop := Writable field ∧ trim field.2 = field.2

/-- The fields behind a start line, and what follows the empty line. There is no block if
a value has an octet that it cannot have. -/
def readBlock (bytes : Octets) : Option (List (Octets × Octets) × Octets) := do
  let (_, rest) ← readLine bytes
  let (fields, rest) ← readFields (rest.length + 1) rest
  if fields.all (fun field => isValue field.2) then some (fields, rest) else none

section Values

variable {value : Octets}

theorem isValue_dropWhile (value : Octets) : isValue (value.dropWhile isBlank) = isValue value := by
  induction value with
  | nil => rfl
  | cons byte rest ih =>
      by_cases hBlank : isBlank byte = true
      · have hByte : isValueByte byte = true := by
          rcases (Bool.or_eq_true _ _).mp hBlank with hSpace | hTab
          · rw [beq_iff_eq.1 hSpace]
            decide
          · rw [beq_iff_eq.1 hTab]
            decide
        rw [List.dropWhile_cons_of_pos hBlank, ih, isValue, isValue, List.all_cons, hByte,
          Bool.true_and]
      · rw [List.dropWhile_cons_of_neg hBlank]

theorem isValue_trim (value : Octets) : isValue (trim value) = isValue value := by
  have hReverse : ∀ octets : Octets, isValue octets.reverse = isValue octets :=
    fun octets => List.all_reverse
  rw [trim, hReverse, isValue_dropWhile, hReverse, isValue_dropWhile]

/-- What has been trimmed has no blank at its ends. -/
theorem trim_trim (value : Octets) : trim (trim value) = trim value := by
  have hEnds : ∀ octets : Octets, trim octets = (octets.dropWhile isBlank).rdropWhile isBlank :=
    fun octets => rfl
  have hFirst : (trim value).dropWhile isBlank = trim value := by
    rw [hEnds, List.dropWhile_eq_self_iff]
    intro hSome hBlank
    have hPrefix := List.rdropWhile_prefix isBlank (value.dropWhile isBlank)
    have hLong := lt_of_lt_of_le hSome hPrefix.length_le
    apply List.dropWhile_get_zero_not isBlank value hLong
    rw [List.get_eq_getElem, ← hPrefix.getElem hSome]
    exact hBlank
  rw [hEnds, hFirst, hEnds, List.rdropWhile_idempotent]

theorem noCR_of_isValue (h : isValue value = true) : 13 ∉ value := by
  intro hMem
  exact absurd (List.all_eq_true.1 h 13 hMem) (by decide)

end Values

section Blocks

variable {startLine rest bytes : Octets} {fields front kept back : List (Octets × Octets)}

theorem parseField_eq_some {line : Octets} {field : Octets × Octets}
    (h : parseField line = some field) : isToken field.1 = true ∧ trim field.2 = field.2 := by
  unfold parseField at h
  dsimp only at h
  split at h
  · cases h
  · split_ifs at h with hName
    obtain rfl := Option.some.inj h
    exact ⟨hName, trim_trim _⟩

theorem readFields_spec {fuel : Nat} (h : readFields fuel bytes = some (fields, rest)) :
    ∀ field ∈ fields, isToken field.1 = true ∧ trim field.2 = field.2 := by
  induction fuel generalizing bytes fields rest with
  | zero => cases h
  | succ fuel ih =>
      simp only [readFields, Option.bind_eq_bind, Option.bind_eq_some_iff] at h
      obtain ⟨⟨line, after⟩, -, h⟩ := h
      dsimp only at h
      split_ifs at h with hEmpty
      · obtain ⟨rfl, -⟩ := Prod.mk.inj (Option.some.inj h)
        exact List.forall_mem_nil _
      · simp only [Option.bind_eq_some_iff] at h
        obtain ⟨field, hField, ⟨others, last⟩, hRest, h⟩ := h
        obtain ⟨rfl, -⟩ := Prod.mk.inj (Option.some.inj h)
        exact List.forall_mem_cons.2 ⟨parseField_eq_some hField, ih hRest⟩

theorem readBlock_proper (h : readBlock bytes = some (fields, rest)) :
    ∀ field ∈ fields, Proper field := by
  simp only [readBlock, Option.bind_eq_bind, Option.bind_eq_some_iff] at h
  obtain ⟨⟨line, after⟩, -, ⟨others, last⟩, hFields, h⟩ := h
  dsimp only at h
  split_ifs at h with hValues
  obtain ⟨rfl, rfl⟩ := Prod.mk.inj (Option.some.inj h)
  intro field hField
  obtain ⟨hName, hTrim⟩ := readFields_spec hFields field hField
  exact ⟨⟨hName, List.all_eq_true.1 hValues field hField⟩, hTrim⟩

theorem readBlock_formatHead (hStart : 13 ∉ startLine) (hFields : ∀ field ∈ fields, Writable field)
    (rest : Octets) : readBlock (formatHead startLine fields ++ rest) =
      some (readBack fields, rest) := by
  obtain ⟨block, hLine, hBlock⟩ := readHead hStart
    (fun field hField => ⟨(hFields field hField).1, noCR_of_isValue (hFields field hField).2⟩) rest
  have hValues : (readBack fields).all (fun field => isValue field.2) = true := by
    rw [readBack, List.all_map, List.all_eq_true]
    intro field hField
    exact (isValue_trim field.2).trans (hFields field hField).2
  simp only [readBlock, hLine, hBlock, Option.bind_eq_bind, Option.bind_some, hValues, if_true]

theorem readBack_proper (h : ∀ field ∈ fields, Proper field) : readBack fields = fields := by
  have hSame : ∀ field ∈ fields, (field.1, trim field.2) = field := by
    intro field hField
    rw [(h field hField).2]
  rw [readBack, List.map_congr_left hSame, List.map_id']

/-- **Which fields are read back as they are**, between fields of which this is not asked. -/
theorem readBlock_iff (hStart : 13 ∉ startLine) (hFront : ∀ field ∈ front, Writable field)
    (rest : Octets) :
    readBlock (formatHead startLine (front ++ kept ++ back) ++ rest) =
        some (readBack front ++ kept ++ readBack back, rest) ↔
      (∀ field ∈ kept, Proper field) ∧ ∀ field ∈ back, Writable field := by
  constructor
  · intro h
    have hAll := readBlock_proper h
    refine ⟨fun field hField => hAll field (by simp [hField]), fun field hField => ?_⟩
    obtain ⟨⟨hName, hValue⟩, -⟩ := hAll (field.1, trim field.2) (by
      have hBack : (field.1, trim field.2) ∈ readBack back := List.mem_map_of_mem hField
      simp [hBack])
    exact ⟨hName, (isValue_trim field.2).symm.trans hValue⟩
  · rintro ⟨hKept, hBack⟩
    have hWritable : ∀ field ∈ front ++ kept ++ back, Writable field := by
      intro field hField
      rcases List.mem_append.1 hField with hField | hField
      · rcases List.mem_append.1 hField with hField | hField
        · exact hFront field hField
        · exact (hKept field hField).1
      · exact hBack field hField
    rw [readBlock_formatHead hStart hWritable, readBack_append, readBack_append,
      readBack_proper hKept]

end Blocks

end Framing
