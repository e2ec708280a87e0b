import ShaderTemplate.Proofs.InfoLog.Spelling

/-!
# Reading locations

What a location means is said by `Location.Means`, and `Location.Lost` says of which numbers nothing
is meant. `Location.inFile?_eq_some_iff` and `Location.exists_means_iff` tie the two to what is
looked up for a location. The line of the file is meant as the remainder of a sum by the count of
the numbers of 64 bits, and is the sum itself wherever that fits.

Numbers of 64 bits that are written in ASCII digits mean the numbers that they were written for
(`Location.means_toDigits`). `Location.labelled_withColon` and `Location.bracketed_inBrackets` say
that the two ways of writing a location with them are locations.
-/

namespace ShaderTemplate

theorem Text.isDecimalDigit_of_isDigit {c : Char} (h : c.isDigit = true) :
    isDecimalDigit c = true := by
  obtain ⟨hlow, hhigh⟩ := Char.isDigit_iff_toNat.mp h
  have hlow : 0x30 ≤ c.toNat := hlow
  have hhigh : c.toNat ≤ 0x39 := hhigh
  unfold isDecimalDigit decimalDigitRanges inRanges
  rw [if_neg (by omega), if_pos hhigh]

namespace Location

/-! ## Numbers -/

/-- The number that digits of ASCII write. -/
def number (digits : Text) : Nat :=
  Nat.ofDigitChars 10 digits 0

theorem value?_eq_some_iff {digits : Text} {value : Nat} :
    value? digits = some value ↔
      (∀ c ∈ digits, c.isDigit = true) ∧ number digits < UInt64.size ∧ value = number digits := by
  have hvalue : digits.foldl (fun value c => 10 * value + (c.toNat - '0'.toNat)) 0 =
      number digits := rfl
  rw [value?, hvalue]
  split
  · rename_i h
    rw [Bool.and_eq_true, List.all_eq_true, decide_eq_true_eq] at h
    constructor
    · rintro ⟨⟩
      exact ⟨h.1, h.2, rfl⟩
    · rintro ⟨-, -, rfl⟩
      rfl
  · rename_i h
    rw [Bool.and_eq_true, List.all_eq_true, decide_eq_true_eq] at h
    simp only [reduceCtorEq, false_iff]
    rintro ⟨hascii, hfits, -⟩
    exact h ⟨hascii, hfits⟩

theorem isDigit_of_mem_toDigits {number : Nat} : ∀ c ∈ Nat.toDigits 10 number, c.isDigit = true :=
  fun _ h => Nat.isDigit_of_mem_toDigits (by decide) (by decide) h

theorem digits_toDigits (number : Nat) : Digits (Nat.toDigits 10 number) :=
  ⟨Nat.toDigits_ne_nil, fun c hc => Text.isDecimalDigit_of_isDigit (isDigit_of_mem_toDigits c hc)⟩

/-! ## Locations -/

/-- `0:12`, as it stands behind a label. -/
def withColon (index line : Nat) : Text :=
  Nat.toDigits 10 index ++ ':' :: Nat.toDigits 10 line

/-- A line behind a name, as in `0(12)` and `file(12)`. -/
def inBrackets (name : Text) (line : Nat) : Text :=
  name ++ '(' :: Nat.toDigits 10 line ++ [')']

theorem single_inBrackets {name : Text} (single : '\n' ∉ name) (line : Nat) :
    '\n' ∉ inBrackets name line := by
  simp [inBrackets, single, (digits_toDigits line).single]

section Written

variable {rest : Text} {index line : Nat}

/-- `ERROR: 0:12` and `WARNING: 0:12` are locations in front of anything but a digit. -/
theorem labelled_withColon {label : Text}
    (known : label = "ERROR".toList ∨ label = "WARNING".toList)
    (ends : ∀ c ∈ rest.head?, Text.isDecimalDigit c = false) :
    Labelled label (Nat.toDigits 10 index) (Nat.toDigits 10 line)
      (label ++ ':' :: ' ' :: withColon index line) rest :=
  ⟨known, digits_toDigits index, digits_toDigits line,
    ⟨[' '], List.forall_mem_singleton.mpr (by decide), rfl⟩, ends⟩

/-- `0(12)` is a location, with the white space behind it. -/
theorem bracketed_inBrackets (rest : Text) :
    Bracketed (Nat.toDigits 10 index) (Nat.toDigits 10 line)
      (inBrackets (Nat.toDigits 10 index) line ++ Text.indentation rest) (Text.trimStart rest) :=
  ⟨digits_toDigits index, digits_toDigits line,
    ⟨Text.indentation rest, fun _ hc => List.mem_takeWhile_imp hc, by simp [inBrackets]⟩,
    Text.head?_dropWhile rest⟩

end Written

/-! ## What a location means -/

/-- The file and line that a location with these numbers means is written like this. -/
structure Means (chunks : List Chunk) (index line place : Text) : Prop where
  ascii : ∀ c ∈ index ++ line, c.isDigit = true
  indexFits : number index < UInt64.size
  lineFits : number line < UInt64.size
  found : ∃ chunk, chunks[number index]? = some chunk ∧
    place = inBrackets chunk.file ((chunk.lineOffset + number line) % UInt64.size)

/-- A location with these numbers means nothing: they are not all in ASCII, do not fit into 64 bits,
or there is no chunk with the index. -/
def Lost (chunks : List Chunk) (index line : Text) : Prop :=
  (∃ c ∈ index ++ line, c.isDigit = false) ∨ UInt64.size ≤ number index ∨
    UInt64.size ≤ number line ∨ chunks.length ≤ number index

/-- The line of a file, as it is written, is the remainder of the sum. -/
theorem toList_fileLine (chunk : Chunk) (line : Nat) :
    (toString (chunk.fileLine line)).toList =
      Nat.toDigits 10 ((chunk.lineOffset + line) % UInt64.size) := by
  have hline : (chunk.fileLine line).toNat = (chunk.lineOffset + line) % UInt64.size := by
    rw [Chunk.fileLine, ← UInt64.ofNat_add, UInt64.toNat_ofNat']
  rw [← hline]
  exact Nat.toList_repr

theorem inFile?_eq_some_iff {chunks : List Chunk} {index line place : Text} {length : Nat} :
    inFile? chunks ⟨index, line, length⟩ = some place ↔ Means chunks index line place := by
  simp only [inFile?, Option.bind_eq_bind, Option.bind_eq_some_iff, value?_eq_some_iff,
    Option.pure_def, Option.some.injEq, toList_fileLine]
  constructor
  · rintro ⟨_, ⟨hindex, hindexFits, rfl⟩, chunk, hchunk, _, ⟨hline, hlineFits, rfl⟩, rfl⟩
    refine ⟨fun c hc => ?_, hindexFits, hlineFits, chunk, hchunk, rfl⟩
    exact (List.mem_append.mp hc).elim (hindex c) (hline c)
  · rintro ⟨hascii, hindexFits, hlineFits, chunk, hchunk, rfl⟩
    exact ⟨_, ⟨fun c hc => hascii c (List.mem_append_left _ hc), hindexFits, rfl⟩, chunk, hchunk,
      _, ⟨fun c hc => hascii c (List.mem_append_right _ hc), hlineFits, rfl⟩, rfl⟩

/-- A location means something unless its numbers are among those of which nothing is meant. -/
theorem exists_means_iff {chunks : List Chunk} {index line : Text} :
    (∃ place, Means chunks index line place) ↔ ¬ Lost chunks index line := by
  simp only [Lost, not_or, not_exists, not_and, Nat.not_le, Bool.not_eq_false]
  constructor
  · rintro ⟨place, means⟩
    obtain ⟨chunk, hchunk, -⟩ := means.found
    obtain ⟨hlt, -⟩ := List.getElem?_eq_some_iff.mp hchunk
    exact ⟨means.ascii, means.indexFits, means.lineFits, hlt⟩
  · rintro ⟨hascii, hindex, hline, hlt⟩
    exact ⟨_, hascii, hindex, hline, _, List.getElem?_eq_getElem hlt, rfl⟩

/-- What a location means that is written with numbers of 64 bits, as long as the line of the file
is one too. -/
theorem means_toDigits {chunks : List Chunk} {chunk : Chunk} {index line : Nat}
    (found : chunks[index]? = some chunk) (indexFits : index < UInt64.size)
    (sumFits : chunk.lineOffset + line < UInt64.size) :
    Means chunks (Nat.toDigits 10 index) (Nat.toDigits 10 line)
      (inBrackets chunk.file (chunk.lineOffset + line)) := by
  have hnumber (n : Nat) : number (Nat.toDigits 10 n) = n := Nat.ofDigitChars_ten_toDigits
  have hline : line < UInt64.size := by omega
  have hfound : chunks[number (Nat.toDigits 10 index)]? = some chunk := by rwa [hnumber]
  refine ⟨fun c hc => ?_, by rwa [hnumber], by rwa [hnumber], chunk, hfound, ?_⟩
  · exact (List.mem_append.mp hc).elim (isDigit_of_mem_toDigits c) (isDigit_of_mem_toDigits c)
  · rw [hnumber, Nat.mod_eq_of_lt sumFits]

/-- What a location means is written in one line if no file name has a line feed. -/
theorem Means.single {chunks : List Chunk} {index line place : Text}
    (named : ∀ chunk ∈ chunks, '\n' ∉ chunk.file) (means : Means chunks index line place) :
    '\n' ∉ place := by
  obtain ⟨chunk, hchunk, rfl⟩ := means.found
  exact single_inBrackets (named chunk (List.mem_of_getElem? hchunk)) _

end Location

end ShaderTemplate
