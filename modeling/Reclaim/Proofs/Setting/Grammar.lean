import Mathlib.Data.List.TakeWhile
import Reclaim.Setting

/-! What settings may be written as. The grammar says which texts are flags and which are counts, and which
one each of them is. Reading accepts these texts and no others. -/

namespace Reclaim

namespace Text

structure Stripped (text word : List Char) : Prop where
  padded : ∃ before after, text = before ++ word ++ after ∧
    (∀ character ∈ before, isBlank character = true) ∧
    ∀ character ∈ after, isBlank character = true
  first : ∀ character, word.head? = some character → isBlank character = false
  last : ∀ character, word.getLast? = some character → isBlank character = false

theorem head?_dropBlank {text : List Char} {character : Char}
    (first : (text.dropWhile isBlank).head? = some character) : isBlank character = false := by
  have stopped := List.head?_dropWhile_not isBlank text
  rw [first] at stopped
  exact stopped

theorem dropBlank_solid {word : List Char}
    (first : ∀ character, word.head? = some character → isBlank character = false) :
    word.dropWhile isBlank = word := by
  cases word with
  | nil => rfl
  | cons character rest =>
      have stop : ¬ isBlank character = true := by simp [first character rfl]
      exact List.dropWhile_cons_of_neg stop

theorem trim_stripped (text : List Char) : Stripped text (trim text) := by
  let front := text.takeWhile isBlank
  let back := ((text.dropWhile isBlank).reverse.takeWhile isBlank).reverse
  have rest : trim text ++ back = text.dropWhile isBlank := by
    rw [trim, ← List.reverse_append, List.takeWhile_append_dropWhile, List.reverse_reverse]
  constructor
  · refine ⟨front, back, ?_, fun _ => List.mem_takeWhile_imp, fun _ member => ?_⟩
    · rw [List.append_assoc, rest, List.takeWhile_append_dropWhile]
    · exact List.mem_takeWhile_imp (List.mem_reverse.mp member)
  · intro character first
    have same : (text.dropWhile isBlank).head? = some character := by
      rw [← rest, List.head?_append, first]
      rfl
    exact head?_dropBlank same
  · intro character last
    rw [trim, List.getLast?_reverse] at last
    exact head?_dropBlank last

theorem Stripped.trim_eq {text word : List Char} (stripped : Stripped text word) :
    trim text = word := by
  obtain ⟨⟨before, after, rfl, blankBefore, blankAfter⟩, first, last⟩ := stripped
  rw [trim, List.append_assoc, List.dropWhile_append_of_pos blankBefore]
  cases word with
  | nil =>
      rw [List.nil_append, List.dropWhile_eq_nil_iff.mpr blankAfter]
      rfl
  | cons head tail =>
      have solid : (head :: tail ++ after).dropWhile isBlank = head :: tail ++ after :=
        dropBlank_solid first
      have blankEnd : ∀ character ∈ after.reverse, isBlank character = true := fun character member =>
        blankAfter character (List.mem_reverse.mp member)
      rw [solid, List.reverse_append, List.dropWhile_append_of_pos blankEnd, dropBlank_solid,
        List.reverse_reverse]
      intro character ending
      rw [List.head?_reverse] at ending
      exact last character ending

theorem Stripped.of_padded {before word after : List Char}
    (blankBefore : ∀ character ∈ before, isBlank character = true)
    (blankAfter : ∀ character ∈ after, isBlank character = true)
    (solid : ∀ character ∈ word, isBlank character = false) :
    Stripped (before ++ word ++ after) word :=
  ⟨⟨before, after, rfl, blankBefore, blankAfter⟩,
    fun character first => solid character (List.mem_of_mem_head? first),
    fun character last => solid character (List.mem_of_getLast? last)⟩

end Text

/-! Flags. -/

def flagWords : Bool → List String
  | true => ["1", "true", "yes", "on"]
  | false => ["0", "false", "no", "off"]

def FlagText (text : String) (flag : Bool) : Prop :=
  ∃ word, Text.Stripped text.toList word ∧ String.ofList (word.map Char.toLower) ∈ flagWords flag

theorem toLower_letter {character : Char} (letter : 'A' ≤ character ∧ character ≤ 'Z') :
    character.toLower.toNat = character.toNat + 32 := by
  have high : character.val.toNat ≤ 90 := letter.2
  unfold Char.toLower
  rw [dif_pos (by exact letter)]
  show (character.val + 32).toNat = character.val.toNat + 32
  rw [UInt32.toNat_add]
  show (character.val.toNat + 32) % 2 ^ 32 = _
  omega

theorem lowerLetter_eq : lowerLetter = Char.toLower := by
  funext character
  unfold lowerLetter
  by_cases letter : 'A' ≤ character ∧ character ≤ 'Z'
  · rw [if_pos letter, ← toLower_letter letter, Char.ofNat_toNat]
  · rw [if_neg letter]
    unfold Char.toLower
    rw [dif_neg (by exact letter)]

theorem flag?_eq_some {text : String} {flag : Bool} :
    flag? text = some flag ↔ FlagText text flag := by
  have reads : flag? text = some flag ↔
      String.ofList ((Text.trim text.toList).map Char.toLower) ∈ flagWords flag := by
    unfold flag?
    rw [lowerLetter_eq]
    dsimp only
    generalize String.ofList ((Text.trim text.toList).map Char.toLower) = word
    have apart : ∀ word ∈ flagWords false, word ∉ flagWords true := by decide
    split
    · next yes =>
        cases flag with
        | true => exact iff_of_true rfl yes
        | false => exact iff_of_false nofun fun no => apart word no yes
    · next other =>
        split
        · next no =>
            cases flag with
            | true => exact iff_of_false nofun other
            | false => exact iff_of_true rfl no
        · next neither =>
            cases flag with
            | true => exact iff_of_false nofun other
            | false => exact iff_of_false nofun neither
  rw [reads]
  constructor
  · intro found
    exact ⟨_, Text.trim_stripped _, found⟩
  · rintro ⟨word, stripped, found⟩
    rwa [stripped.trim_eq]

/-! Counts. -/

/-- The text is the count in decimal digits, zeros before it allowed, after at most one plus sign and
between blanks; and the count stays in the word. -/
def CountText (text : String) (count : Nat) : Prop :=
  ∃ sign digits, Text.Stripped text.toList (sign ++ digits) ∧ (sign = [] ∨ sign = ['+']) ∧
    digits ≠ [] ∧ (∀ character ∈ digits, character.isDigit = true) ∧
    count = Nat.ofDigitChars 10 digits 0 ∧ count < Word.limit

theorem digit?_eq_some {character : Char} {digit : Nat} : digit? character = some digit ↔
    character.isDigit = true ∧ digit = character.toNat - '0'.toNat := by
  have range : character.isDigit = true ↔ '0' ≤ character ∧ character ≤ '9' := by
    simp [Char.isDigit, Char.le_def]
  rw [range]
  unfold digit?
  by_cases decimal : '0' ≤ character ∧ character ≤ '9'
  · rw [if_pos decimal, Option.some.injEq]
    exact ⟨fun same => ⟨decimal, same.symm⟩, fun same => same.2.symm⟩
  · rw [if_neg decimal]
    exact ⟨nofun, fun same => absurd same.1 decimal⟩

theorem digits?_eq_some {text : List Char} {value total : Nat} : digits? value text = some total ↔
    (∀ character ∈ text, character.isDigit = true) ∧ total = Nat.ofDigitChars 10 text value := by
  induction text generalizing value with
  | nil =>
      rw [digits?, Option.some.injEq, Nat.ofDigitChars_nil]
      exact ⟨fun same => ⟨nofun, same.symm⟩, fun same => same.2.symm⟩
  | cons character rest ih =>
      rw [digits?, List.forall_mem_cons, Nat.ofDigitChars_cons, Nat.mul_comm 10]
      cases read : digit? character with
      | none =>
          refine ⟨nofun, fun same => ?_⟩
          rw [digit?_eq_some.mpr ⟨same.1.1, rfl⟩] at read
          cases read
      | some digit =>
          obtain ⟨decimal, rfl⟩ := digit?_eq_some.mp read
          dsimp only
          rw [ih, and_assoc]
          exact ⟨fun same => ⟨decimal, same⟩, And.right⟩

theorem dropPlus_split (word : List Char) :
    ∃ sign, (sign = [] ∨ sign = ['+']) ∧ word = sign ++ dropPlus word := by
  unfold dropPlus
  split
  · exact ⟨['+'], .inr rfl, rfl⟩
  · exact ⟨[], .inl rfl, rfl⟩

theorem dropPlus_digits {sign digits : List Char} (plus : sign = [] ∨ sign = ['+'])
    (decimal : ∀ character ∈ digits, character.isDigit = true) :
    dropPlus (sign ++ digits) = digits := by
  rcases plus with rfl | rfl
  · unfold dropPlus
    split
    · next rest same =>
        have plus : ('+' : Char) ∈ digits := by
          rw [show digits = '+' :: rest from same]
          exact List.mem_cons_self
        exact absurd (decimal _ plus) (by decide)
    · rfl
  · rfl

theorem count?_eq_some {text : String} {count : Nat} :
    count? text = some count ↔ CountText text count := by
  have reads : count? text = some count ↔ dropPlus (Text.trim text.toList) ≠ [] ∧
      digits? 0 (dropPlus (Text.trim text.toList)) = some count ∧ count < Word.limit := by
    unfold count?
    split
    · next empty => exact ⟨nofun, fun some => absurd empty some.1⟩
    · next some =>
        rw [Option.filter_eq_some_iff, decide_eq_true_eq]
        exact ⟨fun read => ⟨some, read⟩, And.right⟩
  rw [reads]
  constructor
  · rintro ⟨some, read, small⟩
    obtain ⟨decimal, value⟩ := digits?_eq_some.mp read
    obtain ⟨sign, plus, split⟩ := dropPlus_split (Text.trim text.toList)
    exact ⟨sign, _, split ▸ Text.trim_stripped _, plus, some, decimal, value, small⟩
  · rintro ⟨sign, digits, stripped, plus, some, decimal, value, small⟩
    rw [stripped.trim_eq, dropPlus_digits plus decimal]
    exact ⟨some, digits?_eq_some.mpr ⟨decimal, value⟩, small⟩

theorem isBlank_digit {character : Char} (decimal : character.isDigit = true) :
    Text.isBlank character = false := by
  obtain ⟨low, high⟩ := Char.isDigit_iff_toNat.mp decimal
  have low : 48 ≤ character.toNat := low
  have high : character.toNat ≤ 57 := high
  have apart : ∀ range ∈ Text.blankRanges, range.2 < 48 ∨ 57 < range.1 := by decide
  apply Bool.eq_false_iff.mpr
  intro blank
  obtain ⟨range, member, lower, upper⟩ := Text.inRanges_iff.mp blank
  rcases apart range member with before | beyond <;> omega

/-- Every count in the word can be written, with as many zeros before it as one likes. -/
theorem CountText.written {before after sign : List Char} {count : Nat} (zeros : Nat)
    (blankBefore : ∀ character ∈ before, Text.isBlank character = true)
    (blankAfter : ∀ character ∈ after, Text.isBlank character = true)
    (plus : sign = [] ∨ sign = ['+']) (small : count < Word.limit) :
    CountText (String.ofList (before ++ (sign ++ (List.replicate zeros '0' ++ (toString count).toList)) ++
      after)) count := by
  have printed : (toString count).toList = Nat.toDigits 10 count := by
    rw [Nat.toString_eq_ofList_toDigits, String.toList_ofList]
  have decimal : ∀ character ∈ List.replicate zeros '0' ++ Nat.toDigits 10 count,
      character.isDigit = true := by
    intro character member
    rcases List.mem_append.mp member with zero | digit
    · rw [List.eq_of_mem_replicate zero]
      decide
    · exact Nat.isDigit_of_mem_toDigits (by decide) (by decide) digit
  have value : Nat.ofDigitChars 10 (List.replicate zeros '0' ++ Nat.toDigits 10 count) 0 = count := by
    rw [Nat.ofDigitChars_append, Nat.ofDigitChars_replicate_zero, Nat.mul_zero,
      Nat.ofDigitChars_toDigits (by decide) (by decide)]
  rw [printed]
  refine ⟨sign, _, ?_, plus, ?_, decimal, value.symm, small⟩
  · rw [String.toList_ofList]
    refine Text.Stripped.of_padded blankBefore blankAfter fun character member => ?_
    rcases List.mem_append.mp member with front | digit
    · rcases plus with rfl | rfl
      · cases front
      · rw [List.mem_singleton.mp front]
        decide
    · exact isBlank_digit (decimal character digit)
  · exact List.append_ne_nil_of_right_ne_nil _ Nat.toDigits_ne_nil

end Reclaim
