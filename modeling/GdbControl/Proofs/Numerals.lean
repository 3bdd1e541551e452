import GdbControl.Text.Integer
import Mathlib.Data.List.Induction
import Mathlib.Data.Nat.Digits.Defs

/-!
What has to be written for an integer to be read: padding, a sign or none, digits of any script with
single underscores between them, and padding again. The reader takes these texts and no others, and
reads their value. Among them is the decimal form of every integer that is not too long.
-/

namespace GdbControl.Integer

/-- Whether a character is the digit of a value, in any script. -/
def Writes (c : Char) (value : Nat) : Prop :=
  value < 10 ∧ ∃ first ∈ Digit.zeros, c.toNat = first + value

/-- A row of digits and their values. An underscore may stand between two of them. -/
inductive Row : List Char → List Nat → Prop where
  | last {c : Char} {value : Nat} (digit : Writes c value) : Row [c] [value]
  | next {c : Char} {value : Nat} {text : List Char} {values : List Nat} (digit : Writes c value)
    (more : Row text values) : Row (c :: text) (value :: values)
  | spaced {c : Char} {value : Nat} {text : List Char} {values : List Nat} (digit : Writes c value)
    (more : Row text values) : Row (c :: '_' :: text) (value :: values)

/-- What may stand before the digits of an integer, and the factor for which it stands. -/
inductive Sign : List Char → Int → Prop where
  | absent : Sign [] 1
  | plus : Sign ['+'] 1
  | minus : Sign ['-'] (-1)

/-- A text that writes an integer, but for the padding around it. -/
inductive Core : List Char → Int → Prop where
  | intro {sign row : List Char} {factor : Int} {values : List Nat} (signed : Sign sign factor)
    (digits : Row row values) (size : values.length ≤ maxDigits) :
    Core (sign ++ row) (factor * (Nat.ofDigits 10 values.reverse : Nat))

/-- A text that writes an integer. -/
def Numeral (text : List Char) (value : Int) : Prop :=
  ∃ left core right, text = left ++ core ++ right ∧ (∀ c ∈ left, isPadding c = true) ∧
    Core core value ∧ ∀ c ∈ right, isPadding c = true

section Characters

variable {c : Char} {value : Nat}

-- The ten digits of one script end before those of the next begin.
theorem zeros_apart : ∀ first ∈ Digit.zeros, ∀ other ∈ Digit.zeros,
    first < other → first + 10 ≤ other := by
  decide +kernel

theorem digits_not_padding : ∀ first ∈ Digit.zeros, ∀ value < 10,
    isPadding (Char.ofNat (first + value)) = false := by
  decide +kernel

theorem value?_eq_some_iff : Digit.value? c = some value ↔ Writes c value := by
  constructor
  · intro found
    obtain ⟨first, hit, rfl⟩ := Option.map_eq_some_iff.mp found
    have bounds := List.find?_some hit
    simp only [Bool.and_eq_true, decide_eq_true_eq] at bounds
    exact ⟨by omega, first, List.mem_of_find?_eq_some hit, by omega⟩
  · rintro ⟨small, first, present, code⟩
    cases hit : Digit.zeros.find? fun first => first ≤ c.toNat && c.toNat < first + 10 with
    | none =>
      have missed := List.find?_eq_none.mp hit first present
      simp only [Bool.and_eq_true, decide_eq_true_eq] at missed
      omega
    | some other =>
      have bounds := List.find?_some hit
      simp only [Bool.and_eq_true, decide_eq_true_eq] at bounds
      have present' := List.mem_of_find?_eq_some hit
      have above := zeros_apart first present other present'
      have below := zeros_apart other present' first present
      rw [Digit.value?, hit, Option.map_some]
      congr 1
      omega

theorem writes_not_padding (digit : Writes c value) : isPadding c = false := by
  obtain ⟨small, first, present, code⟩ := digit
  have plain := digits_not_padding first present value small
  rwa [← code, Char.ofNat_toNat] at plain

theorem not_writes (unread : Digit.value? c = none) : ¬ Writes c value := by
  intro digit
  rw [value?_eq_some_iff.mpr digit] at unread
  cases unread

theorem decimal_writes (small : value < 10) : Writes value.digitChar value := by
  refine ⟨small, 0x30, by decide, ?_⟩
  rw [Nat.toNat_digitChar_of_lt_ten small]

end Characters

section Rows

variable {text : List Char} {values : List Nat}

theorem row_ne_nil (row : Row text values) : text ≠ [] := by
  cases row <;> simp

/-- A row begins with a digit. -/
theorem row_first {c : Char} (row : Row (c :: text) values) : Digit.value? c ≠ none := by
  intro unread
  cases row with
  | last digit | next digit | spaced digit => exact not_writes unread digit

theorem row_mem (row : Row text values) {c : Char} (member : c ∈ text) :
    c = '_' ∨ ∃ value, Writes c value := by
  induction row with
  | last digit =>
    obtain rfl := List.mem_singleton.mp member
    exact .inr ⟨_, digit⟩
  | next digit _ ih =>
    rcases List.mem_cons.mp member with rfl | later
    · exact .inr ⟨_, digit⟩
    · exact ih later
  | spaced digit _ ih =>
    rcases List.mem_cons.mp member with rfl | later
    · exact .inr ⟨_, digit⟩
    · rcases List.mem_cons.mp later with rfl | later
      · exact .inl rfl
      · exact ih later

theorem digits?_eq_some_iff : digits? text = some values ↔ Row text values := by
  constructor
  · intro read
    fun_induction digits? text generalizing values with
    | case1 => cases read
    | case2 => cases read
    | case3 c digit found =>
      cases read
      exact .last (value?_eq_some_iff.mp found)
    | case4 c digit found more ih =>
      obtain ⟨others, rest, rfl⟩ := Option.map_eq_some_iff.mp read
      exact .spaced (value?_eq_some_iff.mp found) (ih rest)
    | case5 c digit found next more _ ih =>
      obtain ⟨others, rest, rfl⟩ := Option.map_eq_some_iff.mp read
      exact .next (value?_eq_some_iff.mp found) (ih rest)
  · intro row
    induction row with
    | last digit => simp [digits?, value?_eq_some_iff.mpr digit]
    | @next c value text values digit more ih =>
      cases text with
      | nil => exact absurd rfl (row_ne_nil more)
      | cons first rest =>
        -- No digit is an underscore, so this is not read as a spaced row.
        have other : first ≠ '_' := by
          rintro rfl
          exact row_first more (by decide +kernel)
        rw [digits?, value?_eq_some_iff.mpr digit]
        dsimp only
        split
        · next empty => cases empty
        · next shape => exact absurd (List.cons.inj shape).1 other
        · next shape =>
          rw [← shape, ih]
          rfl
    | spaced digit _ ih => simp [digits?, value?_eq_some_iff.mpr digit, ih]

end Rows

section Values

variable {text row : List Char} {values : List Nat} {value : Int}

theorem value_snoc (front : List Nat) (digit : Nat) :
    Nat.ofDigits 10 (front ++ [digit]).reverse = digit + 10 * Nat.ofDigits 10 front.reverse := by
  rw [List.reverse_append, List.reverse_singleton, List.singleton_append, Nat.ofDigits_cons]

theorem ofDigits_eq (values : List Nat) : ofDigits values = Nat.ofDigits 10 values.reverse := by
  induction values using List.reverseRecOn with
  | nil => rfl
  | append_singleton front digit ih =>
    rw [value_snoc, ← ih, Nat.add_comm, ofDigits, ofDigits, List.foldl_append]
    rfl

theorem natural?_eq_some_iff {magnitude : Nat} : natural? text = some magnitude ↔
    ∃ values, Row text values ∧ values.length ≤ maxDigits ∧
      magnitude = Nat.ofDigits 10 values.reverse := by
  unfold natural?
  cases read : digits? text with
  | none =>
    refine iff_of_false (by simp) ?_
    rintro ⟨values, row, -⟩
    rw [digits?_eq_some_iff.mpr row] at read
    cases read
  | some values =>
    have row := digits?_eq_some_iff.mp read
    constructor
    · intro taken
      obtain ⟨size, same⟩ := Option.ite_none_right_eq_some.mp taken
      cases same
      exact ⟨values, row, size, ofDigits_eq values⟩
    · rintro ⟨others, row', size, rfl⟩
      have same := digits?_eq_some_iff.mpr row'
      rw [read] at same
      cases same
      exact (if_pos size).trans (congrArg some (ofDigits_eq values))

theorem core_of_natural {sign : List Char} {factor : Int} (signed : Sign sign factor)
    {magnitude : Nat} (taken : natural? row = some magnitude) :
    Core (sign ++ row) (factor * magnitude) := by
  obtain ⟨values, digits, size, rfl⟩ := natural?_eq_some_iff.mp taken
  exact .intro signed digits size

theorem signed?_eq_some_iff : signed? text = some value ↔ Core text value := by
  constructor
  · intro read
    unfold signed? at read
    split at read
    · obtain ⟨magnitude, whole, rfl⟩ := Option.map_eq_some_iff.mp read
      obtain ⟨natural, taken, same⟩ := Option.bind_eq_some_iff.mp whole
      cases same
      rw [← neg_one_mul]
      exact core_of_natural .minus taken
    · obtain ⟨magnitude, taken, rfl⟩ := Option.map_eq_some_iff.mp read
      have written := core_of_natural .plus taken
      rwa [one_mul] at written
    · obtain ⟨magnitude, taken, rfl⟩ := Option.map_eq_some_iff.mp read
      have written := core_of_natural .absent taken
      rwa [one_mul] at written
  · rintro ⟨signed, row, size⟩
    have taken := natural?_eq_some_iff.mpr ⟨_, row, size, rfl⟩
    cases signed with
    | plus => simp [signed?, taken]
    | minus => simp [signed?, taken]
    | absent =>
      -- No digit is a sign, so this is read as unsigned.
      rw [List.nil_append]
      unfold signed?
      split
      · exact absurd (by decide +kernel) (row_first row)
      · exact absurd (by decide +kernel) (row_first row)
      · simp [taken]

end Values

section Padding

variable {text core : List Char} {value : Int}

theorem core_mem (written : Core core value) {c : Char} (member : c ∈ core) :
    c ∈ ['+', '-', '_'] ∨ ∃ value, Writes c value := by
  obtain ⟨signed, row, -⟩ := written
  rcases List.mem_append.mp member with inSign | inRow
  · cases signed with
    | absent => cases inSign
    | plus | minus => exact .inl (by simp_all)
  · exact (row_mem row inRow).imp (by rintro rfl; decide) id

theorem core_not_padding (written : Core core value) : ∀ c ∈ core, isPadding c = false := by
  intro c member
  rcases core_mem written member with mark | ⟨value, digit⟩
  · simp only [List.mem_cons, List.not_mem_nil, or_false] at mark
    rcases mark with rfl | rfl | rfl <;> decide
  · exact writes_not_padding digit

theorem core_ne_nil (written : Core core value) : core ≠ [] := by
  obtain ⟨-, row, -⟩ := written
  exact List.append_ne_nil_of_right_ne_nil _ (row_ne_nil row)

theorem dropWhile_padding {left rest : List Char} (before : ∀ c ∈ left, isPadding c = true)
    (plain : ∀ c, rest.head? = some c → isPadding c = false) :
    (left ++ rest).dropWhile isPadding = rest := by
  rw [List.dropWhile_append_of_pos before]
  cases rest with
  | nil => rfl
  | cons c rest => rw [List.dropWhile_cons_of_neg (by simp [plain c rfl])]

theorem unpadded_surrounded {left right : List Char} (before : ∀ c ∈ left, isPadding c = true)
    (plain : ∀ c ∈ core, isPadding c = false) (some_ : core ≠ [])
    (after : ∀ c ∈ right, isPadding c = true) : unpadded (left ++ core ++ right) = core := by
  have front : ∀ c, (core ++ right).head? = some c → isPadding c = false := by
    intro c first
    obtain ⟨head, tail, rfl⟩ := List.exists_cons_of_ne_nil some_
    exact plain c (Option.some.inj first ▸ List.mem_cons_self)
  have back : ∀ c, core.reverse.head? = some c → isPadding c = false := by
    intro c last
    exact plain c (List.mem_reverse.mp (List.mem_of_head? last))
  have after' : ∀ c ∈ right.reverse, isPadding c = true := by simpa using after
  rw [unpadded, List.append_assoc, dropWhile_padding before front, List.reverse_append,
    dropWhile_padding after' back, List.reverse_reverse]

/-- What surrounds the text that is left is padding. -/
theorem unpadded_parts (text : List Char) : ∃ left right, text = left ++ unpadded text ++ right ∧
    (∀ c ∈ left, isPadding c = true) ∧ ∀ c ∈ right, isPadding c = true := by
  let inner := text.dropWhile isPadding
  have ends : inner = unpadded text ++ (inner.reverse.takeWhile isPadding).reverse := by
    rw [unpadded, ← List.reverse_append, List.takeWhile_append_dropWhile, List.reverse_reverse]
  refine ⟨text.takeWhile isPadding, (inner.reverse.takeWhile isPadding).reverse, ?_, ?_, ?_⟩
  · rw [List.append_assoc, ← ends, List.takeWhile_append_dropWhile]
  · exact List.all_eq_true.mp List.all_takeWhile
  · intro c member
    exact List.all_eq_true.mp List.all_takeWhile c (List.mem_reverse.mp member)

end Padding

theorem numeral_of_core {core : List Char} {value : Int} (written : Core core value) :
    Numeral core value :=
  ⟨[], core, [], by simp, by simp, written, by simp⟩

/-- The reader takes what writes an integer, and nothing else. -/
theorem parse?_eq_some_iff {text : String} {value : Int} :
    parse? text = some value ↔ Numeral text.toList value := by
  rw [parse?, signed?_eq_some_iff]
  constructor
  · intro written
    obtain ⟨left, right, whole, before, after⟩ := unpadded_parts text.toList
    exact ⟨left, unpadded text.toList, right, whole, before, written, after⟩
  · rintro ⟨left, core, right, whole, before, written, after⟩
    rw [whole, unpadded_surrounded before (core_not_padding written) (core_ne_nil written) after]
    exact written

section Decimals

theorem row_snoc {text : List Char} {values : List Nat} (row : Row text values) {c : Char} {value : Nat}
    (digit : Writes c value) : Row (text ++ [c]) (values ++ [value]) := by
  induction row with
  | last first => exact .next first (.last digit)
  | next first _ ih => exact .next first ih
  | spaced first _ ih => exact .spaced first ih

/-- The decimal form of a number is a row of its digits. -/
theorem row_decimal (magnitude : Nat) : ∃ values, Row (Nat.toDigits 10 magnitude) values ∧
    values.length = (Nat.toDigits 10 magnitude).length ∧
    Nat.ofDigits 10 values.reverse = magnitude := by
  induction magnitude using Nat.strong_induction_on with
  | _ magnitude ih =>
    have small : magnitude % 10 < 10 := Nat.mod_lt _ (by decide)
    rw [Nat.toDigits_eq_if (by decide)]
    split
    · next less =>
      exact ⟨[magnitude], .last (decimal_writes less), rfl, Nat.ofDigits_singleton⟩
    · next more =>
      obtain ⟨values, row, size, same⟩ := ih (magnitude / 10) (by omega)
      refine ⟨values ++ [magnitude % 10], row_snoc row (decimal_writes small), by simp [size], ?_⟩
      rw [value_snoc, same]
      exact Nat.mod_add_div magnitude 10

/-- The decimal form of an integer writes it. -/
theorem core_decimal {value : Int} (size : (toString value.natAbs).length ≤ maxDigits) :
    Core (toString value).toList value := by
  obtain ⟨values, row, length, same⟩ := row_decimal value.natAbs
  have short : values.length ≤ maxDigits := by
    rwa [Nat.toString_eq_repr, ← String.length_toList, Nat.toList_repr, ← length] at size
  rw [Int.toString_eq_repr, Int.repr_eq_if]
  split
  · next positive =>
    have plain := Core.intro .absent row short
    rw [same, one_mul, Int.natAbs_of_nonneg positive] at plain
    rw [Nat.toList_repr, show value.toNat = value.natAbs by omega]
    exact plain
  · next negative =>
    have signed := Core.intro .minus row short
    rw [same, neg_one_mul, Int.ofNat_natAbs_of_nonpos (by omega), neg_neg] at signed
    rw [String.toList_append, Nat.toList_repr, show (-value).toNat = value.natAbs by omega]
    exact signed

end Decimals

end GdbControl.Integer
