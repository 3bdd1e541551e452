import GdbControl.Proofs.Utf8

/-!
Which bytes the reader of UTF-8 holds back, told by the encoding of characters and not by the reader.
It holds the bytes with which the encoding of some character begins and does not end, and the first
two bytes of a surrogate.
-/

namespace GdbControl.Utf8

/-- Bytes with which the encoding of a character begins, and does not end. -/
def Incomplete (bytes : Bytes) : Prop :=
  bytes ≠ [] ∧ ∃ char more, more ≠ [] ∧ String.utf8EncodeChar char = bytes ++ more

/-- The first two bytes of the form of a surrogate. No encoding of a character begins with them. -/
def SurrogateStart (bytes : Bytes) : Prop :=
  ∃ second : UInt8, 0xA0 ≤ second ∧ second ≤ 0xBF ∧ bytes = [0xED, second]

/-- Bytes that wait for others. -/
def Begun (bytes : Bytes) : Prop := Incomplete bytes ∨ SurrogateStart bytes

/-- Bytes cut before what waits for others at their end. There is no other place for the cut. -/
structure Divides (bytes front rest : Bytes) : Prop where
  whole : bytes = front ++ rest
  begun : rest = [] ∨ Begun rest
  only : ∀ tail, tail <:+ bytes → Begun tail → tail = rest

section Sequences

/-- A byte that continues a character. -/
def Tail (byte : UInt8) : Prop := 0x80 ≤ byte.toNat ∧ byte.toNat ≤ 0xBF

/-- The sequences of several bytes that stand for a character. -/
inductive Sequence : Bytes → Prop where
  | two {a b : UInt8} (lead : 0xC2 ≤ a.toNat ∧ a.toNat ≤ 0xDF) (second : Tail b) : Sequence [a, b]
  | three {a b c : UInt8} (lead : 0xE0 ≤ a.toNat ∧ a.toNat ≤ 0xEF) (second : Tail b)
    (long : a.toNat = 0xE0 → 0xA0 ≤ b.toNat) (plain : a.toNat = 0xED → b.toNat ≤ 0x9F)
    (third : Tail c) : Sequence [a, b, c]
  | four {a b c d : UInt8} (lead : 0xF0 ≤ a.toNat ∧ a.toNat ≤ 0xF4) (second : Tail b)
    (long : a.toNat = 0xF0 → 0x90 ≤ b.toNat) (bounded : a.toNat = 0xF4 → b.toNat ≤ 0x8F)
    (third : Tail c) (fourth : Tail d) : Sequence [a, b, c, d]

theorem encode_eq (char : Char) : String.utf8EncodeChar char =
    if char.toNat ≤ 0x7F then [.ofNat char.toNat]
    else if char.toNat ≤ 0x7FF then
      [.ofNat (char.toNat / 64 % 32 + 192), .ofNat (char.toNat % 64 + 128)]
    else if char.toNat ≤ 0xFFFF then
      [.ofNat (char.toNat / 4096 % 16 + 224), .ofNat (char.toNat / 64 % 64 + 128),
        .ofNat (char.toNat % 64 + 128)]
    else
      [.ofNat (char.toNat / 262144 % 8 + 240), .ofNat (char.toNat / 4096 % 64 + 128),
        .ofNat (char.toNat / 64 % 64 + 128), .ofNat (char.toNat % 64 + 128)] := rfl

theorem tail_of_bits (bits : Nat) : Tail (.ofNat (bits % 64 + 128)) := by
  simp only [Tail, UInt8.toNat_ofNat']
  omega

theorem sequence_of_char (char : Char) :
    (∃ byte, String.utf8EncodeChar char = [byte]) ∨ Sequence (String.utf8EncodeChar char) := by
  have valid : char.toNat < 0xD800 ∨ 0xDFFF < char.toNat ∧ char.toNat < 0x110000 := char.valid
  rw [encode_eq]
  split
  · exact .inl ⟨_, rfl⟩
  right
  split
  · refine .two ?_ (tail_of_bits _)
    simp only [UInt8.toNat_ofNat']
    omega
  split
  · refine .three ?_ (tail_of_bits _) ?_ ?_ (tail_of_bits _) <;>
      simp only [UInt8.toNat_ofNat'] <;>
      omega
  · refine .four ?_ (tail_of_bits _) ?_ ?_ (tail_of_bits _) (tail_of_bits _) <;>
      simp only [UInt8.toNat_ofNat'] <;>
      omega

theorem code_of_valid {code : Nat} (valid : code < 0xD800 ∨ 0xDFFF < code ∧ code < 0x110000) :
    (Char.ofNat code).toNat = code := by
  have valid' : code.isValidChar := valid
  rw [Char.ofNat, dif_pos valid']
  rfl

/-- What the reader makes of a sequence is the character that is encoded so. -/
theorem encode_of_sequence {bytes : Bytes} (sequence : Sequence bytes) :
    String.utf8EncodeChar (character bytes) = bytes := by
  cases sequence with
  | two lead second =>
    simp only [Tail] at second
    rw [character, encode_eq, code_of_valid (by omega), if_neg (by omega), if_pos (by omega)]
    simp only [List.cons.injEq, and_true, ← UInt8.toNat_inj, UInt8.toNat_ofNat']
    omega
  | three lead second long plain third =>
    simp only [Tail] at second third
    rw [character, encode_eq, code_of_valid (by omega), if_neg (by omega), if_neg (by omega),
      if_pos (by omega)]
    simp only [List.cons.injEq, and_true, ← UInt8.toNat_inj, UInt8.toNat_ofNat']
    omega
  | four lead second long bounded third fourth =>
    simp only [Tail] at second third fourth
    rw [character, encode_eq, code_of_valid (by omega), if_neg (by omega), if_neg (by omega),
      if_neg (by omega)]
    simp only [List.cons.injEq, and_true, ← UInt8.toNat_inj, UInt8.toNat_ofNat']
    omega

end Sequences

section Continuations

theorem after_lead_eq (lead : UInt8) : afterLead? lead =
    if lead.toNat < 0xC2 then none
    else if lead.toNat ≤ 0xDF then some ⟨0x80, 0xBF, 0⟩
    else if lead.toNat = 0xE0 then some ⟨0xA0, 0xBF, 1⟩
    else if lead.toNat ≤ 0xEF then some ⟨0x80, 0xBF, 1⟩
    else if lead.toNat = 0xF0 then some ⟨0x90, 0xBF, 2⟩
    else if lead.toNat ≤ 0xF3 then some ⟨0x80, 0xBF, 2⟩
    else if lead.toNat = 0xF4 then some ⟨0x80, 0x8F, 2⟩
    else none := by
  simp [afterLead?, UInt8.lt_iff_toNat_lt, UInt8.le_iff_toNat_le, ← UInt8.toNat_inj]

theorem admits_iff (next : Continuation) (byte : UInt8) :
    next.admits byte = true ↔ next.low.toNat ≤ byte.toNat ∧ byte.toNat ≤ next.high.toNat := by
  simp [Continuation.admits, UInt8.le_iff_toNat_le]

variable {a b c : UInt8} {next : Continuation}

theorem after_lead_some (opens : afterLead? a = some next) :
    0xC2 ≤ a.toNat ∧ a.toNat ≤ 0xF4 ∧
      next.owed = (if a.toNat ≤ 0xDF then 0 else if a.toNat ≤ 0xEF then 1 else 2) ∧
      next.low.toNat = (if a.toNat = 0xE0 then 0xA0 else if a.toNat = 0xF0 then 0x90 else 0x80) ∧
      next.high.toNat = (if a.toNat = 0xF4 then 0x8F else 0xBF) := by
  rw [after_lead_eq] at opens
  repeat' split at opens
  all_goals cases opens
  all_goals simp
  all_goals grind

theorem second_admitted (least : 0xC2 ≤ a.toNat) (most : a.toNat ≤ 0xF4) (second : Tail b)
    (three : a.toNat = 0xE0 → 0xA0 ≤ b.toNat) (four : a.toNat = 0xF0 → 0x90 ≤ b.toNat)
    (bounded : a.toNat = 0xF4 → b.toNat ≤ 0x8F) :
    ∃ next, afterLead? a = some next ∧ next.admits b = true ∧
      next.owed = (if a.toNat ≤ 0xDF then 0 else if a.toNat ≤ 0xEF then 1 else 2) := by
  have opens : (afterLead? a).isSome := by
    rw [after_lead_eq]
    repeat' split
    all_goals first | rfl | omega
  obtain ⟨next, opens⟩ := Option.isSome_iff_exists.mp opens
  obtain ⟨-, -, owed, low, high⟩ := after_lead_some opens
  refine ⟨next, opens, ?_, owed⟩
  rw [admits_iff, low, high]
  obtain ⟨above, below⟩ := second
  constructor <;> repeat' split
  all_goals omega

theorem next_second (plain : a.toNat = 0xED → b.toNat ≤ 0x9F) :
    next? [a, b] = some ⟨0x80, 0xBF, if a < 0xF0 then 0 else 1⟩ := by
  have whole : isSurrogateStart [a, b] = false := by
    refine Bool.eq_false_iff.mpr fun surrogate => ?_
    simp only [isSurrogateStart, Bool.and_eq_true, beq_iff_eq, decide_eq_true_eq,
      UInt8.le_iff_toNat_le] at surrogate
    obtain ⟨rfl, second⟩ := surrogate
    exact absurd (plain rfl) (Nat.not_le.mpr second)
  simp [next?, whole]

theorem second_large (found : next? [a, b] = some next) (owed : next.owed ≠ 0) :
    0xF0 ≤ a.toNat ∧ next.low = 0x80 ∧ next.high = 0xBF := by
  unfold next? at found
  split at found
  · cases found
  · cases found
    refine ⟨Nat.le_of_not_lt fun short => ?_, rfl, rfl⟩
    exact owed (if_pos (UInt8.lt_iff_toNat_lt.mpr short))

theorem surrogate_of_admitted (opens : afterLead? a = some next) (admitted : next.admits b = true)
    (surrogate : ¬ (a.toNat = 0xED → b.toNat ≤ 0x9F)) : SurrogateStart [a, b] := by
  obtain ⟨lead, second⟩ := Classical.not_imp.mp surrogate
  obtain ⟨-, -, -, -, high⟩ := after_lead_some opens
  obtain ⟨-, below⟩ := (admits_iff next b).mp admitted
  obtain rfl : a = 0xED := UInt8.toNat_inj.mp lead
  refine ⟨b, UInt8.le_iff_toNat_le.mpr ?_, UInt8.le_iff_toNat_le.mpr ?_, rfl⟩ <;> grind

end Continuations

section Completing

variable {a b c : UInt8} {next : Continuation}

theorem tail_least : Tail 0x80 := ⟨by decide, by decide⟩

theorem third_completed (opens : afterLead? a = some next) (admitted : next.admits b = true)
    (large : 0xF0 ≤ a.toNat) (third : Tail c) : Sequence [a, b, c, 0x80] := by
  obtain ⟨-, most, -, low, high⟩ := after_lead_some opens
  obtain ⟨above, below⟩ := (admits_iff next b).mp admitted
  refine .four ⟨large, most⟩ ⟨?_, ?_⟩ ?_ ?_ third tail_least <;> grind

-- With the least bytes that may follow.
theorem second_completed (opens : afterLead? a = some next) (admitted : next.admits b = true)
    (plain : a.toNat = 0xED → b.toNat ≤ 0x9F) :
    ∃ more, Sequence ([a, b] ++ more) ∧ (next.owed ≠ 0 → more ≠ []) := by
  obtain ⟨least, most, owed, low, high⟩ := after_lead_some opens
  obtain ⟨above, below⟩ := (admits_iff next b).mp admitted
  by_cases two : a.toNat ≤ 0xDF
  · refine ⟨[], .two ⟨least, two⟩ ⟨?_, ?_⟩, ?_⟩ <;> grind
  by_cases three : a.toNat ≤ 0xEF
  · refine ⟨[0x80], .three ⟨by omega, three⟩ ⟨?_, ?_⟩ ?_ plain tail_least, by simp⟩ <;> grind
  · exact ⟨[0x80, 0x80], third_completed opens admitted (by omega) tail_least, by simp⟩

theorem first_completed (opens : afterLead? a = some next) :
    ∃ more, more ≠ [] ∧ Sequence ([a] ++ more) := by
  obtain ⟨least, most, owed, low, high⟩ := after_lead_some opens
  have admitted : next.admits next.low = true := by
    rw [admits_iff]
    grind
  obtain ⟨more, sequence, -⟩ := second_completed opens admitted (by grind)
  exact ⟨next.low :: more, by simp, sequence⟩

end Completing

section Held

variable {held rest bytes : Bytes} {byte : UInt8} {next : Continuation}

-- A byte of which no text is made opens a character, or continues one and does not complete it.
theorem silent_step (silent : (step held byte).1 = []) :
    (held = [] ∧ ∃ next, afterLead? byte = some next) ∨
      ∃ next, next? held = some next ∧ next.admits byte = true ∧ next.owed ≠ 0 := by
  unfold step at silent
  split at silent
  · next next admitted =>
    obtain ⟨found, admits⟩ := Option.filter_eq_some_iff.mp admitted
    split at silent
    · cases silent
    · next owed => exact .inr ⟨next, found, admits, owed⟩
  · obtain ⟨whole, begun⟩ := List.append_eq_nil_iff.mp silent
    refine .inl ⟨?_, ?_⟩
    · unfold broken at whole
      split at whole
      · next empty => exact List.isEmpty_iff.mp empty
      · split at whole <;> cases whole
    · unfold start at begun
      split at begun
      · cases begun
      · split at begun
        · next opens => exact Option.isSome_iff_exists.mp opens
        · cases begun

theorem silent_cons (silent : (run held (byte :: rest)).1 = []) :
    (step held byte).1 = [] ∧ (run (held ++ [byte]) rest).1 = [] := by
  obtain ⟨now, later⟩ := List.append_eq_nil_iff.mp silent
  rw [step_silent now] at later
  exact ⟨now, later⟩

theorem silent_first (silent : (step [] byte).1 = []) : ∃ next, afterLead? byte = some next := by
  obtain ⟨-, opens⟩ | ⟨next, found, -⟩ := silent_step silent
  · exact opens
  · cases found

/-- Held bytes can be completed to a character, unless they begin a surrogate. -/
theorem unfinished_cases (unfinished : Unfinished bytes) :
    bytes = [] ∨ SurrogateStart bytes ∨ ∃ more, more ≠ [] ∧ Sequence (bytes ++ more) := by
  have silent : (run [] bytes).1 = [] := congrArg Prod.fst unfinished
  match bytes, silent with
  | [], _ => exact .inl rfl
  | a :: rest, silent =>
    right
    obtain ⟨now, later⟩ := silent_cons silent
    obtain ⟨next, opens⟩ := silent_first now
    match rest, later with
    | [], _ => exact .inr (first_completed opens)
    | b :: rest, later =>
      obtain ⟨now, later⟩ := silent_cons later
      obtain ⟨empty, -⟩ | ⟨next', found, admitted, owed⟩ := silent_step now
      · cases empty
      obtain rfl : next' = next := Option.some.inj (found.symm.trans opens)
      match rest, later with
      | [], _ =>
        by_cases plain : a.toNat = 0xED → b.toNat ≤ 0x9F
        · obtain ⟨more, sequence, some_⟩ := second_completed opens admitted plain
          exact .inr ⟨more, some_ owed, sequence⟩
        · exact .inl (surrogate_of_admitted opens admitted plain)
      | c :: rest, later =>
        obtain ⟨now, later⟩ := silent_cons later
        obtain ⟨empty, -⟩ | ⟨next', found, third, owed⟩ := silent_step now
        · cases empty
        obtain ⟨large, low, high⟩ := second_large found owed
        rw [admits_iff, low, high] at third
        match rest, later with
        | [], _ => exact .inr ⟨[0x80], by simp, third_completed opens admitted large third⟩
        | d :: rest, later =>
          -- A fourth byte completes the character, or text is made of what is held.
          obtain ⟨now, -⟩ := silent_cons later
          obtain ⟨empty, -⟩ | ⟨next', found, -, owed⟩ := silent_step now
          · cases empty
          · cases found
            exact absurd rfl owed

-- A byte that opens a character does not continue one.
theorem lead_not_admitted (opens : afterLead? byte = some next) (held : Bytes) :
    (next? held).filter (·.admits byte) = none := by
  have least := (after_lead_some opens).1
  have outside {other : Continuation} (low : other.high.toNat ≤ 0xBF) :
      other.admits byte = false := by
    refine Bool.eq_false_iff.mpr fun admitted => ?_
    have below := ((admits_iff other byte).mp admitted).2
    omega
  cases found : next? held with
  | none => rfl
  | some other =>
    have low : other.high.toNat ≤ 0xBF := by
      unfold next? at found
      split at found
      · cases found
      · split at found
        · rw [(after_lead_some found).2.2.2.2]
          split <;> decide
        · cases found
          exact Nat.le_refl _
        · cases found
          exact Nat.le_refl _
        · cases found
    simp [outside low]

theorem step_lead (opens : afterLead? byte = some next) : step [] byte = ([], [byte]) := by
  have high : ¬ byte < 0x80 := by
    have least := (after_lead_some opens).1
    exact UInt8.not_lt.mpr (UInt8.le_iff_toNat_le.mpr (Nat.le_trans (by decide) least))
  have anew : (next? []).filter (·.admits byte) = none := rfl
  simp [step, anew, broken, start, high, opens]

theorem step_more (found : next? held = some next) (admitted : next.admits byte = true)
    (owed : next.owed ≠ 0) : step held byte = ([], held ++ [byte]) := by
  simp [step, found, Option.filter, admitted, owed]

theorem step_last (found : next? held = some next) (admitted : next.admits byte = true)
    (last : next.owed = 0) : step held byte = ([character (held ++ [byte])], []) := by
  simp [step, found, Option.filter, admitted, last]

/-- A sequence is read as its character, and nothing is held then. -/
theorem run_sequence (sequence : Sequence bytes) : run [] bytes = ([character bytes], []) := by
  have last {held : Bytes} {byte : UInt8} (found : next? held = some ⟨0x80, 0xBF, 0⟩)
      (tail : Tail byte) : step held byte = ([character (held ++ [byte])], []) :=
    step_last found ((admits_iff _ byte).mpr tail) rfl
  cases sequence with
  | @two a b lead second =>
    obtain ⟨next, opens, admitted, owed⟩ :=
      second_admitted lead.1 (by omega) second (by omega) (by omega) (by omega)
    rw [if_pos lead.2] at owed
    have found : next? [a] = some next := opens
    simp [run, step_lead opens, step_last found admitted owed]
  | @three a b c lead second long plain third =>
    obtain ⟨next, opens, admitted, owed⟩ :=
      second_admitted (by omega) (by omega) second long (by omega) (by omega)
    have more : next.owed ≠ 0 := by rw [owed, if_neg (by omega), if_pos lead.2]; decide
    have short : a < 0xF0 := UInt8.lt_iff_toNat_lt.mpr (Nat.lt_succ_of_le lead.2)
    have found : next? [a, b] = some ⟨0x80, 0xBF, 0⟩ := by rw [next_second plain, if_pos short]
    have begun : step [a] b = ([], [a, b]) := step_more opens admitted more
    simp [run, step_lead opens, begun, last found third]
  | @four a b c d lead second long bounded third fourth =>
    obtain ⟨next, opens, admitted, owed⟩ :=
      second_admitted (by omega) lead.2 second (by omega) long bounded
    have more : next.owed ≠ 0 := by rw [owed, if_neg (by omega), if_neg (by omega)]; decide
    have large : ¬ a < 0xF0 := UInt8.not_lt.mpr (UInt8.le_iff_toNat_le.mpr lead.1)
    have found : next? [a, b] = some ⟨0x80, 0xBF, 1⟩ := by
      rw [next_second (by omega), if_neg large]
    have begun : step [a] b = ([], [a, b]) := step_more opens admitted more
    have continued : step [a, b] c = ([], [a, b, c]) :=
      step_more found ((admits_iff _ c).mpr third) (by decide)
    have found' : next? [a, b, c] = some ⟨0x80, 0xBF, 0⟩ := rfl
    simp [run, step_lead opens, begun, continued, last found' fourth]

/-- What yields no text before a sequence is complete is held. -/
theorem unfinished_of_sequence {more : Bytes} (sequence : Sequence (bytes ++ more))
    (some : more ≠ []) : Unfinished bytes := by
  have whole := run_sequence sequence
  rw [run_append] at whole
  obtain ⟨spoken, kept⟩ := Prod.mk.inj whole
  cases early : (run [] bytes).1 with
  | nil => exact Prod.ext early (run_silent early)
  | cons char others =>
    -- The one character would come of the beginning, and the rest would be held at the end.
    rw [early] at spoken
    have late := (List.append_eq_nil_iff.mp (List.cons.inj spoken).2).2
    rw [run_silent late] at kept
    exact absurd (List.append_eq_nil_iff.mp kept).2 some

theorem unfinished_of_surrogate (surrogate : SurrogateStart bytes) : Unfinished bytes := by
  obtain ⟨second, above, below, rfl⟩ := surrogate
  have opens : afterLead? 0xED = some ⟨0x80, 0xBF, 1⟩ := rfl
  have admitted : (Continuation.mk 0x80 0xBF 1).admits second = true :=
    (admits_iff _ second).mpr
      ⟨Nat.le_trans (by decide) (UInt8.le_iff_toNat_le.mp above), UInt8.le_iff_toNat_le.mp below⟩
  have begun : step [0xED] second = ([], [0xED, second]) := step_more opens admitted (by decide)
  simp [Unfinished, run, step_lead opens, begun]

/-- The reader holds what waits for others, and nothing else. -/
theorem unfinished_iff : Unfinished bytes ↔ bytes = [] ∨ Begun bytes := by
  constructor
  · intro unfinished
    by_cases empty : bytes = []
    · exact .inl empty
    rcases unfinished_cases unfinished with none_ | surrogate | ⟨more, some, sequence⟩
    · exact absurd none_ empty
    · exact .inr (.inr surrogate)
    · exact .inr (.inl ⟨empty, character (bytes ++ more), more, some, encode_of_sequence sequence⟩)
  · rintro (rfl | ⟨-, char, more, some, encoded⟩ | surrogate)
    · exact unfinished_nil
    · rcases sequence_of_char char with ⟨byte, single⟩ | sequence
      · -- The encoding is one byte, so what comes before the rest of it is empty.
        rw [encoded, List.append_eq_singleton_iff] at single
        rcases single with ⟨rfl, -⟩ | ⟨-, empty⟩
        · exact unfinished_nil
        · exact absurd empty some
      · exact unfinished_of_sequence (encoded ▸ sequence) some
    · exact unfinished_of_surrogate surrogate

theorem unfinished_of_incomplete (incomplete : Incomplete bytes) : Unfinished bytes :=
  unfinished_iff.mpr (.inr (.inl incomplete))

theorem begun_length (begun : Begun bytes) : bytes.length ≤ 3 := by
  rcases begun with ⟨-, char, more, some, encoded⟩ | ⟨second, -, -, rfl⟩
  · have size := congrArg List.length encoded
    rw [String.length_utf8EncodeChar, List.length_append] at size
    have bound := Char.utf8Size_le_four char
    have least := List.length_pos_iff.mpr some
    omega
  · exact Nat.le_succ 2

/-- No character begins as a surrogate does. -/
theorem surrogate_not_incomplete (surrogate : SurrogateStart bytes) : ¬ Incomplete bytes := by
  rintro ⟨-, char, more, -, encoded⟩
  obtain ⟨second, above, -, rfl⟩ := surrogate
  have large : 0xA0 ≤ second.toNat := UInt8.le_iff_toNat_le.mp above
  rcases sequence_of_char char with ⟨byte, single⟩ | sequence
  · rw [encoded] at single
    cases single
  · rw [encoded] at sequence
    cases sequence with
    | two lead => exact absurd lead.2 (by decide)
    | three _ _ _ plain => exact absurd (plain rfl) (by omega)
    | four lead => exact absurd lead.1 (by decide)

theorem begun_some (begun : Begun bytes) : bytes ≠ [] := by
  rcases begun with ⟨some, -⟩ | ⟨second, -, -, rfl⟩
  · exact some
  · exact List.cons_ne_nil _ _

end Held

section Dividing

variable {held tail : Bytes}

/-- What waits for others is held, whatever was held before it. -/
theorem run_begun (begun : Begun tail) (held : Bytes) : run held tail = (broken held, tail) := by
  have kept : Unfinished tail := unfinished_iff.mpr (.inr begun)
  cases tail with
  | nil => exact absurd rfl (begun_some begun)
  | cons lead rest =>
    obtain ⟨now, -⟩ := silent_cons (congrArg Prod.fst kept)
    obtain ⟨next, opens⟩ := silent_first now
    rw [run_refused (lead_not_admitted opens held), show run [] (lead :: rest) = _ from kept,
      List.append_nil]

theorem divides_short {bytes front rest : Bytes} (divides : Divides bytes front rest) :
    rest.length ≤ 3 := by
  rcases divides.begun with rfl | begun
  · exact Nat.zero_le 3
  · exact begun_length begun

/-- The text of an open decoding is that of all bytes but those that wait for others at the end. -/
theorem decode_open_divides (bytes : Bytes) :
    ∃ front, Divides bytes front (decodeOpen bytes).2 ∧ (decodeOpen bytes).1 = decode front := by
  obtain ⟨front, shown⟩ := run_suffix [] bytes
  have whole : bytes = front ++ (run [] bytes).2 := shown.symm
  have begun := unfinished_iff.mp (run_unfinished unfinished_nil bytes)
  refine ⟨front, ⟨whole, begun, ?_⟩, ?_⟩
  · rintro tail ⟨before, rfl⟩ waits
    change tail = (run [] (before ++ tail)).2
    rw [run_append, run_begun waits]
  · change String.ofList (run [] bytes).1 = String.ofList (characters front)
    congr 1
    rcases begun with none_ | waits
    · rw [none_, List.append_nil] at whole
      rw [characters, ← whole, none_]
      exact (List.append_nil _).symm
    · conv => lhs; rw [whole]
      rw [run_append, run_begun waits]
      rfl

end Dividing

end GdbControl.Utf8
