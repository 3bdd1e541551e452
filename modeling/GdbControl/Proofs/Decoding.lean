import GdbControl.Proofs.Sequences
import GdbControl.Stream
import Mathlib.Data.Nat.Find

/-!
What decoding makes of any bytes, told by the encoding of characters and not by the reader. Where the
encoding of a character stands, that character is read. Elsewhere the longest part that begins the
encoding of some character, or else a single byte, is replaced by U+FFFD, and reading goes on after it.
-/

namespace GdbControl.Utf8

/-- Where no character stands, the part of the bytes that is replaced as a whole. -/
structure Replaced (part bytes : Bytes) : Prop where
  unreadable : ∀ char, ¬ String.utf8EncodeChar char <+: bytes
  begins : part <+: bytes
  fit : Incomplete part ∨ part.length = 1
  longest : ∀ other, other <+: bytes → Incomplete other → other.length ≤ part.length

/-- Bytes and the text they stand for. -/
inductive Decodes : Bytes → List Char → Prop where
  | nil : Decodes [] []
  | char (char : Char) {rest : Bytes} {text : List Char} (more : Decodes rest text) :
    Decodes (String.utf8EncodeChar char ++ rest) (char :: text)
  | replaced {part rest : Bytes} {text : List Char} (replaced : Replaced part (part ++ rest))
    (more : Decodes rest text) : Decodes (part ++ rest) ('\uFFFD' :: text)

section Reading

variable {held part rest bytes : Bytes} {byte : UInt8}

theorem encode_injective {first second : Char}
    (same : String.utf8EncodeChar first = String.utf8EncodeChar second) : first = second := by
  have read (char : Char) :=
    ByteArray.utf8DecodeChar?_utf8EncodeChar_append (b := .empty) (c := char)
  have found := read first
  rw [same, read second] at found
  exact (Option.some.inj found).symm

theorem encode_ascii {char : Char} (single : String.utf8EncodeChar char = [byte]) :
    byte < 0x80 ∧ character [byte] = char := by
  rw [encode_eq] at single
  repeat' split at single
  · next small =>
    obtain rfl := List.singleton_inj.mp single
    have value : (UInt8.ofNat char.toNat).toNat = char.toNat := by
      rw [UInt8.toNat_ofNat']
      omega
    refine ⟨UInt8.lt_iff_toNat_lt.mpr ?_, ?_⟩
    · rw [value]
      exact Nat.lt_succ_of_le small
    · rw [character, value, Char.ofNat_toNat]
  all_goals cases single

/-- Of the encoding of a character that character is read, and nothing is held then. -/
theorem run_encoded (char : Char) : run [] (String.utf8EncodeChar char) = ([char], []) := by
  rcases sequence_of_char char with ⟨byte, single⟩ | sequence
  · obtain ⟨ascii, same⟩ := encode_ascii single
    rw [single]
    simp [run, step_ascii [] ascii, broken, same]
  · rw [run_sequence sequence, encode_injective (encode_of_sequence sequence)]

theorem characters_encoded (char : Char) (rest : Bytes) :
    characters (String.utf8EncodeChar char ++ rest) = char :: characters rest := by
  simp [characters, run_append, run_encoded]

-- What is held is given up where no byte that continues it follows.
theorem characters_held (unfinished : Unfinished held)
    (refused : ∀ byte, rest.head? = some byte → (next? held).filter (·.admits byte) = none) :
    characters (held ++ rest) = broken held ++ characters rest := by
  have kept : run [] held = ([], held) := unfinished
  cases rest with
  | nil => simp [characters, kept, run, broken]
  | cons byte rest => simp [characters, run_append, kept, run_refused (refused byte rfl)]

-- The byte with which the reader completes a character completes its encoding.
theorem sequence_of_last {more : Bytes} (sequence : Sequence (held ++ more)) (others : more ≠ [])
    {next : Continuation} (found : next? held = some next) (admitted : next.admits byte = true)
    (last : next.owed = 0) : Sequence (held ++ [byte]) := by
  match held, sequence with
  | [a], _ =>
    obtain ⟨least, most, owed, low, high⟩ := after_lead_some found
    obtain ⟨above, below⟩ := (admits_iff next byte).mp admitted
    refine .two ⟨least, ?_⟩ ⟨?_, ?_⟩ <;> grind
  | [a, b], sequence =>
    unfold next? at found
    split at found
    · cases found
    · cases found
      have tail : Tail byte := (admits_iff _ byte).mp admitted
      cases sequence with
      | two => exact absurd rfl others
      | three lead second long plain third => exact .three lead second long plain tail
      | four lead =>
        have large : ¬ a < 0xF0 := UInt8.not_lt.mpr (UInt8.le_iff_toNat_le.mpr lead.1)
        exact absurd last (by simp [large])
  | [a, b, c], sequence =>
    cases found
    have tail : Tail byte := (admits_iff _ byte).mp admitted
    cases sequence with
    | three => exact absurd rfl others
    | four lead second long bounded third fourth => exact .four lead second long bounded third tail

theorem incomplete_sequence (incomplete : Incomplete held) :
    ∃ more, more ≠ [] ∧ Sequence (held ++ more) := by
  rcases unfinished_cases (unfinished_of_incomplete incomplete) with empty | surrogate | completed
  · exact absurd empty incomplete.1
  · exact absurd incomplete (surrogate_not_incomplete surrogate)
  · exact completed

theorem encode_of_ascii (ascii : byte < 0x80) : ∃ char, String.utf8EncodeChar char = [byte] := by
  have small : byte.toNat < 0x80 := UInt8.lt_iff_toNat_lt.mp ascii
  refine ⟨Char.ofNat byte.toNat, ?_⟩
  rw [encode_eq, code_of_valid (by omega), if_pos (by omega), UInt8.ofNat_toNat]

end Reading

section Replacing

variable {held part rest bytes : Bytes} {byte : UInt8}

-- A byte that no character begins with is replaced alone.
theorem characters_stray (high : ¬ byte < 0x80) (stray : afterLead? byte = none) (rest : Bytes) :
    characters (byte :: rest) = '\uFFFD' :: characters rest := by
  have anew : (next? []).filter (·.admits byte) = none := rfl
  simp [characters, run, step, anew, broken, start, high, stray]

theorem broken_incomplete (incomplete : Incomplete held) : broken held = ['\uFFFD'] := by
  have plain : isSurrogateStart held = false := by
    refine Bool.eq_false_iff.mpr fun surrogate => ?_
    obtain ⟨more, others, sequence⟩ := incomplete_sequence incomplete
    unfold isSurrogateStart at surrogate
    split at surrogate
    · next lead second =>
      simp only [Bool.and_eq_true, beq_iff_eq, decide_eq_true_eq, UInt8.le_iff_toNat_le] at surrogate
      obtain ⟨rfl, above⟩ := surrogate
      cases sequence with
      | two lead => exact absurd lead.2 (by decide)
      | three _ _ _ plain => exact absurd (plain rfl) (Nat.not_le.mpr above)
      | four lead => exact absurd lead.1 (by decide)
    · cases surrogate
  simp [broken, plain, incomplete.1]

/-- The first two bytes of a surrogate are replaced one by one. -/
theorem characters_surrogate (surrogate : SurrogateStart held) (rest : Bytes) :
    characters (held ++ rest) = '\uFFFD' :: '\uFFFD' :: characters rest := by
  have unfinished := unfinished_of_surrogate surrogate
  obtain ⟨second, above, below, rfl⟩ := surrogate
  have whole : isSurrogateStart [0xED, second] = true := by simp [isSurrogateStart, above]
  rw [characters_held unfinished fun byte _ => by simp [next?, whole]]
  simp [broken, whole]

theorem characters_surrogate_tail {second : UInt8} (above : 0xA0 ≤ second) (below : second ≤ 0xBF)
    (rest : Bytes) : characters (second :: rest) = '\uFFFD' :: characters rest := by
  have least : 0xA0 ≤ second.toNat := UInt8.le_iff_toNat_le.mp above
  have most : second.toNat ≤ 0xBF := UInt8.le_iff_toNat_le.mp below
  refine characters_stray (fun ascii => ?_) ?_ rest
  · have small : second.toNat < 0x80 := UInt8.lt_iff_toNat_lt.mp ascii
    omega
  · rw [after_lead_eq, if_pos (by omega)]

-- Else a character would stand there, or a longer part would begin one.
theorem replaced_refuses (replaced : Replaced part (part ++ rest)) (incomplete : Incomplete part)
    (first : rest.head? = some byte) (plain : ¬ SurrogateStart (part ++ [byte])) :
    (next? part).filter (·.admits byte) = none := by
  obtain ⟨tail, rfl⟩ := List.head?_eq_some_iff.mp first
  have longer : part ++ [byte] <+: part ++ byte :: tail := ⟨tail, by simp⟩
  refine Option.eq_none_iff_forall_ne_some.mpr fun next continued => ?_
  obtain ⟨found, admitted⟩ := Option.filter_eq_some_iff.mp continued
  by_cases last : next.owed = 0
  · obtain ⟨more, others, sequence⟩ := incomplete_sequence incomplete
    have complete := sequence_of_last sequence others found admitted last
    refine replaced.unreadable (character (part ++ [byte])) ?_
    rw [encode_of_sequence complete]
    exact longer
  · have unfinished := step_unfinished (unfinished_of_incomplete incomplete) byte
    rw [step_more found admitted last] at unfinished
    rcases unfinished_iff.mp unfinished with empty | more | surrogate
    · simp at empty
    · have size := replaced.longest _ longer more
      rw [List.length_append, List.length_singleton] at size
      omega
    · exact plain surrogate

theorem characters_replaced (replaced : Replaced part (part ++ rest)) :
    characters (part ++ rest) = '\uFFFD' :: characters rest := by
  by_cases incomplete : Incomplete part
  · by_cases surrogate : ∃ byte, rest.head? = some byte ∧ SurrogateStart (part ++ [byte])
    · -- The reader holds one byte more than the part that is replaced.
      obtain ⟨byte, first, starts⟩ := surrogate
      obtain ⟨tail, rfl⟩ := List.head?_eq_some_iff.mp first
      have split := characters_surrogate starts tail
      obtain ⟨second, above, below, shape⟩ := starts
      have pair : part ++ [byte] = [0xED] ++ [second] := shape
      obtain rfl := List.singleton_inj.mp (List.append_inj_right' pair rfl)
      rw [characters_surrogate_tail above below]
      simpa using split
    · rw [characters_held (unfinished_of_incomplete incomplete) fun byte first =>
          replaced_refuses replaced incomplete first fun starts => surrogate ⟨byte, first, starts⟩,
        broken_incomplete incomplete]
      rfl
  · obtain ⟨byte, rfl⟩ := List.length_eq_one_iff.mp (replaced.fit.resolve_left incomplete)
    refine characters_stray ?_ ?_ rest
    · intro ascii
      obtain ⟨char, encoded⟩ := encode_of_ascii ascii
      exact replaced.unreadable char (encoded ▸ List.prefix_append [byte] rest)
    · refine Option.eq_none_iff_forall_ne_some.mpr fun next opens => incomplete ?_
      obtain ⟨more, others, sequence⟩ := first_completed opens
      exact ⟨by simp, _, more, others, encode_of_sequence sequence⟩

end Replacing

section Determined

variable {bytes : Bytes} {text : List Char}

/-- Where no character stands, there is a part to be replaced. -/
theorem exists_replaced (some_ : bytes ≠ [])
    (unreadable : ∀ char, ¬ String.utf8EncodeChar char <+: bytes) :
    ∃ part rest, bytes = part ++ rest ∧ part ≠ [] ∧ Replaced part bytes := by
  classical
  let begins (size : Nat) : Prop := Incomplete (bytes.take size)
  let most := Nat.findGreatest begins bytes.length
  have bound (other : Bytes) (first : other <+: bytes) (incomplete : Incomplete other) :
      other.length ≤ most := by
    refine Nat.le_findGreatest first.length_le ?_
    change Incomplete (bytes.take other.length)
    rwa [← List.prefix_iff_eq_take.mp first]
  by_cases alone : most = 0
  · obtain ⟨byte, rest, rfl⟩ := List.exists_cons_of_ne_nil some_
    refine ⟨[byte], rest, rfl, List.cons_ne_nil _ _, unreadable, ⟨rest, rfl⟩, .inr rfl,
      fun other first incomplete => ?_⟩
    exact Nat.le_trans (bound other first incomplete) (alone ▸ Nat.zero_le _)
  · have incomplete : Incomplete (bytes.take most) := Nat.findGreatest_of_ne_zero rfl alone
    have within : (bytes.take most).length = most :=
      List.length_take_of_le (Nat.findGreatest_le bytes.length)
    refine ⟨bytes.take most, bytes.drop most, (List.take_append_drop most bytes).symm, incomplete.1,
      unreadable, List.take_prefix most bytes, .inl incomplete, fun other first more => ?_⟩
    rw [within]
    exact bound other first more

theorem characters_of_decodes (decodes : Decodes bytes text) : characters bytes = text := by
  induction decodes with
  | nil => rfl
  | char char _ ih => rw [characters_encoded, ih]
  | replaced replaced _ ih => rw [characters_replaced replaced, ih]

theorem decodes_characters (bytes : Bytes) : Decodes bytes (characters bytes) := by
  induction size : bytes.length using Nat.strong_induction_on generalizing bytes with
  | _ size ih =>
    subst size
    by_cases empty : bytes = []
    · subst empty
      exact .nil
    by_cases readable : ∃ char, String.utf8EncodeChar char <+: bytes
    · obtain ⟨char, rest, rfl⟩ := readable
      rw [characters_encoded]
      refine .char char (ih _ ?_ rest rfl)
      have some_ := List.length_pos_iff.mpr (String.utf8EncodeChar_ne_nil (c := char))
      rw [List.length_append]
      omega
    · obtain ⟨part, rest, rfl, some_, replaced⟩ := exists_replaced empty (not_exists.mp readable)
      rw [characters_replaced replaced]
      refine .replaced replaced (ih _ ?_ rest rfl)
      have size := List.length_pos_iff.mpr some_
      rw [List.length_append]
      omega

/-- The reader makes of any bytes the text they stand for. -/
theorem characters_iff : characters bytes = text ↔ Decodes bytes text :=
  ⟨fun same => same ▸ decodes_characters bytes, characters_of_decodes⟩

end Determined

section Cuts

/-- A newline is read as one, and what stands before and after it is read alone. -/
theorem decode_cut_newline (before rest : Bytes) :
    decode (before ++ Stream.newline :: rest) = decode before ++ "\n" ++ decode rest := by
  have single : characters (Stream.newline :: rest) = '\n' :: characters rest :=
    characters_encoded '\n' rest
  rw [decode_cut_ascii before rest (by decide), String.append_assoc]
  congr 1
  rw [decode, single, String.ofList_cons]
  rfl

end Cuts

/-- Bytes may be cut at any newline and decoded piece by piece. They may be cut anywhere else if what
the reader holds at the cut, which is at most three bytes, stays with what follows. What the pieces are
decoded to is told by the encoding of characters: each of them is read where it stands, and every
longest part that begins one and does not end is replaced, as is every byte that begins none. -/
theorem decoding_respects_cuts :
    (∀ before rest : Bytes,
      decode (before ++ Stream.newline :: rest) = decode before ++ "\n" ++ decode rest) ∧
      (∀ before rest : Bytes,
        (decodeOpen before).2 <:+ before ∧ (decodeOpen before).2.length ≤ 3 ∧
          (decodeOpen before).1 ++ decode ((decodeOpen before).2 ++ rest) = decode (before ++ rest)) ∧
      ∀ (bytes : Bytes) (text : String), decode bytes = text ↔ Decodes bytes text.toList := by
  refine ⟨decode_cut_newline, fun before rest => ?_, fun bytes text => ?_⟩
  · obtain ⟨front, divides, -⟩ := decode_open_divides before
    exact ⟨⟨front, divides.whole.symm⟩, divides_short divides, (decode_cut_open before rest).symm⟩
  · rw [← characters_iff, decode, ← String.toList_inj, String.toList_ofList]

end GdbControl.Utf8
