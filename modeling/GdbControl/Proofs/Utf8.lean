import GdbControl.Text.Utf8

/-!
Where a stretch of bytes may be cut and still be decoded piece by piece. A byte below 0x80 never
continues a character, so a cut before one is always safe. A cut elsewhere is safe if the bytes of
the unfinished character stay with what follows.
-/

namespace GdbControl.Utf8

/-- Bytes of an unfinished character, and nothing else. -/
def Unfinished (held : Bytes) : Prop := run [] held = ([], held)

theorem continuation_not_ascii {held : Bytes} {next : Continuation} (found : next? held = some next) :
    0x80 ≤ next.low := by
  unfold next? afterLead? at found
  split at found
  · cases found
  · repeat' split at found
    all_goals cases found
    all_goals decide

theorem ascii_not_admitted (held : Bytes) {byte : UInt8} (ascii : byte < 0x80) :
    (next? held).filter (·.admits byte) = none := by
  cases found : next? held with
  | none => rfl
  | some next =>
    have low := continuation_not_ascii found
    have outside : ¬ next.low ≤ byte := UInt8.not_le.mpr (UInt8.lt_of_lt_of_le ascii low)
    simp [Continuation.admits, outside]

theorem step_ascii (held : Bytes) {byte : UInt8} (ascii : byte < 0x80) :
    step held byte = (broken held ++ [character [byte]], []) := by
  simp [step, ascii_not_admitted held ascii, start, ascii]

-- A byte that does not continue what is held is read as if nothing were held.
theorem run_refused {held : Bytes} {byte : UInt8}
    (refused : (next? held).filter (·.admits byte) = none) (rest : Bytes) :
    run held (byte :: rest) =
      (broken held ++ (run [] (byte :: rest)).1, (run [] (byte :: rest)).2) := by
  have anew : (next? []).filter (·.admits byte) = none := rfl
  simp [run, step, refused, anew, broken]

theorem run_ascii (held rest : Bytes) {byte : UInt8} (ascii : byte < 0x80) :
    run held (byte :: rest) =
      (broken held ++ (run [] (byte :: rest)).1, (run [] (byte :: rest)).2) :=
  run_refused (ascii_not_admitted held ascii) rest

theorem characters_cut_ascii (before rest : Bytes) {byte : UInt8} (ascii : byte < 0x80) :
    characters (before ++ byte :: rest) = characters before ++ characters (byte :: rest) := by
  simp [characters, run_append, run_ascii (run [] before).2 rest ascii]

theorem decode_cut_ascii (before rest : Bytes) {byte : UInt8} (ascii : byte < 0x80) :
    decode (before ++ byte :: rest) = decode before ++ decode (byte :: rest) := by
  simp [decode, characters_cut_ascii before rest ascii, String.ofList_append]

theorem unfinished_nil : Unfinished [] := rfl

theorem start_unfinished (byte : UInt8) : Unfinished (start byte).2 := by
  unfold start
  split
  · exact unfinished_nil
  · next high =>
    split
    · next lead =>
      simp [Unfinished, run, step, next?, isSurrogateStart, broken, start, high, lead]
    · exact unfinished_nil

theorem step_unfinished {held : Bytes} (whole : Unfinished held) (byte : UInt8) :
    Unfinished (step held byte).2 := by
  cases admitted : (next? held).filter (·.admits byte) with
  | none => simpa [step, admitted] using start_unfinished byte
  | some next =>
    by_cases last : next.owed = 0
    · simpa [step, admitted, last] using unfinished_nil
    · have stepped : step held byte = ([], held ++ [byte]) := by simp [step, admitted, last]
      have reread : run [] held = ([], held) := whole
      simp [stepped, Unfinished, run_append, reread, run]

-- What is held after any bytes can be read again from the start without a loss.
theorem run_unfinished {held : Bytes} (whole : Unfinished held) (bytes : Bytes) :
    Unfinished (run held bytes).2 := by
  induction bytes generalizing held with
  | nil => exact whole
  | cons byte rest ih => exact ih (step_unfinished whole byte)

theorem characters_cut_open (before rest : Bytes) :
    characters (before ++ rest) =
      (run [] before).1 ++ characters ((run [] before).2 ++ rest) := by
  have reread : run [] (run [] before).2 = ([], (run [] before).2) :=
    run_unfinished unfinished_nil before
  simp [characters, run_append, reread]

theorem decode_cut_open (before rest : Bytes) :
    decode (before ++ rest) =
      (decodeOpen before).1 ++ decode ((decodeOpen before).2 ++ rest) := by
  simp [decode, decodeOpen, characters_cut_open before rest, String.ofList_append]

theorem step_suffix (held : Bytes) (byte : UInt8) : (step held byte).2 <:+ held ++ [byte] := by
  unfold step
  split
  · split
    · exact List.nil_suffix
    · exact List.suffix_rfl
  · unfold start
    split
    · exact List.nil_suffix
    · split
      · exact List.suffix_append held [byte]
      · exact List.nil_suffix

theorem run_suffix (held bytes : Bytes) : (run held bytes).2 <:+ held ++ bytes := by
  induction bytes generalizing held with
  | nil => simp [run]
  | cons byte rest ih =>
    obtain ⟨front, shown⟩ := step_suffix held byte
    have shorter : (step held byte).2 ++ rest <:+ held ++ byte :: rest := by
      refine ⟨front, ?_⟩
      rw [← List.append_assoc, shown, List.append_assoc, List.singleton_append]
    exact (ih (step held byte).2).trans shorter

-- The bytes that an open decoding turned into text.
theorem decode_open_split {bytes : Bytes} (spoken : (decodeOpen bytes).1 ≠ "") :
    ∃ front, front ≠ [] ∧ bytes = front ++ (decodeOpen bytes).2 := by
  obtain ⟨front, shown⟩ := run_suffix [] bytes
  refine ⟨front, ?_, shown.symm⟩
  rintro rfl
  have whole : (run [] bytes).2 = bytes := shown
  have silent : run [] bytes = ([], bytes) := by
    have kept := run_unfinished unfinished_nil bytes
    rw [whole] at kept
    exact kept
  exact spoken (by simp [decodeOpen, silent])

theorem step_silent {held : Bytes} {byte : UInt8} (silent : (step held byte).1 = []) :
    (step held byte).2 = held ++ [byte] := by
  unfold step at silent ⊢
  split at silent
  · split at silent
    · cases silent
    · next more => rw [if_neg more]
  · obtain ⟨whole, begun⟩ := List.append_eq_nil_iff.mp silent
    have none_ : held = [] := by
      unfold broken at whole
      split at whole
      · next empty => exact List.isEmpty_iff.mp empty
      · split at whole <;> cases whole
    unfold start at begun ⊢
    subst none_
    split at begun
    · cases begun
    · next high =>
      rw [if_neg high]
      split at begun
      · next lead => rw [if_pos lead]; rfl
      · cases begun

theorem run_silent {held bytes : Bytes} (silent : (run held bytes).1 = []) :
    (run held bytes).2 = held ++ bytes := by
  induction bytes generalizing held with
  | nil => simp [run]
  | cons byte rest ih =>
    obtain ⟨now, later⟩ := List.append_eq_nil_iff.mp silent
    change (run (step held byte).2 rest).2 = held ++ byte :: rest
    rw [ih later, step_silent now, List.append_assoc]
    rfl

-- Bytes of which an open decoding makes no text are all of one character.
theorem unfinished_of_silent {bytes : Bytes} (silent : (decodeOpen bytes).1 = "") :
    Unfinished bytes := by
  have nothing : (run [] bytes).1 = [] := by simpa [decodeOpen] using silent
  exact Prod.ext nothing (run_silent nothing)

-- An unfinished character holds no byte that is a character of its own.
theorem ascii_not_open {byte : UInt8} (ascii : byte < 0x80) (bytes : Bytes) :
    byte ∉ (decodeOpen bytes).2 := by
  intro present
  have kept : Unfinished (run [] bytes).2 := run_unfinished unfinished_nil bytes
  obtain ⟨front, back, shape⟩ := List.append_of_mem present
  change (run [] bytes).2 = front ++ byte :: back at shape
  rw [Unfinished, shape, run_append, run_ascii _ _ ascii] at kept
  have spoken := (Prod.mk.inj kept).1
  simp [run, step_ascii [] ascii] at spoken

end GdbControl.Utf8
