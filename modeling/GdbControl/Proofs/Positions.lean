import GdbControl.Proofs.Numerals
import GdbControl.Proofs.Runs

/-!
Positions in the source as gdb writes them. A position is read back as it was written, whatever colons
stand in the name of its file. What cannot be read is told by the text alone: it has too few colons, or
no integer stands where the line or the character should. A session ignores such a position.
-/

namespace GdbControl

namespace SourceLocation

/-- A text cut at its last four colons. -/
structure Parted (text file line character middle address : List Char) : Prop where
  whole : text = file ++ ':' :: (line ++ ':' :: (character ++ ':' :: (middle ++ ':' :: address)))
  line : ':' ∉ line
  character : ':' ∉ character
  middle : ':' ∉ middle
  address : ':' ∉ address

/-- A text that tells of a position. The name of the file is all that stands before the last four
colons; whatever else may be between them, the line and the character are written as integers. -/
def Tells (text : String) (location : SourceLocation) : Prop :=
  ∃ line character middle,
    Parted text.toList location.file.toList line character middle location.address.toList ∧
      Integer.Numeral line location.line ∧ Integer.Numeral character location.character ∧
      location.middle = decide (middle = "middle".toList)

/-- The parts of a text between its colons, from the last to the first. -/
def partsBack (text : String) : List (List Char) := (text.toList.splitOn ':').reverse

/-- A text that is no position: there are too few colons, or no integer is written between the third
and the second colon from the end, or between the fourth and the third. -/
def Malformed (text : String) : Prop :=
  text.toList.count ':' < 4 ∨
    ∃ part, ((partsBack text)[2]? = some part ∨ (partsBack text)[3]? = some part) ∧
      ∀ value, ¬ Integer.Numeral part value

section Parts

variable {text file line character middle address : List Char}

theorem parts?_eq_some_iff : parts? text = some (file, line, character, middle, address) ↔
    Parted text file line character middle address := by
  constructor
  · intro parted
    simp only [parts?, Option.bind_eq_bind, Option.bind_eq_some_iff, Option.some.injEq,
      Prod.mk.injEq, Prod.exists] at parted
    obtain ⟨rest, _, first, rest', _, second, rest'', _, third, _, _, fourth, rfl, rfl, rfl, rfl,
      rfl⟩ := parted
    obtain ⟨rfl, inAddress⟩ := eq_append_of_cutLast? first
    obtain ⟨rfl, inMiddle⟩ := eq_append_of_cutLast? second
    obtain ⟨rfl, inCharacter⟩ := eq_append_of_cutLast? third
    obtain ⟨rfl, inLine⟩ := eq_append_of_cutLast? fourth
    exact ⟨by simp, inLine, inCharacter, inMiddle, inAddress⟩
  · rintro ⟨rfl, inLine, inCharacter, inMiddle, inAddress⟩
    have cut (front : List Char) {back : List Char} (absent : ':' ∉ back) :
        cutLast? ':' (front ++ ':' :: back) = some (front, back) := cutLast?_append absent
    have first := cut (file ++ ':' :: (line ++ ':' :: (character ++ ':' :: middle))) inAddress
    have second := cut (file ++ ':' :: (line ++ ':' :: character)) inMiddle
    have third := cut (file ++ ':' :: line) inCharacter
    have fourth := cut file inLine
    simp only [List.append_assoc, List.cons_append] at first second third
    simp [parts?, first, second, third, fourth]

theorem cut_missing_iff {rest : List Char × List Char → Option β} {colons : Nat}
    (missing : ∀ before after, rest (before, after) = none ↔ before.count ':' < colons) :
    (cutLast? ':' text).bind rest = none ↔ text.count ':' < colons + 1 := by
  cases cut : cutLast? ':' text with
  | none => simp [List.count_eq_zero.mpr (cutLast?_eq_none_iff.mp cut)]
  | some parts =>
    obtain ⟨before, after⟩ := parts
    obtain ⟨rfl, absent⟩ := eq_append_of_cutLast? cut
    simp [missing, List.count_eq_zero.mpr absent]

theorem parts?_eq_none_iff : parts? text = none ↔ text.count ':' < 4 :=
  cut_missing_iff fun _ _ => cut_missing_iff fun _ _ => cut_missing_iff fun _ _ =>
    cut_missing_iff fun _ _ => by simp

theorem parts_back (parted : Parted text file line character middle address) :
    (text.splitOn ':').reverse =
      address :: middle :: character :: line :: (file.splitOn ':').reverse := by
  obtain ⟨rfl, inLine, inCharacter, inMiddle, inAddress⟩ := parted
  simp [List.splitOn_append_cons_self, List.splitOn_eq_singleton, inLine, inCharacter, inMiddle,
    inAddress]

end Parts

section Reading

variable {text : String} {location : SourceLocation} {file line character middle address : List Char}

theorem parse?_parted (parted : Parted text.toList file line character middle address) :
    parse? text = (Integer.parse? (String.ofList line)).bind fun line =>
      (Integer.parse? (String.ofList character)).bind fun character =>
        some ⟨String.ofList file, line, character, middle == "middle".toList, String.ofList address⟩ := by
  rw [parse?, parts?_eq_some_iff.mpr parted]
  rfl

theorem numeral_iff {part : List Char} {value : Int} :
    Integer.parse? (String.ofList part) = some value ↔ Integer.Numeral part value := by
  rw [Integer.parse?_eq_some_iff, String.toList_ofList]

/-- The reader finds in a text the position it tells of, and no other. -/
theorem parse?_eq_some_iff : parse? text = some location ↔ Tells text location := by
  constructor
  · intro read
    cases parts : parts? text.toList with
    | none =>
      rw [parse?, parts] at read
      cases read
    | some five =>
      obtain ⟨file, line, character, middle, address⟩ := five
      have parted := parts?_eq_some_iff.mp parts
      rw [parse?_parted parted] at read
      obtain ⟨lineAt, found, more⟩ := Option.bind_eq_some_iff.mp read
      obtain ⟨characterAt, found', same⟩ := Option.bind_eq_some_iff.mp more
      cases same
      refine ⟨line, character, middle, ?_, numeral_iff.mp found, numeral_iff.mp found', ?_⟩
      · rwa [String.toList_ofList, String.toList_ofList]
      · exact Bool.beq_eq_decide_eq _ _
  · rintro ⟨line, character, middle, parted, written, written', flag⟩
    rw [parse?_parted parted, numeral_iff.mpr written, numeral_iff.mpr written', Option.bind_some,
      Option.bind_some, String.ofList_toList, String.ofList_toList, Bool.beq_eq_decide_eq, ← flag]

theorem unread_iff {part : List Char} : Integer.parse? (String.ofList part) = none ↔
    ∀ value, ¬ Integer.Numeral part value := by
  rw [Option.eq_none_iff_forall_ne_some]
  exact forall_congr' fun value => not_congr numeral_iff

theorem malformed_parted (parted : Parted text.toList file line character middle address) :
    Malformed text ↔ Integer.parse? (String.ofList line) = none ∨
      Integer.parse? (String.ofList character) = none := by
  have colons : ¬ text.toList.count ':' < 4 := by
    rw [← parts?_eq_none_iff, parts?_eq_some_iff.mpr parted]
    simp
  rw [Malformed, partsBack, parts_back parted, unread_iff, unread_iff]
  simp [colons, or_and_right, exists_or, or_comm]

/-- The text alone tells whether it can be read. -/
theorem parse?_eq_none_iff : parse? text = none ↔ Malformed text := by
  cases parts : parts? text.toList with
  | none =>
    refine iff_of_true ?_ (.inl (parts?_eq_none_iff.mp parts))
    rw [parse?, parts]
    rfl
  | some five =>
    obtain ⟨file, line, character, middle, address⟩ := five
    have parted := parts?_eq_some_iff.mp parts
    rw [malformed_parted parted, parse?_parted parted]
    cases Integer.parse? (String.ofList line) <;>
      cases Integer.parse? (String.ofList character) <;>
      simp only [Option.bind_some, Option.bind_none, reduceCtorEq, or_true, or_false, or_self]

theorem colon_not_in_core {core : List Char} {value : Int} (written : Integer.Core core value) :
    ':' ∉ core := by
  intro member
  rcases Integer.core_mem written member with mark | ⟨digit, writes⟩
  · exact absurd mark (by decide)
  · exact Integer.not_writes (by decide +kernel) writes

/-- A text tells of the position that is written in it. -/
theorem tells_written {file flag address : String} {line character : Int} (inFlag : ':' ∉ flag.toList)
    (inAddress : ':' ∉ address.toList) (lineSize : (toString line.natAbs).length ≤ 4300)
    (characterSize : (toString character.natAbs).length ≤ 4300) :
    Tells s!"{file}:{line}:{character}:{flag}:{address}"
      ⟨file, line, character, decide (flag = "middle"), address⟩ := by
  have lineCore := Integer.core_decimal lineSize
  have characterCore := Integer.core_decimal characterSize
  refine ⟨(toString line).toList, (toString character).toList, flag.toList, ?_,
    Integer.numeral_of_core lineCore, Integer.numeral_of_core characterCore, ?_⟩
  · exact ⟨by simp [toString], colon_not_in_core lineCore, colon_not_in_core characterCore, inFlag,
      inAddress⟩
  · exact decide_eq_decide.mpr String.toList_inj.symm

end Reading

end SourceLocation

section Noting

variable {session : Session} {args : Option String}

/-- Empty arguments are as unreadable as none. -/
theorem given_read (args : Option String) :
    (Engine.given args).bind SourceLocation.parse? = args.bind SourceLocation.parse? := by
  cases args with
  | none => rfl
  | some text =>
    by_cases empty : text = ""
    · subst empty
      rfl
    · simp [Engine.given, Option.filter, empty]

theorem run_note_location (args : Option String) (session : Session) :
    (Engine.noteLocation args).run session = .ok () { session with
      location := (args.bind SourceLocation.parse?).or session.location } := by
  unfold Engine.noteLocation
  rw [given_read]
  cases args.bind SourceLocation.parse? <;> rfl

theorem perform_react (session : Session) (marker : Marker) :
    session.perform (.react marker) =
      match (Engine.react Engine.handle marker).run session with
      | .ok _ later => .ok .nothing later
      | .error fault later => .error fault later := by
  change (do Engine.react Engine.handle marker; pure Answer.nothing : Engine Answer).run session = _
  rw [EStateM.run_bind]
  cases (Engine.react Engine.handle marker).run session <;> rfl

/-- A position that can be read is noted, and nothing else changes but the record. -/
theorem perform_source (alive : session.isClosed = false) (args : Option String) :
    session.perform (.react ⟨"source", args⟩) = .ok .nothing { session.log (.annotated ⟨"source", args⟩)
      with location := (args.bind SourceLocation.parse?).or session.location } := by
  have kind : Annotation.ofTag "source" = .source := by decide
  rw [perform_react]
  simp only [Engine.react, EStateM.run_bind, Engine.run_require_open, alive, Bool.false_eq_true,
    if_false, Engine.run_record, kind, run_note_location]
  rfl

theorem unread_of_malformed (malformed : ∀ text, args = some text → SourceLocation.Malformed text) :
    args.bind SourceLocation.parse? = none := by
  cases args with
  | none => rfl
  | some text => exact SourceLocation.parse?_eq_none_iff.mpr (malformed text rfl)

/-- What is no position is ignored. -/
theorem location_kept (malformed : ∀ text, args = some text → SourceLocation.Malformed text) :
    (session.after (.react ⟨"source", args⟩)).location = session.location := by
  unfold Session.after
  cases closed : session.isClosed with
  | true =>
    rw [perform_react, Engine.run_react_closed _ _ closed]
    rfl
  | false =>
    rw [perform_source closed, unread_of_malformed malformed]
    rfl

theorem location_noted (alive : session.isClosed = false) {text : String} {location : SourceLocation}
    (read : SourceLocation.parse? text = some location) :
    (session.after (.react ⟨"source", some text⟩)).location = some location := by
  unfold Session.after
  rw [perform_source alive, Option.bind_some, read]
  rfl

end Noting

/-- A position is read as it was written, whatever colons stand in the name of its file. What is read is
what the text tells, and a text is unreadable exactly if it has too few colons, or no integer is written
where the line or the character should be. A session that is told such a text, or none, keeps the
location it has, and one that is told any other notes it. -/
theorem positions_read_back :
    (∀ (file flag address : String) (line character : Int),
      ':' ∉ flag.toList → ':' ∉ address.toList →
      (toString line.natAbs).length ≤ 4300 → (toString character.natAbs).length ≤ 4300 →
      SourceLocation.parse? s!"{file}:{line}:{character}:{flag}:{address}" =
        some ⟨file, line, character, decide (flag = "middle"), address⟩) ∧
      (∀ text location, SourceLocation.parse? text = some location ↔ SourceLocation.Tells text location) ∧
      (∀ text, SourceLocation.parse? text = none ↔ SourceLocation.Malformed text) ∧
      (∀ (session : Session) (args : Option String),
        (∀ text, args = some text → SourceLocation.Malformed text) →
        (session.after (.react ⟨"source", args⟩)).location = session.location) ∧
      ∀ (session : Session) (text : String) (location : SourceLocation), session.isClosed = false →
        SourceLocation.Tells text location →
        (session.after (.react ⟨"source", some text⟩)).location = some location := by
  refine ⟨fun file flag address line character inFlag inAddress lineSize characterSize => ?_,
    fun _ _ => SourceLocation.parse?_eq_some_iff, fun _ => SourceLocation.parse?_eq_none_iff,
    fun _ _ => location_kept, fun _ _ _ alive tells => ?_⟩
  · rw [SourceLocation.parse?_eq_some_iff]
    exact SourceLocation.tells_written inFlag inAddress lineSize characterSize
  · exact location_noted alive (SourceLocation.parse?_eq_some_iff.mpr tells)

/-- A file whose name could be a position itself, with the longest character that can be read and an
empty address; a line that is a word; and a line in digits of another script, with a blank and an
underscore. -/
theorem positions_read_back_of_hard_names :
    let file := "C:\\src\\a.c:3:10:beg:0x20"
    let line : Int := -42
    let character : Int := (10 ^ 4300 - 1 : Nat)
    let flag := "middle"
    let address := ""
    let session : Session := { Session.start ⟨1, none, [], false, false, false⟩ Table.empty with
      location := some ⟨"b.c", 7, 90, false, "0x10"⟩ }
    ':' ∉ flag.toList ∧ ':' ∉ address.toList ∧ (toString line.natAbs).length ≤ 4300 ∧
      (toString character.natAbs).length ≤ 4300 ∧
      SourceLocation.parse? s!"{file}:{line}:{character}:{flag}:{address}" =
        some ⟨file, line, character, true, address⟩ ∧
      SourceLocation.Malformed "a.c:five:1:beg:0x1" ∧
      (session.after (.react ⟨"source", some "a.c:five:1:beg:0x1"⟩)).location =
        some ⟨"b.c", 7, 90, false, "0x10"⟩ ∧
      SourceLocation.Tells "a.c: ٣_٤:+0:beg:0x1" ⟨"a.c", 34, 0, false, "0x1"⟩ ∧
      (session.after (.react ⟨"source", some "a.c: ٣_٤:+0:beg:0x1"⟩)).location =
        some ⟨"a.c", 34, 0, false, "0x1"⟩ := by
  intro file line character flag address session
  obtain ⟨written, read, unread, kept, noted⟩ := positions_read_back
  have inFlag : ':' ∉ flag.toList := by decide
  have inAddress : ':' ∉ address.toList := by decide
  have lineSize : (toString line.natAbs).length ≤ 4300 := by decide +kernel
  have longest (digits : Nat) (some_ : 0 < digits) : (10 ^ digits - 1).repr.length ≤ digits :=
    (Nat.length_repr_le_iff some_).mpr (Nat.sub_lt (Nat.pow_pos (by decide)) Nat.one_pos)
  have characterSize : (toString character.natAbs).length ≤ 4300 := by
    rw [Int.natAbs_natCast, Nat.toString_eq_repr]
    exact longest 4300 (by decide)
  have malformed : SourceLocation.Malformed "a.c:five:1:beg:0x1" := (unread _).mp (by decide +kernel)
  have tells : SourceLocation.Tells "a.c: ٣_٤:+0:beg:0x1" ⟨"a.c", 34, 0, false, "0x1"⟩ :=
    (read _ _).mp (by decide +kernel)
  refine ⟨inFlag, inAddress, lineSize, characterSize,
    written file flag address line character inFlag inAddress lineSize characterSize, malformed, ?_,
    tells, noted session _ _ rfl tells⟩
  exact kept session _ fun text same => Option.some.inj same ▸ malformed

end GdbControl
