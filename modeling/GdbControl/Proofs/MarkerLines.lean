import GdbControl.Stream

/-!
The search for marker lines when the stream comes in parts. A marker line that was found stays the
first one whatever follows. Lines that were passed over without one need not be looked at again, and
neither does the beginning of a line that can no longer become one.
-/

namespace GdbControl.Stream

section Lines

theorem line_iff {bytes line after : Bytes} :
    line? bytes = some (line, after) ↔ bytes = line ++ newline :: after ∧ newline ∉ line := by
  induction bytes generalizing line with
  | nil => simp [line?]
  | cons byte rest ih =>
    by_cases ends : byte = newline
    · subst ends
      cases line with
      | nil => simp [line?, eq_comm]
      | cons first line => simp +contextual [line?]
    · cases line with
      | nil => simp [line?, ends]
      | cons first line =>
        simp only [line?, ends, if_false, Option.map_eq_some_iff, Prod.exists, Prod.mk.injEq,
          List.cons.injEq, List.cons_append, List.mem_cons, not_or]
        constructor
        · rintro ⟨inner, tail, found, ⟨rfl, rfl⟩, rfl⟩
          obtain ⟨shape, absent⟩ := ih.mp found
          exact ⟨⟨rfl, shape⟩, fun same => ends same.symm, absent⟩
        · rintro ⟨⟨rfl, shape⟩, -, absent⟩
          exact ⟨line, after, ih.mpr ⟨shape, absent⟩, ⟨rfl, rfl⟩, rfl⟩

theorem line_absent {bytes : Bytes} (unended : newline ∉ bytes) : line? bytes = none := by
  cases found : line? bytes with
  | none => rfl
  | some parts =>
    obtain ⟨shape, -⟩ := line_iff.mp found
    exact absurd (by simp [shape]) unended

/-- Bytes are an unfinished line, or a line with its newline and then more bytes. -/
theorem lines_induction {motive : Bytes → Prop}
    (unfinished : ∀ bytes, newline ∉ bytes → motive bytes)
    (line : ∀ line rest, newline ∉ line → motive rest → motive (line ++ newline :: rest))
    (bytes : Bytes) : motive bytes := by
  by_cases ended : newline ∈ bytes
  · obtain ⟨first, rest, shape, absent⟩ := List.eq_append_cons_of_mem ended
    subst shape
    exact line first rest absent (lines_induction unfinished line rest)
  · exact unfinished bytes ended
termination_by bytes.length
decreasing_by
  subst shape
  simp only [List.length_append, List.length_cons]
  omega

/-- What a whole line means, given without its newline. -/
def markerOf? : Bytes → Option Marker
  | first :: second :: body => if first = sub && second = sub then ofBody? body else none
  | _ => none

theorem newline_ne_sub : newline ≠ sub := by decide

theorem marker_line {line : Bytes} (after : Bytes) (single : newline ∉ line) :
    marker? (line ++ newline :: after) = (markerOf? line).map (·, after) := by
  match line with
  | [] => cases after <;> simp [marker?, markerOf?, newline_ne_sub]
  | [first] => simp [marker?, markerOf?, newline_ne_sub]
  | first :: second :: body =>
    have inBody : newline ∉ body := fun member => single (by simp [member])
    have found : line? (body ++ newline :: after) = some (body, after) :=
      line_iff.mpr ⟨rfl, inBody⟩
    by_cases begun : (first = sub && second = sub) = true
    · simp [marker?, markerOf?, begun, found]
    · simp [marker?, markerOf?, begun]

theorem marker_unended {bytes : Bytes} (unended : newline ∉ bytes) : marker? bytes = none := by
  match bytes with
  | [] => rfl
  | [_] => rfl
  | first :: second :: rest =>
    have absent : line? rest = none := line_absent fun member => unended (by simp [member])
    simp [marker?, absent]

-- A line of which enough is known to see that it is no marker.
theorem marker_ruled_out {line : Bytes} (more : Bytes) (present : line ≠ [])
    (ruledOut : mayBeginMarker line = false) : marker? (line ++ more) = none := by
  match line with
  | [] => exact absurd rfl present
  | [first] =>
    have other : first ≠ sub := by simpa [mayBeginMarker] using ruledOut
    cases more <;> simp [marker?, other]
  | first :: second :: rest =>
    have other : first = sub → second ≠ sub := by simpa [mayBeginMarker] using ruledOut
    by_cases same : first = sub
    · simp [marker?, other same]
    · simp [marker?, same]

end Lines

section Cuts

/-- A cut of bytes that have others in front of them. -/
def Cut.prepend (front : Bytes) (cut : Cut) : Cut := { cut with before := front ++ cut.before }

/-- A cut of bytes that have others after them. -/
def Cut.extend (more : Bytes) (cut : Cut) : Cut := { cut with after := cut.after ++ more }

theorem prepend_nothing (found : Option Cut) : found.map (Cut.prepend []) = found := by
  cases found <;> rfl

theorem prepend_twice (front middle : Bytes) (found : Option Cut) :
    (found.map (Cut.prepend middle)).map (Cut.prepend front) =
      found.map (Cut.prepend (front ++ middle)) := by
  cases found <;> simp [Cut.prepend]

theorem first_marker_newline (lineStart : Bool) (rest : Bytes) :
    firstMarker? lineStart (newline :: rest) = (firstMarker? true rest).map (Cut.prepend [newline]) := by
  have absent : marker? (newline :: rest) = none := by
    cases rest <;> simp [marker?, newline_ne_sub]
  simp only [firstMarker?, absent, ite_self, decide_true]
  rfl

theorem first_marker_inside {front : Bytes} (rest : Bytes) (unended : newline ∉ front) :
    firstMarker? false (front ++ rest) = (firstMarker? false rest).map (Cut.prepend front) := by
  induction front with
  | nil => exact (prepend_nothing _).symm
  | cons byte front ih =>
    have other : byte ≠ newline := fun same => unended (by simp [same])
    have later := ih fun member => unended (by simp [member])
    simp only [List.cons_append, firstMarker?, if_false, Bool.false_eq_true, other, decide_false,
      later]
    cases firstMarker? false rest <;> rfl

-- The search goes line by line.
theorem first_marker_line (lineStart : Bool) {line : Bytes} (rest : Bytes)
    (single : newline ∉ line) :
    firstMarker? lineStart (line ++ newline :: rest) =
      match if lineStart then markerOf? line else none with
      | some marker => some ⟨[], marker, rest⟩
      | none => (firstMarker? true rest).map (Cut.prepend (line ++ [newline])) := by
  have skipped : firstMarker? false (line ++ newline :: rest) =
      (firstMarker? true rest).map (Cut.prepend (line ++ [newline])) := by
    rw [first_marker_inside _ single, first_marker_newline, prepend_twice]
  cases lineStart with
  | false => simpa using skipped
  | true =>
    cases line with
    | nil => simp [markerOf?, first_marker_newline]
    | cons byte line =>
      have whole := marker_line rest single
      simp only [List.cons_append] at whole skipped ⊢
      simp only [firstMarker?, if_true, Bool.false_eq_true, if_false] at skipped ⊢
      rw [whole]
      cases markerOf? (byte :: line) with
      | none => exact skipped
      | some marker => rfl

theorem first_marker_unended {bytes : Bytes} (lineStart : Bool) (unended : newline ∉ bytes) :
    firstMarker? lineStart bytes = none := by
  induction bytes generalizing lineStart with
  | nil => rfl
  | cons byte rest ih =>
    have absent := marker_unended unended
    have later := ih (decide (byte = newline)) fun member => unended (by simp [member])
    simp [firstMarker?, absent, later]

-- What was found stays the first marker line when more arrives.
theorem first_marker_extend {lineStart : Bool} {bytes : Bytes} {cut : Cut} (more : Bytes)
    (found : firstMarker? lineStart bytes = some cut) :
    firstMarker? lineStart (bytes ++ more) = some (cut.extend more) := by
  induction bytes using lines_induction generalizing lineStart cut with
  | unfinished bytes unended => simp [first_marker_unended lineStart unended] at found
  | line line rest single ih =>
    rw [first_marker_line lineStart rest single] at found
    rw [List.append_assoc, List.cons_append, first_marker_line lineStart (rest ++ more) single]
    split at found
    · next marker hit =>
      cases found
      rfl
    · next hit =>
      obtain ⟨inner, later, rfl⟩ := Option.map_eq_some_iff.mp found
      rw [ih later]
      rfl

-- Whole lines without a marker are passed over, and the search goes on at the last newline.
theorem first_marker_passed {lineStart : Bool} {front : Bytes} (rest : Bytes)
    (plain : firstMarker? lineStart (front ++ [newline]) = none) :
    firstMarker? lineStart (front ++ newline :: rest) =
      (firstMarker? true (newline :: rest)).map (Cut.prepend front) := by
  induction front using lines_induction generalizing lineStart with
  | unfinished front unended =>
    rw [first_marker_line lineStart [] unended] at plain
    rw [first_marker_line lineStart rest unended, first_marker_newline, prepend_twice]
    split at plain
    · cases plain
    · rfl
  | line line front single ih =>
    rw [List.append_assoc, List.cons_append, first_marker_line lineStart _ single] at plain ⊢
    split at plain
    · cases plain
    · next absent =>
      rw [ih (Option.map_eq_none_iff.mp plain), prepend_twice]
      simp

theorem first_marker_prefix {lineStart : Bool} {bytes more : Bytes}
    (plain : firstMarker? lineStart (bytes ++ more) = none) : firstMarker? lineStart bytes = none := by
  cases found : firstMarker? lineStart bytes with
  | none => rfl
  | some cut => simp [first_marker_extend more found] at plain

-- A line that can no longer become a marker is searched as if it had no beginning.
theorem first_marker_ruled_out {line : Bytes} (more : Bytes) (present : line ≠ [])
    (ruledOut : mayBeginMarker line = false) :
    firstMarker? true (line ++ more) = firstMarker? false (line ++ more) := by
  cases line with
  | nil => exact absurd rfl present
  | cons byte line =>
    have absent := marker_ruled_out more present ruledOut
    simp only [List.cons_append] at absent
    simp [firstMarker?, absent]

-- Of an unfinished line that is no marker, any part may be passed on before the rest is known.
theorem first_marker_shown {lineStart : Bool} {front rest : Bytes} (more : Bytes)
    (present : front ++ rest ≠ []) (unended : newline ∉ front ++ rest)
    (shown : lineStart = true → mayBeginMarker (front ++ rest) = false) :
    firstMarker? lineStart (front ++ (rest ++ more)) =
      (firstMarker? false (rest ++ more)).map (Cut.prepend front) := by
  have inside : newline ∉ front := fun member => unended (List.mem_append_left rest member)
  cases lineStart with
  | false => exact first_marker_inside (rest ++ more) inside
  | true =>
    rw [← List.append_assoc, first_marker_ruled_out more present (shown rfl), List.append_assoc]
    exact first_marker_inside (rest ++ more) inside

theorem marker_of_sub {line : Bytes} {marker : Marker} (written : markerOf? line = some marker) :
    ∃ body, line = sub :: sub :: body := by
  unfold markerOf? at written
  split at written
  · next first second body =>
    split at written
    · next begun =>
      simp only [Bool.and_eq_true, decide_eq_true_eq] at begun
      obtain ⟨rfl, rfl⟩ := begun
      exact ⟨body, rfl⟩
    · cases written
  · cases written

-- A cut takes a whole marker line out of the bytes.
theorem first_marker_parts {lineStart : Bool} {bytes : Bytes} {cut : Cut}
    (found : firstMarker? lineStart bytes = some cut) :
    ∃ line, newline ∉ line ∧ markerOf? line = some cut.marker ∧
      bytes = cut.before ++ line ++ newline :: cut.after := by
  induction bytes using lines_induction generalizing lineStart cut with
  | unfinished bytes unended => simp [first_marker_unended lineStart unended] at found
  | line line rest single ih =>
    rw [first_marker_line lineStart rest single] at found
    split at found
    · next marker hit =>
      cases found
      split at hit
      · exact ⟨line, single, hit, rfl⟩
      · cases hit
    · obtain ⟨inner, later, rfl⟩ := Option.map_eq_some_iff.mp found
      obtain ⟨marked, solid, written, shape⟩ := ih later
      exact ⟨marked, solid, written, by simp [Cut.prepend, shape]⟩

-- In front of what follows the cut stands the marker line, which begins with SUB.
theorem first_marker_sub {lineStart : Bool} {bytes : Bytes} {cut : Cut}
    (found : firstMarker? lineStart bytes = some cut) :
    ∃ rest, bytes = cut.before ++ sub :: rest := by
  obtain ⟨line, -, written, shape⟩ := first_marker_parts found
  obtain ⟨body, rfl⟩ := marker_of_sub written
  exact ⟨sub :: body ++ newline :: cut.after, by simp [shape]⟩

theorem last_line_append {bytes lines tail : Bytes} (front : Bytes)
    (found : lastLine? bytes = some (lines, tail)) :
    lastLine? (front ++ bytes) = some (front ++ lines, tail) := by
  obtain ⟨⟨before, after⟩, cut, same⟩ := Option.map_eq_some_iff.mp found
  cases same
  obtain ⟨rfl, absent⟩ := eq_append_of_cutLast? cut
  have whole : cutLast? newline ((front ++ lines) ++ newline :: after) = some (front ++ lines, after) :=
    cutLast?_append absent
  simp [lastLine?, ← List.append_assoc, whole]

theorem last_line_shape {bytes lines tail : Bytes} (found : lastLine? bytes = some (lines, tail)) :
    ∃ unfinished, tail = newline :: unfinished ∧ newline ∉ unfinished ∧ bytes = lines ++ tail := by
  obtain ⟨⟨before, after⟩, cut, same⟩ := Option.map_eq_some_iff.mp found
  cases same
  obtain ⟨shape, absent⟩ := eq_append_of_cutLast? cut
  exact ⟨after, rfl, absent, shape⟩

theorem last_line_found {bytes : Bytes} (ended : newline ∈ bytes) :
    ∃ lines tail, lastLine? bytes = some (lines, tail) := by
  cases cut : cutLast? newline bytes with
  | none => exact absurd ended (cutLast?_eq_none_iff.mp cut)
  | some parts => exact ⟨parts.1, newline :: parts.2, by simp [lastLine?, cut]⟩

theorem last_line_absent {bytes : Bytes} (none_ : lastLine? bytes = none) : newline ∉ bytes :=
  cutLast?_eq_none_iff.mp (Option.map_eq_none_iff.mp none_)

-- Lines that were searched in vain are not searched again when more arrives.
theorem first_marker_searched {lineStart : Bool} {bytes lines tail : Bytes} (more : Bytes)
    (plain : firstMarker? lineStart bytes = none) (found : lastLine? bytes = some (lines, tail)) :
    firstMarker? lineStart (lines ++ (tail ++ more)) =
      (firstMarker? true (tail ++ more)).map (Cut.prepend lines) := by
  obtain ⟨unfinished, rfl, -, rfl⟩ := last_line_shape found
  have before : firstMarker? lineStart (lines ++ [newline]) = none := by
    rw [← List.singleton_append, ← List.append_assoc] at plain
    exact first_marker_prefix plain
  exact first_marker_passed (unfinished ++ more) before

end Cuts
end GdbControl.Stream
