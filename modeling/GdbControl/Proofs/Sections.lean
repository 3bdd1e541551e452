import GdbControl.Proofs.MarkerLines

/-!
What gdb's output says, given the whole of it: which of its lines are markers, and the text that
stands between them. The search for the first marker line, section after section, finds no other.
-/

namespace GdbControl.Stream

section Grammar

/-- Arguments with the space before them. -/
def spaced : Option Bytes → Bytes
  | none => []
  | some args => space :: args

theorem body_parts (body : Bytes) :
    ∃ (tag : Bytes) (args : Option Bytes), space ∉ tag ∧ body = tag ++ spaced args := by
  induction body with
  | nil => exact ⟨[], none, by simp, rfl⟩
  | cons byte rest ih =>
    by_cases blank : byte = space
    · exact ⟨[], some rest, by simp, by rw [blank]; rfl⟩
    · obtain ⟨tag, args, solid, shape⟩ := ih
      refine ⟨byte :: tag, args, ?_, by rw [shape]; rfl⟩
      simp [solid, Ne.symm blank]

theorem of_body_parts {tag : Bytes} (args : Option Bytes) (solid : space ∉ tag) :
    ofBody? (tag ++ spaced args) =
      if tag = [] then none else some ⟨Utf8.decode tag, args.map Utf8.decode⟩ := by
  have inTag : ∀ byte ∈ tag, (byte != space) = true := by
    intro byte member
    have other : byte ≠ space := fun same => solid (same ▸ member)
    simpa using other
  have front : (tag ++ spaced args).takeWhile (· != space) = tag := by
    rw [List.takeWhile_append_of_pos inTag]
    cases args <;> simp [spaced]
  have back : (tag ++ spaced args).dropWhile (· != space) = spaced args := by
    rw [List.dropWhile_append_of_pos inTag]
    cases args <;> simp [spaced]
  unfold ofBody?
  rw [front, back]
  cases tag with
  | nil => rfl
  | cons byte rest => cases args <;> rfl

/-- The form of a marker line: its tag is not empty and has no space in it, and a space is before its
arguments if it has any. -/
def IsMarkerLine (line : Bytes) (marker : Marker) : Prop :=
  ∃ (tag : Bytes) (args : Option Bytes), tag ≠ [] ∧ space ∉ tag ∧
    line = sub :: sub :: (tag ++ spaced args) ∧ marker = ⟨Utf8.decode tag, args.map Utf8.decode⟩

/-- The markers of these lines, in order. -/
inductive Announce : List Bytes → List Marker → Prop where
  | nil : Announce [] []
  | marker {line : Bytes} {lines : List Bytes} {marker : Marker} {markers : List Marker}
    (written : IsMarkerLine line marker) (rest : Announce lines markers) :
    Announce (line :: lines) (marker :: markers)
  | plain {line : Bytes} {lines : List Bytes} {markers : List Marker}
    (text : ∀ marker, ¬ IsMarkerLine line marker) (rest : Announce lines markers) :
    Announce (line :: lines) markers

theorem marker_of_iff {line : Bytes} {marker : Marker} :
    markerOf? line = some marker ↔ IsMarkerLine line marker := by
  have begun (body : Bytes) : markerOf? (sub :: sub :: body) = ofBody? body := rfl
  constructor
  -- Any body has these parts, if it has a tag or not; a marker has one.
  · intro written
    obtain ⟨body, rfl⟩ := marker_of_sub written
    obtain ⟨tag, args, solid, rfl⟩ := body_parts body
    rw [begun, of_body_parts args solid] at written
    by_cases present : tag = []
    · simp [present] at written
    · rw [if_neg present] at written
      exact ⟨tag, args, present, solid, rfl, (Option.some.inj written).symm⟩
  · rintro ⟨tag, args, present, solid, rfl, rfl⟩
    rw [begun, of_body_parts args solid, if_neg present]

theorem announce_lines (lines : List Bytes) : Announce lines (lines.filterMap markerOf?) := by
  induction lines with
  | nil => exact .nil
  | cons line rest ih =>
    cases written : markerOf? line with
    | some marker =>
      rw [List.filterMap_cons_some written]
      exact .marker (marker_of_iff.mp written) ih
    | none =>
      rw [List.filterMap_cons_none written]
      refine .plain (fun marker form => ?_) ih
      exact Option.some_ne_none marker ((marker_of_iff.mpr form).symm.trans written)

end Grammar

/-- The marker lines among lines, each with the text in front of it, and the text after the last. The
first line is a marker only if `lineStart`, and the last one never, for it lacks its newline. -/
def sections (lineStart : Bool) (text : Bytes) : List Bytes → List (Bytes × Marker) × Bytes
  | [] => ([], text)
  | [unfinished] => ([], text ++ unfinished)
  | line :: next :: rest =>
    match if lineStart then markerOf? line else none with
    | some marker =>
      let others := sections true [] (next :: rest)
      ((text, marker) :: others.1, others.2)
    | none => sections true (text ++ line ++ [newline]) (next :: rest)

/-- The sections of bytes that begin within a line, or at its start, after some text. -/
def sectionsOf (lineStart : Bool) (text bytes : Bytes) : List (Bytes × Marker) × Bytes :=
  sections lineStart text (bytes.splitOn newline)

section Sections

variable {lineStart : Bool} {text bytes : Bytes}

theorem sections_markers (text : Bytes) (lines : List Bytes) :
    (sections true text lines).1.map Prod.snd = lines.dropLast.filterMap markerOf? := by
  induction lines generalizing text with
  | nil => rfl
  | cons line rest ih =>
    cases rest with
    | nil => rfl
    | cons next rest =>
      cases written : markerOf? line with
      | none => simpa [sections, written] using ih (text ++ line ++ [newline])
      | some marker => simpa [sections, written] using ih []

/-- Nothing is lost: the text and the marker lines make up all of the lines. -/
theorem sections_join (text : Bytes) {lines : List Bytes} (present : lines ≠ []) :
    ∃ written : List Bytes,
      written.map markerOf? = (sections true text lines).1.map (some ·.2) ∧
      text ++ [newline].intercalate lines =
        (List.zipWith (fun part line => part.1 ++ line ++ [newline]) (sections true text lines).1
          written).flatten ++ (sections true text lines).2 := by
  induction lines generalizing text with
  | nil => exact absurd rfl present
  | cons line rest ih =>
    cases rest with
    | nil => exact ⟨[], rfl, by simp [sections]⟩
    | cons next rest =>
      cases marked : markerOf? line with
      | none =>
        obtain ⟨written, same, joined⟩ := ih (text ++ line ++ [newline]) (by simp)
        refine ⟨written, by simpa [sections, marked] using same, ?_⟩
        simpa [sections, marked, List.intercalate_cons_cons] using joined
      | some marker =>
        obtain ⟨written, same, joined⟩ := ih [] (by simp)
        refine ⟨line :: written, by simpa [sections, marked] using same, ?_⟩
        simpa [sections, marked, List.intercalate_cons_cons] using joined

theorem sections_whole (bytes : Bytes) :
    ∃ written : List Bytes,
      written.map markerOf? = (sectionsOf true [] bytes).1.map (some ·.2) ∧
      bytes = (List.zipWith (fun part line => part.1 ++ line ++ [newline])
        (sectionsOf true [] bytes).1 written).flatten ++ (sectionsOf true [] bytes).2 := by
  obtain ⟨written, same, joined⟩ := sections_join [] (List.splitOn_ne_nil newline bytes)
  refine ⟨written, same, ?_⟩
  rwa [List.nil_append, List.intercalate_splitOn] at joined

theorem sections_line (lineStart : Bool) (text : Bytes) {line : Bytes} (rest : Bytes)
    (single : newline ∉ line) :
    sectionsOf lineStart text (line ++ newline :: rest) =
      match if lineStart then markerOf? line else none with
      | some marker =>
        ((text, marker) :: (sectionsOf true [] rest).1, (sectionsOf true [] rest).2)
      | none => sectionsOf true (text ++ line ++ [newline]) rest := by
  unfold sectionsOf
  rw [List.splitOn_append_cons_self_of_not_mem single]
  cases split : rest.splitOn newline with
  | nil => exact absurd split (List.splitOn_ne_nil _ _)
  | cons next others => rfl

theorem sections_unended (lineStart : Bool) (text : Bytes) (unended : newline ∉ bytes) :
    sectionsOf lineStart text bytes = ([], text ++ bytes) := by
  rw [sectionsOf, List.splitOn_eq_singleton unended]
  rfl

theorem sections_plain (plain : firstMarker? lineStart bytes = none) (text : Bytes) :
    sectionsOf lineStart text bytes = ([], text ++ bytes) := by
  induction bytes using lines_induction generalizing lineStart text with
  | unfinished bytes unended => exact sections_unended lineStart text unended
  | line line rest single ih =>
    rw [first_marker_line lineStart rest single] at plain
    rw [sections_line lineStart text rest single]
    generalize (if lineStart then markerOf? line else none) = written at plain ⊢
    cases written with
    | some marker => cases plain
    | none =>
      change sectionsOf true (text ++ line ++ [newline]) rest = _
      rw [ih (Option.map_eq_none_iff.mp plain)]
      simp

theorem sections_cut {cut : Cut} (found : firstMarker? lineStart bytes = some cut) (text : Bytes) :
    sectionsOf lineStart text bytes =
      ((text ++ cut.before, cut.marker) :: (sectionsOf true [] cut.after).1,
        (sectionsOf true [] cut.after).2) := by
  induction bytes using lines_induction generalizing lineStart text cut with
  | unfinished bytes unended => simp [first_marker_unended lineStart unended] at found
  | line line rest single ih =>
    rw [first_marker_line lineStart rest single] at found
    rw [sections_line lineStart text rest single]
    generalize (if lineStart then markerOf? line else none) = written at found ⊢
    cases written with
    | some marker =>
      cases found
      simp
    | none =>
      obtain ⟨inner, later, rfl⟩ := Option.map_eq_some_iff.mp found
      change sectionsOf true (text ++ line ++ [newline]) rest = _
      rw [ih later]
      simp [Cut.prepend]

-- Bytes in which the search finds nothing are text.
theorem sections_passed {lineStart later : Bool} {front rest : Bytes}
    (passed : firstMarker? lineStart (front ++ rest) =
      (firstMarker? later rest).map (Cut.prepend front)) (text : Bytes) :
    sectionsOf lineStart text (front ++ rest) = sectionsOf later (text ++ front) rest := by
  cases found : firstMarker? later rest with
  | none =>
    rw [found, Option.map_none] at passed
    rw [sections_plain passed, sections_plain found, List.append_assoc]
  | some cut =>
    rw [found, Option.map_some] at passed
    rw [sections_cut passed, sections_cut found]
    simp [Cut.prepend]

end Sections

end GdbControl.Stream
