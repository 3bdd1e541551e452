/-!
A sequence cut in two at the last place where a separator stands.
-/

namespace GdbControl

variable {α : Type} [DecidableEq α]

/-- What stands before and after the last `separator`. -/
def cutLast? (separator : α) : List α → Option (List α × List α)
  | [] => none
  | item :: rest =>
    match cutLast? separator rest with
    | some (before, after) => some (item :: before, after)
    | none => if item = separator then some ([], rest) else none

theorem cutLast?_eq_none_iff {separator : α} {items : List α} :
    cutLast? separator items = none ↔ separator ∉ items := by
  induction items with
  | nil => simp [cutLast?]
  | cons item rest ih =>
    cases tail : cutLast? separator rest with
    | none =>
      have absent := ih.mp tail
      by_cases same : item = separator
      · simp [cutLast?, tail, same]
      · simp [cutLast?, tail, same, absent, Ne.symm same]
    | some parts =>
      have present : separator ∈ rest := by
        by_cases found : separator ∈ rest
        · exact found
        · simp [ih.mpr found] at tail
      simp [cutLast?, tail, present]

theorem cutLast?_append {separator : α} {before after : List α} (absent : separator ∉ after) :
    cutLast? separator (before ++ separator :: after) = some (before, after) := by
  induction before with
  | nil => simp [cutLast?, cutLast?_eq_none_iff.mpr absent]
  | cons item rest ih => simp [cutLast?, ih]

theorem eq_append_of_cutLast? {separator : α} {items before after : List α}
    (cut : cutLast? separator items = some (before, after)) :
    items = before ++ separator :: after ∧ separator ∉ after := by
  induction items generalizing before with
  | nil => simp [cutLast?] at cut
  | cons item rest ih =>
    cases tail : cutLast? separator rest with
    | none =>
      by_cases same : item = separator
      · simp only [cutLast?, tail, same, if_true, Option.some.injEq, Prod.mk.injEq] at cut
        obtain ⟨rfl, rfl⟩ := cut
        exact ⟨by simp [same], cutLast?_eq_none_iff.mp tail⟩
      · simp [cutLast?, tail, same] at cut
    | some parts =>
      obtain ⟨left, right⟩ := parts
      simp only [cutLast?, tail, Option.some.injEq, Prod.mk.injEq] at cut
      obtain ⟨rfl, rfl⟩ := cut
      have parts := ih tail
      exact ⟨by rw [parts.1]; rfl, parts.2⟩

end GdbControl
