import StyleCalc.Node.Basic
import StyleCalc.Numeric.Literal

set_option autoImplicit false

namespace StyleCalc

def variableName (name : String) : String :=
  let trimmed := Text.trimChars name.toList
  String.ofList (if ['-', '-'].isPrefixOf trimmed then trimmed else '-' :: '-' :: trimmed)

theorem variable_name_chars (name : String) :
    ∃ rest, (variableName name).toList = '-' :: '-' :: rest ∧
      (Text.trimChars name.toList = '-' :: '-' :: rest ∨ Text.trimChars name.toList = rest) := by
  dsimp only [variableName]
  by_cases dashes : ['-', '-'].isPrefixOf (Text.trimChars name.toList)
  · obtain ⟨rest, split⟩ := List.isPrefixOf_iff_prefix.mp dashes
    refine ⟨rest, ?_, .inl split.symm⟩
    rw [if_pos dashes, String.toList_ofList]
    exact split.symm
  · exact ⟨Text.trimChars name.toList, by rw [if_neg dashes, String.toList_ofList], .inr rfl⟩

@[simp]
theorem variable_name_trimmed (name : String) :
    Text.trimChars (variableName name).toList = (variableName name).toList := by
  obtain ⟨rest, chars, source⟩ := variable_name_chars name
  rw [chars]
  apply Text.trimChars_eq_self
  · intro c first
    obtain rfl : '-' = c := by simpa using first
    rfl
  · intro c last
    cases rest with
    | nil =>
        obtain rfl : '-' = c := by simpa using last
        rfl
    | cons d rest =>
        apply Text.last_trimChars name.toList c
        rcases source with source | source
        · rw [source]
          exact last
        · rw [source]
          simpa using last

@[simp]
theorem variable_name_again (name : String) : variableName (variableName name) = variableName name := by
  obtain ⟨rest, chars, _⟩ := variable_name_chars name
  have trimmed := variable_name_trimmed name
  rw [variableName, trimmed, if_pos (by rw [chars]; rfl), String.ofList_toList]

def Node.ofText {α : Type} [Scalar α] (s : String) : Node α :=
  match Numeric.ofText? s with
  | some n => .numeric n
  | none => .raw (Text.trim s)

end StyleCalc
