/-!
# Texts in pieces

A text is split at every occurrence of a separator; joining the pieces again gives the
text back (`intercalate_splitOnChar`).
-/

namespace EvmInspect.Text

/-- The runs of characters between the separators, empty runs included; there is at least one. -/
def splitOnChar (separator : Char) : List Char → List (List Char)
  | [] => [[]]
  | c :: rest =>
    if c = separator then [] :: splitOnChar separator rest
    else
      match splitOnChar separator rest with
      | [] => [[c]]
      | run :: runs => (c :: run) :: runs

theorem splitOnChar_ne_nil (separator : Char) (cs : List Char) : splitOnChar separator cs ≠ [] := by
  cases cs with
  | nil => simp [splitOnChar]
  | cons c rest =>
    rw [splitOnChar]
    split
    · simp
    · split <;> simp

theorem intercalate_splitOnChar (separator : Char) (cs : List Char) :
    List.intercalate [separator] (splitOnChar separator cs) = cs := by
  induction cs with
  | nil => rfl
  | cons c rest ih =>
    obtain ⟨run, runs, h⟩ := List.exists_cons_of_ne_nil (splitOnChar_ne_nil separator rest)
    rw [h] at ih
    by_cases hc : c = separator
    · rw [splitOnChar, if_pos hc, h, hc, List.intercalate_cons_cons, ih]
      rfl
    · rw [splitOnChar, if_neg hc, h]
      cases runs with
      | nil => simpa [List.intercalate] using ih
      | cons next runs =>
        rw [List.intercalate_cons_cons] at ih ⊢
        rw [List.cons_append, List.cons_append, ih]

end EvmInspect.Text
