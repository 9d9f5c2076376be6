/-!
# Splitting texts

Cutting a text at every place of a separating character.  There is always one part more than there
are separators, and the parts put together again give the text (`join_split`).
-/

set_option autoImplicit false

namespace ChunkStore.Text

/-- The parts between the places of a separator. -/
def split (separator : Char) : List Char → List (List Char)
  | [] => [[]]
  | c :: rest =>
    if c = separator then [] :: split separator rest
    else
      match split separator rest with
      | part :: parts => (c :: part) :: parts
      | [] => [[c]]

/-- The parts with the separator between them. -/
def join (separator : Char) : List (List Char) → List Char
  | [] => []
  | [part] => part
  | part :: parts => part ++ separator :: join separator parts

theorem split_ne_nil (separator : Char) (text : List Char) : split separator text ≠ [] := by
  induction text with
  | nil => simp [split]
  | cons c rest ih =>
    unfold split
    split
    · simp
    · split <;> simp

theorem join_split (separator : Char) (text : List Char) :
    join separator (split separator text) = text := by
  induction text with
  | nil => rfl
  | cons c rest ih =>
    have hne := split_ne_nil separator rest
    unfold split
    by_cases h : c = separator
    · simp only [h, if_true]
      cases hs : split separator rest with
      | nil => exact absurd hs hne
      | cons part parts => rw [hs] at ih; simp [join, ih]
    · simp only [h, if_false]
      cases hs : split separator rest with
      | nil => exact absurd hs hne
      | cons part parts =>
        rw [hs] at ih
        cases parts with
        | nil => simpa [join] using ih
        | cons next more => simpa [join] using ih

end ChunkStore.Text
