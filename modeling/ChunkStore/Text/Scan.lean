/-!
# Scanning texts

What readers share: taking given characters off the front of a text.
-/

set_option autoImplicit false

namespace ChunkStore.Text

/-- The text behind given characters, if it starts with them. -/
def after? : List Char → List Char → Option (List Char)
  | [], text => some text
  | _ :: _, [] => none
  | c :: rest, d :: text => if c = d then after? rest text else none

theorem after?_eq_some_iff (front text rest : List Char) :
    after? front text = some rest ↔ text = front ++ rest := by
  induction front generalizing text with
  | nil => simp [after?]
  | cons c front ih =>
    cases text with
    | nil => simp [after?]
    | cons d text =>
      simp only [after?, List.cons_append, List.cons.injEq]
      split
      · next h => simp [ih, h]
      · next h => simp only [reduceCtorEq, false_iff, not_and]; exact fun h' => absurd h'.symm h

end ChunkStore.Text
