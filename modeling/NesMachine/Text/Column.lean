/-!
# `NesMachine/Text/Column.lean` — text in columns

Lines that stand under one another line up if each part of a line takes the same width. A part that
is too wide is not cut: the line then runs over, and nothing is lost.
-/

set_option autoImplicit false

namespace NesMachine.Text

/-- The text with spaces after it up to a width; a text that is wider already stays as it is. -/
def padRight (width : Nat) (text : String) : String :=
  text ++ String.ofList (List.replicate (width - text.length) ' ')

theorem length_padRight (width : Nat) (text : String) :
    (padRight width text).length = max width text.length := by
  simp [padRight]
  omega

end NesMachine.Text
