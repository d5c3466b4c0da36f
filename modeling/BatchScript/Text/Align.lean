/-!
# Columns

Texts filled up with blanks to the width of a column. A text that is wider stays as it is.
-/

namespace BatchScript.Text

/-- The blanks that a text lacks to a width. -/
def filler (width : Nat) (text : String) : String :=
  .ofList (List.replicate (width - text.length) ' ')

/-- A text at the right end of a column. -/
def alignRight (width : Nat) (text : String) : String :=
  filler width text ++ text

/-- A text at the left end of a column. -/
def alignLeft (width : Nat) (text : String) : String :=
  text ++ filler width text

end BatchScript.Text
