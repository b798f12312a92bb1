/-!
# Columns

A field narrower than its column is filled with spaces on the right or on the left; a wider field
keeps all its characters.
-/

namespace SourceFilter.Text

/-- The field at the left edge of its column. -/
def alignLeft (width : Nat) (field : List Char) : List Char :=
  field ++ List.replicate (width - field.length) ' '

/-- The field at the right edge of its column. -/
def alignRight (width : Nat) (field : List Char) : List Char :=
  List.replicate (width - field.length) ' ' ++ field

/-- A column is as wide as it is set, or as wide as its field. -/
theorem length_alignLeft (width : Nat) (field : List Char) :
    (alignLeft width field).length = max width field.length := by
  simp [alignLeft]; omega

/-- A column is as wide as it is set, or as wide as its field. -/
theorem length_alignRight (width : Nat) (field : List Char) :
    (alignRight width field).length = max width field.length := by
  simp [alignRight]; omega

end SourceFilter.Text
