/-!
# Cutting text at separators

A text is cut at every occurrence of a separator, at its first occurrence, or into lines. Cutting
at every occurrence is inverse to joining with the separator, and no piece contains it.
-/

namespace SourceFilter.Text

/-- The pieces between the occurrences of a separator; there is always at least one. -/
def split (separator : Char) : List Char → List (List Char)
  | [] => [[]]
  | c :: rest =>
    if c = separator then [] :: split separator rest
    else
      match split separator rest with
      | [] => [[c]]
      | piece :: pieces => (c :: piece) :: pieces

/-- A text has at least one piece. -/
theorem split_ne_nil (separator : Char) (s : List Char) : split separator s ≠ [] := by
  cases s with
  | nil => simp [split]
  | cons c rest =>
    rw [split]
    split
    · simp
    · split <;> simp

/-- The pieces with the separator between them. -/
def join (separator : Char) : List (List Char) → List Char
  | [] => []
  | [piece] => piece
  | piece :: next :: pieces => piece ++ separator :: join separator (next :: pieces)

/-- Joining the pieces restores the text. -/
theorem join_split (separator : Char) (s : List Char) : join separator (split separator s) = s := by
  induction s with
  | nil => rfl
  | cons c rest ih =>
    rw [split]
    split
    next h =>
      cases hr : split separator rest with
      | nil => exact absurd hr (split_ne_nil separator rest)
      | cons piece pieces => rw [join, ← hr, ih, h]; rfl
    next =>
      cases hr : split separator rest with
      | nil => exact absurd hr (split_ne_nil separator rest)
      | cons piece pieces =>
        rw [hr] at ih
        cases pieces with
        | nil => simpa [join] using ih
        | cons next pieces => simpa [join] using ih

/-- No piece contains the separator. -/
theorem not_mem_of_mem_split {separator : Char} {s piece : List Char}
    (h : piece ∈ split separator s) : separator ∉ piece := by
  induction s generalizing piece with
  | nil => simp_all [split]
  | cons c rest ih =>
    rw [split] at h
    split at h
    next =>
      rcases List.mem_cons.1 h with rfl | h
      · simp
      · exact ih h
    next hc =>
      cases hr : split separator rest with
      | nil => exact absurd hr (split_ne_nil separator rest)
      | cons first pieces =>
        rw [hr] at h ih
        rcases List.mem_cons.1 h with rfl | h
        · have := ih List.mem_cons_self
          simp [Ne.symm hc, this]
        · exact ih (List.mem_cons_of_mem _ h)

/-- The texts before and after the first occurrence of a separator. -/
def splitOnce (separator : Char) : List Char → Option (List Char × List Char)
  | [] => none
  | c :: rest =>
    if c = separator then some ([], rest)
    else (splitOnce separator rest).map fun (before, after) => (c :: before, after)

/-- A text that is cut once is the part before, the separator and the part after. -/
theorem eq_append_of_splitOnce {separator : Char} {s before after : List Char}
    (h : splitOnce separator s = some (before, after)) :
    s = before ++ separator :: after ∧ separator ∉ before := by
  induction s generalizing before with
  | nil => simp [splitOnce] at h
  | cons c rest ih =>
    rw [splitOnce] at h
    split at h
    next hc => cases h; simp [hc]
    next hc =>
      obtain ⟨⟨front, back⟩, hr, he⟩ := Option.map_eq_some_iff.1 h
      cases he
      obtain ⟨hs, hn⟩ := ih hr
      exact ⟨by rw [hs]; rfl, by simp [Ne.symm hc, hn]⟩

/-- The first occurrence is where the part before it has none. -/
theorem splitOnce_append {separator : Char} {before : List Char} (after : List Char)
    (h : separator ∉ before) :
    splitOnce separator (before ++ separator :: after) = some (before, after) := by
  induction before with
  | nil => simp [splitOnce]
  | cons c rest ih =>
    simp only [List.mem_cons, not_or] at h
    rw [List.cons_append, splitOnce, if_neg (Ne.symm h.1), ih h.2]
    rfl

/-- A text without the separator is not cut. -/
theorem splitOnce_eq_none_iff {separator : Char} {s : List Char} :
    splitOnce separator s = none ↔ separator ∉ s := by
  induction s with
  | nil => simp [splitOnce]
  | cons c rest ih =>
    rw [splitOnce]
    split
    next hc => simp [hc]
    next hc => simp [ih, Ne.symm hc]

/-- The text without one trailing carriage return. -/
def dropReturn (line : List Char) : List Char :=
  if line.getLast? = some '\r' then line.dropLast else line

/-- Cuts lines off pieces: every piece but the last was ended by a line feed, which may follow a
carriage return; a last piece that is empty is no line. -/
def linesOfPieces : List (List Char) → List (List Char)
  | [] => []
  | [last] => if last = [] then [] else [last]
  | line :: next :: pieces => dropReturn line :: linesOfPieces (next :: pieces)

/-- The lines of a text, without their line ends. -/
def lines (s : List Char) : List (List Char) := linesOfPieces (split '\n' s)

end SourceFilter.Text
