import SourceFilter.Text.Column
import SourceFilter.Proofs.Text

/-!
# Words in columns

The words of a line are the texts between its runs of spaces. Filling a field up to its column adds
nothing but spaces, so a row of columns has the words of its fields, however wide these are. Lines
that are ended one after the other are the lines of the text.
-/

namespace SourceFilter.Text

/-- The texts between the runs of spaces. -/
def words (s : List Char) : List (List Char) := (split ' ' s).filter fun piece => !piece.isEmpty

/-- A space parts the words before it from those behind it. -/
theorem words_append_space (xs ys : List Char) :
    words (xs ++ ' ' :: ys) = words xs ++ words ys := by
  rw [words, split_append, List.filter_append, words, words]

/-- A text without spaces is one word. -/
theorem words_of_notMem {s : List Char} (hne : s ≠ []) (h : ' ' ∉ s) : words s = [s] := by
  rw [words, split_of_notMem h, List.filter_cons_of_pos, List.filter_nil]
  rw [Bool.not_eq_true', List.isEmpty_eq_false_iff]
  exact hne

/-- Texts without spaces are the words of the line where they stand one space apart. -/
theorem words_join {texts : List (List Char)} (h : ∀ s ∈ texts, s ≠ [] ∧ ' ' ∉ s) :
    words (join ' ' texts) = texts := by
  induction texts with
  | nil => rfl
  | cons s texts ih =>
    obtain ⟨⟨hne, hspace⟩, hrest⟩ := List.forall_mem_cons.1 h
    cases texts with
    | nil => exact words_of_notMem hne hspace
    | cons next texts =>
      rw [join, words_append_space, words_of_notMem hne hspace, ih hrest, List.singleton_append]

/-- Spaces in front belong to no word. -/
theorem words_spaces_append (n : Nat) (s : List Char) :
    words (List.replicate n ' ' ++ s) = words s := by
  induction n with
  | zero => rfl
  | succ n ih =>
    have hspace := words_append_space [] (List.replicate n ' ' ++ s)
    rw [List.nil_append, ih] at hspace
    exact hspace

/-- Spaces behind belong to no word. -/
theorem words_append_spaces (s : List Char) (n : Nat) :
    words (s ++ List.replicate n ' ') = words s := by
  cases n with
  | zero => rw [List.replicate_zero, List.append_nil]
  | succ n =>
    have hnone := words_spaces_append n []
    rw [List.append_nil] at hnone
    rw [List.replicate_succ, words_append_space, hnone]
    exact List.append_nil _

/-- A field in its column has its own words. -/
theorem words_alignLeft (width : Nat) (field : List Char) :
    words (alignLeft width field) = words field :=
  words_append_spaces field _

/-- A field in its column has its own words. -/
theorem words_alignRight (width : Nat) (field : List Char) :
    words (alignRight width field) = words field :=
  words_spaces_append _ field

/-- A character that is no space occurs in a column only if it occurs in the field. -/
theorem mem_align {c : Char} (hc : c ≠ ' ') (width : Nat) (field : List Char) :
    (c ∈ alignLeft width field ↔ c ∈ field) ∧ (c ∈ alignRight width field ↔ c ∈ field) := by
  have hspaces (n : Nat) : c ∉ List.replicate n ' ' := fun h => hc (List.eq_of_mem_replicate h)
  constructor
  · rw [alignLeft, List.mem_append, or_iff_left (hspaces _)]
  · rw [alignRight, List.mem_append, or_iff_right (hspaces _)]

/-- A number is a word. -/
theorem words_digits (n : Nat) : words (digits n) = [digits n] :=
  words_of_notMem Nat.toDigits_ne_nil (notMem_digits (by decide) n)

/-- Different numbers are written differently. -/
theorem digits_injective : Function.Injective digits :=
  Function.LeftInverse.injective digitsValue_digits

/-- Lines that are ended one after the other are the lines of the text. -/
theorem lines_flatMap {ended : List (List Char)}
    (h : ∀ line ∈ ended, '\n' ∉ line ∧ '\r' ∉ line) :
    lines (ended.flatMap (· ++ ['\n'])) = ended := by
  induction ended with
  | nil => rfl
  | cons line ended ih =>
    obtain ⟨⟨hfeed, hreturn⟩, hrest⟩ := List.forall_mem_cons.1 h
    have hline : dropReturn line = line :=
      if_neg fun hlast => hreturn (List.mem_of_getLast? hlast)
    obtain ⟨next, pieces, hpieces⟩ :=
      List.exists_cons_of_ne_nil (split_ne_nil '\n' (ended.flatMap (· ++ ['\n'])))
    have htail := ih hrest
    rw [lines, hpieces] at htail
    rw [List.flatMap_cons, List.append_assoc, List.singleton_append, lines, split_append,
      split_of_notMem hfeed, List.singleton_append, hpieces, linesOfPieces, hline, htail]

end SourceFilter.Text
