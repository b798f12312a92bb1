import SourceFilter.Text.Blank
import SourceFilter.Text.Numeral
import SourceFilter.Text.Split
import Mathlib.Data.List.Basic
import Mathlib.Data.List.Induction
import Mathlib.Data.List.TakeWhile

/-!
# Texts put together

A text that is put together at a separator has the pieces of its parts. Its lines are these pieces
but for a carriage return before a line feed and an empty piece at the end, so a reading of lines
that trims them first and finds nothing in an empty line can read the pieces instead. Trimmed pieces
do not tell whether there were blanks around the text.
-/

namespace SourceFilter.Text

variable {separator : Char} {s xs ys : List Char}

/-- Two texts with a separator between them have the pieces of both. -/
theorem split_append (separator : Char) (xs ys : List Char) :
    split separator (xs ++ separator :: ys) = split separator xs ++ split separator ys := by
  induction xs with
  | nil =>
    have hempty : split separator (separator :: ys) = [] :: split separator ys := if_pos rfl
    rw [List.nil_append, hempty, split, List.singleton_append]
  | cons c xs ih =>
    rw [List.cons_append, split, split]
    by_cases hc : c = separator
    · rw [if_pos hc, if_pos hc, ih, List.cons_append]
    · rw [if_neg hc, if_neg hc, ih]
      cases hxs : split separator xs with
      | nil => exact absurd hxs (split_ne_nil separator xs)
      | cons piece pieces => rfl

/-- A text without the separator is one piece. -/
theorem split_of_notMem (h : separator ∉ s) : split separator s = [s] := by
  induction s with
  | nil => rfl
  | cons c s ih =>
    obtain ⟨hc, hs⟩ := not_or.1 (mt List.mem_cons.2 h)
    rw [split, if_neg (Ne.symm hc), ih hs]

/-- Pieces without the separator are the pieces of the text that they are joined to. -/
theorem split_join {pieces : List (List Char)} (hne : pieces ≠ [])
    (h : ∀ piece ∈ pieces, separator ∉ piece) :
    split separator (join separator pieces) = pieces := by
  induction pieces with
  | nil => exact absurd rfl hne
  | cons piece pieces ih =>
    obtain ⟨hpiece, hpieces⟩ := List.forall_mem_cons.1 h
    cases pieces with
    | nil => exact split_of_notMem hpiece
    | cons next pieces =>
      rw [join, split_append, split_of_notMem hpiece, ih (List.cons_ne_nil next pieces) hpieces,
        List.singleton_append]

/-- Joined pieces have the characters of the pieces, and the separator. -/
theorem notMem_join {c : Char} (hc : c ≠ separator) {pieces : List (List Char)}
    (h : ∀ piece ∈ pieces, c ∉ piece) : c ∉ join separator pieces := by
  induction pieces with
  | nil => exact List.not_mem_nil
  | cons piece pieces ih =>
    obtain ⟨hpiece, hpieces⟩ := List.forall_mem_cons.1 h
    cases pieces with
    | nil => exact hpiece
    | cons next pieces =>
      rw [join, List.mem_append, List.mem_cons, not_or, not_or]
      exact ⟨hpiece, hc, ih hpieces⟩

/-- The part of a text before the first separator; all of it, if there is none. -/
def before (separator : Char) (s : List Char) : List Char := s.takeWhile (· ≠ separator)

/-- A text without the separator lies before it as a whole. -/
theorem before_of_notMem (h : separator ∉ s) : before separator s = s := by
  rw [before, List.takeWhile_eq_self_iff]
  intro c hc
  have hne : c ≠ separator := fun he => h (he ▸ hc)
  exact decide_eq_true hne

/-- What has no separator lies before the separator that follows. -/
theorem before_append (h : separator ∉ xs) (ys : List Char) :
    before separator (xs ++ separator :: ys) = xs := by
  have hall : ∀ c ∈ xs, decide (c ≠ separator) = true := by
    intro c hc
    have hne : c ≠ separator := fun he => h (he ▸ hc)
    exact decide_eq_true hne
  rw [before, List.takeWhile_append_of_pos hall, List.takeWhile_cons_of_neg (by simp),
    List.append_nil]

/-- A text that is cut once is cut behind the part before the first separator. -/
theorem before_of_splitOnce (h : splitOnce separator s = some (xs, ys)) :
    before separator s = xs := by
  obtain ⟨hs, hxs⟩ := eq_append_of_splitOnce h
  rw [hs, before_append hxs]

/-- Numbers are written with digits. -/
theorem isDigit_of_mem_digits {c : Char} {n : Nat} (h : c ∈ digits n) : c.isDigit = true :=
  Nat.isDigit_of_mem_toDigits (by decide) (by decide) h

/-- What is no digit does not occur in a number. -/
theorem notMem_digits {c : Char} (hc : c.isDigit = false) (n : Nat) : c ∉ digits n := fun h =>
  absurd (isDigit_of_mem_digits h) (by rw [hc]; exact Bool.false_ne_true)

/-- A number is written with digits only, and at least one of them. -/
theorem isDigits_digits (n : Nat) : isDigits (digits n) = true := by
  have hne : digits n ≠ [] := Nat.toDigits_ne_nil
  rw [isDigits, Bool.and_eq_true, Bool.not_eq_true', List.isEmpty_eq_false_iff, List.all_eq_true]
  exact ⟨hne, fun c hc => isDigit_of_mem_digits hc⟩

/-- A number that was written is read back. -/
theorem lax?_digits (n : Nat) : lax? (digits n) = some n := by
  rw [lax?.eq_2, if_pos (isDigits_digits n), digitsValue_digits]
  intro s hs
  exact notMem_digits (c := '+') (by decide) n (hs ▸ List.mem_cons_self)

/-- A blank at the end is trimmed. -/
theorem trim_concat_of_blank {c : Char} (hc : isBlank c = true) (s : List Char) :
    trim (s ++ [c]) = trim s := by
  have hend (t : List Char) : trimEnd (t ++ [c]) = trimEnd t := by
    rw [trimEnd, List.reverse_append, List.reverse_singleton, List.singleton_append,
      List.dropWhile_cons_of_pos hc, trimEnd]
  by_cases hblank : ∀ d ∈ s, isBlank d = true
  · have hblank' : ∀ d ∈ s ++ [c], isBlank d = true := by
      intro d hd
      rcases List.mem_append.1 hd with hd | hd
      · exact hblank d hd
      · rw [List.mem_singleton.1 hd]
        exact hc
    rw [trim_eq_nil_of_blank hblank, trim_eq_nil_of_blank hblank']
  · have hstart : trimStart (s ++ [c]) = trimStart s ++ [c] := by
      have hsome : ¬ s.dropWhile isBlank = [] := by
        rw [List.dropWhile_eq_nil_iff]
        exact hblank
      rw [trimStart, List.dropWhile_append, if_neg (by simpa using hsome), trimStart]
    rw [trim, hstart, hend, trim]

/-- Blanks at the end are trimmed. -/
theorem trim_append_of_blank (s : List Char) {blanks : List Char}
    (h : ∀ c ∈ blanks, isBlank c = true) : trim (s ++ blanks) = trim s := by
  induction blanks using List.reverseRecOn with
  | nil => rw [List.append_nil]
  | append_singleton blanks c ih =>
    have hc : isBlank c = true := h c (List.mem_append_right blanks List.mem_cons_self)
    have hblanks : ∀ d ∈ blanks, isBlank d = true := fun d hd => h d (List.mem_append_left [c] hd)
    rw [← List.append_assoc, trim_concat_of_blank hc, ih hblanks]

/-- A blank at the start is trimmed. -/
theorem trim_cons_of_blank {c : Char} (hc : isBlank c = true) (s : List Char) :
    trim (c :: s) = trim s := by
  rw [trim, trimStart, List.dropWhile_cons_of_pos hc, trim, trimStart]

/-- Blanks at the start are trimmed. -/
theorem trim_prepend_of_blank (s : List Char) {blanks : List Char}
    (h : ∀ c ∈ blanks, isBlank c = true) : trim (blanks ++ s) = trim s := by
  induction blanks with
  | nil => rfl
  | cons c blanks ih =>
    obtain ⟨hc, hblanks⟩ := List.forall_mem_cons.1 h
    rw [List.cons_append, trim_cons_of_blank hc, ih hblanks]

/-- Nothing is dropped from a text that does not start with a blank. -/
theorem dropWhile_isBlank (h : ∀ c ∈ s.head?, isBlank c = false) : s.dropWhile isBlank = s := by
  cases s with
  | nil => rfl
  | cons c s =>
    have hc : isBlank c = false := h c rfl
    exact List.dropWhile_cons_of_neg (by rw [hc]; exact Bool.false_ne_true)

/-- A text that does not start with a blank, and has a character that is not blank, loses only
blanks behind this character. -/
theorem trim_append_of_not_blank {c : Char} (hc : isBlank c = false) (xs ys : List Char)
    (hxs : ∀ d ∈ xs.head?, isBlank d = false) : trim (xs ++ c :: ys) = xs ++ c :: trimEnd ys := by
  have hstart : trimStart (xs ++ c :: ys) = xs ++ c :: ys := by
    cases xs with
    | nil => exact dropWhile_isBlank fun d hd => Option.some.inj hd ▸ hc
    | cons d xs => exact dropWhile_isBlank hxs
  have hstop : (c :: xs.reverse).dropWhile isBlank = c :: xs.reverse :=
    dropWhile_isBlank fun d hd => Option.some.inj hd ▸ hc
  rw [trim, hstart, trimEnd, trimEnd, List.reverse_append, List.reverse_cons, List.append_assoc,
    List.singleton_append, List.dropWhile_append, hstop]
  split
  next h => simp [List.isEmpty_iff.1 h]
  next => simp

/-- A text without blanks is trimmed already. -/
theorem trim_of_no_blank (h : ∀ c ∈ s, isBlank c = false) : trim s = s := by
  have hstart : s.dropWhile isBlank = s :=
    dropWhile_isBlank fun c hc => h c (List.mem_of_mem_head? hc)
  have hend : s.reverse.dropWhile isBlank = s.reverse :=
    dropWhile_isBlank fun c hc => h c (List.mem_reverse.1 (List.mem_of_mem_head? hc))
  rw [trim, trimStart, hstart, trimEnd, hend, List.reverse_reverse]

/-- What is dropped at the end of a text is blank. -/
theorem exists_append_trimEnd (s : List Char) :
    ∃ blanks, s = trimEnd s ++ blanks ∧ ∀ c ∈ blanks, isBlank c = true := by
  refine ⟨(s.reverse.takeWhile isBlank).reverse, ?_, fun c hc => ?_⟩
  · have hparts : s.reverse.takeWhile isBlank ++ s.reverse.dropWhile isBlank = s.reverse :=
      List.takeWhile_append_dropWhile
    rw [trimEnd, ← List.reverse_append, hparts, List.reverse_reverse]
  · exact List.mem_takeWhile_imp (List.mem_reverse.1 hc)

/-- A text that is trimmed at its end already is trimmed as before. -/
theorem trim_trimEnd (s : List Char) : trim (trimEnd s) = trim s := by
  obtain ⟨blanks, hs, hblanks⟩ := exists_append_trimEnd s
  have htrim := trim_append_of_blank (trimEnd s) hblanks
  rw [← hs] at htrim
  exact htrim.symm

/-- What precedes joined pieces belongs to the first one. -/
theorem append_join_cons (xs piece : List Char) (pieces : List (List Char)) :
    xs ++ join separator (piece :: pieces) = join separator ((xs ++ piece) :: pieces) := by
  cases pieces with
  | nil => rfl
  | cons next pieces => rw [join, join, List.append_assoc]

/-- What follows joined pieces belongs to the last one. -/
theorem join_concat_append (pieces : List (List Char)) (piece xs : List Char) :
    join separator (pieces ++ [piece]) ++ xs = join separator (pieces ++ [piece ++ xs]) := by
  induction pieces with
  | nil => rfl
  | cons first pieces ih =>
    -- `join` asks whether there is a next piece, and there is one on both sides.
    obtain ⟨next, rest, hnext⟩ := List.exists_cons_of_ne_nil
      (List.append_ne_nil_of_right_ne_nil pieces (List.cons_ne_nil piece []))
    obtain ⟨next', rest', hnext'⟩ := List.exists_cons_of_ne_nil
      (List.append_ne_nil_of_right_ne_nil pieces (List.cons_ne_nil (piece ++ xs) []))
    rw [hnext, hnext'] at ih
    rw [List.cons_append, List.cons_append, hnext, hnext', join, join, List.append_assoc,
      List.cons_append, ih]

/-- A separator that is not blank does not occur among blanks. -/
theorem notMem_of_blank (hseparator : isBlank separator = false)
    (h : ∀ c ∈ s, isBlank c = true) : separator ∉ s := by
  intro hmem
  rw [h separator hmem] at hseparator
  cases hseparator

/-- Blanks in front of a text do not matter for its trimmed pieces. -/
theorem map_trim_split_prepend (hseparator : isBlank separator = false) (s : List Char)
    {blanks : List Char} (h : ∀ c ∈ blanks, isBlank c = true) :
    (split separator (blanks ++ s)).map trim = (split separator s).map trim := by
  have hblanks := notMem_of_blank hseparator h
  obtain ⟨first, pieces, hpieces⟩ := List.exists_cons_of_ne_nil (split_ne_nil separator s)
  have hnone : ∀ piece ∈ first :: pieces, separator ∉ piece := fun piece hmem =>
    not_mem_of_mem_split (hpieces ▸ hmem)
  have hall : ∀ piece ∈ (blanks ++ first) :: pieces, separator ∉ piece := by
    obtain ⟨hfirst, hrest⟩ := List.forall_mem_cons.1 hnone
    refine List.forall_mem_cons.2 ⟨fun hmem => ?_, hrest⟩
    exact (List.mem_append.1 hmem).elim hblanks hfirst
  have hsplit : split separator (blanks ++ s) = (blanks ++ first) :: pieces := by
    rw [← split_join (List.cons_ne_nil _ _) hall, ← append_join_cons, ← hpieces, join_split]
  rw [hsplit, hpieces, List.map_cons, List.map_cons, trim_prepend_of_blank first h]

/-- Blanks behind a text do not matter for its trimmed pieces. -/
theorem map_trim_split_append (hseparator : isBlank separator = false) (s : List Char)
    {blanks : List Char} (h : ∀ c ∈ blanks, isBlank c = true) :
    (split separator (s ++ blanks)).map trim = (split separator s).map trim := by
  have hblanks := notMem_of_blank hseparator h
  -- `split` works from the front, so the last piece is reached through all of them.
  obtain ⟨pieces, last, hpieces⟩ :=
    (List.eq_nil_or_concat (split separator s)).resolve_left (split_ne_nil separator s)
  rw [List.concat_eq_append] at hpieces
  have hnone : ∀ piece ∈ pieces ++ [last], separator ∉ piece := fun piece hmem =>
    not_mem_of_mem_split (hpieces ▸ hmem)
  have hall : ∀ piece ∈ pieces ++ [last ++ blanks], separator ∉ piece := by
    obtain ⟨hfront, hlast⟩ := List.forall_mem_append.1 hnone
    refine List.forall_mem_append.2 ⟨hfront, fun piece hpiece hmem => ?_⟩
    rw [List.mem_singleton.1 hpiece] at hmem
    exact (List.mem_append.1 hmem).elim (hlast last List.mem_cons_self) hblanks
  have hsplit : split separator (s ++ blanks) = pieces ++ [last ++ blanks] := by
    rw [← split_join (List.append_ne_nil_of_right_ne_nil pieces (List.cons_ne_nil _ _)) hall,
      ← join_concat_append, ← hpieces, join_split]
  rw [hsplit, hpieces, List.map_append, List.map_append, List.map_singleton, List.map_singleton,
    trim_append_of_blank last h]

/-- A separator that is not blank cuts a trimmed text into the same trimmed pieces. -/
theorem map_trim_split_trim (hseparator : isBlank separator = false) (s : List Char) :
    (split separator (trim s)).map trim = (split separator s).map trim := by
  obtain ⟨blanks, hend, hblanks⟩ := exists_append_trimEnd (trimStart s)
  have hfront : ∀ c ∈ s.takeWhile isBlank, isBlank c = true := fun c hc =>
    List.mem_takeWhile_imp hc
  have hstart : s.takeWhile isBlank ++ trimStart s = s := List.takeWhile_append_dropWhile
  have hback := map_trim_split_append hseparator (trim s) hblanks
  rw [trim, ← hend] at hback
  have hwhole := map_trim_split_prepend hseparator (trimStart s) hfront
  rw [hstart] at hwhole
  rw [trim, ← hback, hwhole]

/-- Whether a carriage return is left at the end does not matter for a trimmed line. -/
theorem trim_dropReturn (line : List Char) : trim (dropReturn line) = trim line := by
  rw [dropReturn]
  split
  next h =>
    have hline : line.dropLast ++ ['\r'] = line := List.dropLast_append_getLast? '\r' h
    have hblank : isBlank '\r' = true := rfl
    rw [← trim_concat_of_blank hblank, hline]
  next => rfl

/-- What trimmed lines say, the pieces between line feeds say, if an empty line says nothing. -/
theorem filterMap_lines {β : Type} {f : List Char → Option β}
    (htrim : ∀ line, f (dropReturn line) = f line) (hempty : f [] = none) (s : List Char) :
    (lines s).filterMap f = (split '\n' s).filterMap f := by
  rw [lines]
  induction split '\n' s with
  | nil => rfl
  | cons line pieces ih =>
    cases pieces with
    | nil =>
      rw [linesOfPieces]
      split
      next h => rw [h, List.filterMap_cons_none hempty]
      next => rfl
    | cons next pieces =>
      rw [linesOfPieces, List.filterMap_cons, List.filterMap_cons, htrim, ih]

end SourceFilter.Text
