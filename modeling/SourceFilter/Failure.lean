import SourceFilter.Text.Column
import SourceFilter.Text.Numeral
import SourceFilter.Text.Split

/-!
# Failures and their causes

A failure says what could not be done, and carries the chain of causes behind it. It is shown on
one line, with colons between the links, or as a report of several lines that ends a program.
-/

namespace SourceFilter

/-- What failed, and why. -/
structure Failure where
  /-- What could not be done. -/
  message : String
  /-- The causes, each one the reason for the one before it. -/
  causes : List String := []
  deriving DecidableEq, Repr

namespace Failure

/-- All links of the chain, the failure itself first. -/
def chain (f : Failure) : List String := f.message :: f.causes

/-- The failure as the cause of a larger one. -/
def within (context : String) (f : Failure) : Failure := ⟨context, f.chain⟩

/-- The chain on one line. -/
def inline (f : Failure) : String := ": ".intercalate f.chain

/-- The lines of a text, the first one after a lead and the others after a margin. -/
def hanging (lead margin text : String) : List String :=
  match (Text.split '\n' text.toList).map String.ofList with
  | [] => []
  | first :: others => (lead ++ first) :: others.map (margin ++ ·)

/-- What stands before a cause that has a number. -/
def numbering (i : Nat) : String :=
  String.ofList (Text.alignRight 5 (Text.digits i)) ++ ": "

/-- The causes under their heading; several causes are numbered from zero. -/
def causeLines : List String → List String
  | [] => []
  | [cause] => ["", "Caused by:"] ++ hanging "    " "    " cause
  | causes =>
    ["", "Caused by:"] ++
      (causes.mapIdx fun i cause => hanging (numbering i) "       " cause).flatten

/-- The lines of the report that ends a program. -/
def report (f : Failure) : List String := hanging "Error: " "" f.message ++ causeLines f.causes

end Failure
end SourceFilter
