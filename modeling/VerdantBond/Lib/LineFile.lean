import Mathlib.Tactic

set_option autoImplicit false

/-! # Files of lines that grow at their end

A process appends one line at a time, the text of a value and a newline. A crash in the middle leaves
the file with an unterminated rest. The next line is written right behind that rest, and the two make
one line that is the text of no value: for the texts of JSON objects, the rest leaves a string or a
brace open, or is followed by a second object.
-/

namespace VerdantBond

variable {α : Type}

/-- What stands behind the last newline of a file. -/
inductive LineRest (α : Type) where
  | none
  /-- Less than the text of a value. -/
  | part
  /-- The text of a value, without the newline. -/
  | whole (a : α)

structure LineFile (α : Type) where
  /-- The terminated lines; `none` is a line that is the text of no value. -/
  lines : List (Option α)
  rest : LineRest α

namespace LineFile

def empty : LineFile α := ⟨[], .none⟩

/-- The line of `a`, written behind the rest. -/
def append (f : LineFile α) (a : α) : LineFile α :=
  match f.rest with
  | .none => ⟨f.lines ++ [some a], .none⟩
  | _ => ⟨f.lines ++ [none], .none⟩

/-- The beginning of a line, written behind the rest. -/
def tear (f : LineFile α) (torn : LineRest α) : LineFile α :=
  match f.rest, torn with
  | _, .none => f
  | .none, torn => ⟨f.lines, torn⟩
  | _, _ => ⟨f.lines, .part⟩

/-- The lines that are not blank, as a reader sees them. -/
def read (f : LineFile α) : List (Option α) :=
  match f.rest with
  | .none => f.lines
  | .part => f.lines ++ [none]
  | .whole a => f.lines ++ [some a]

/-- Every line is the text of a value, and the last one is terminated. -/
def Holds (f : LineFile α) (entries : List α) : Prop := f = ⟨entries.map some, .none⟩

theorem holds_empty : (empty : LineFile α).Holds [] := rfl

variable {f : LineFile α} {entries : List α}

theorem Holds.append (h : f.Holds entries) (a : α) : (f.append a).Holds (entries ++ [a]) := by
  rw [h]
  simp [LineFile.append, Holds]

theorem Holds.appendAll (h : f.Holds entries) (as : List α) :
    (as.foldl LineFile.append f).Holds (entries ++ as) := by
  induction as generalizing f entries with
  | nil => rwa [List.append_nil]
  | cons a as ih => simpa using ih (h.append a)

theorem Holds.read (h : f.Holds entries) : f.read = entries.map some := by
  rw [h]
  rfl

end LineFile

end VerdantBond
