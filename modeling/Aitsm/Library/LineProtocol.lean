import Mathlib.Data.Int.Notation
import Aitsm.Library.Escape

/-!
# The line protocol of InfluxDB

A text is a row a line: the table and its tags, the fields, and a timestamp,
with one space between them. A backslash makes the next character literal; a
line feed, a space, a comma or an equals sign without one ends what it stands
in. Of the field values only numbers are read, by `number`.

`parse_line` takes a text line by line, `row_eq` is the rule for a line that was put
together from its parts, and `row_head` the one for a line that ends within its tags.
-/

namespace Aitsm.Library.LineProtocol

open Escape

/-- A text, as code points. -/
abbrev Text : Type := List ℕ

/-- The backslash. -/
abbrev backslash : ℕ := 92

abbrev newline : ℕ := 10

abbrev space : ℕ := 32

abbrev comma : ℕ := 44

abbrev equals : ℕ := 61

/-- A row that is to be written. -/
structure Row (ν : Type) where
  table : Text
  tags : List (Text × Text)
  fields : List (Text × ν)
  timestamp : Option ℤ
  deriving DecidableEq

/-- A number of decimal digits. -/
def natural (s : Text) : Option ℕ :=
  if s ≠ [] ∧ ∀ c ∈ s, 48 ≤ c ∧ c ≤ 57 then
    some (s.foldl (fun n c => 10 * n + (c - 48)) 0)
  else none

/-- An integer, with a minus sign if it is negative. -/
def integer : Text → Option ℤ
  | 45 :: s => (natural s).map fun n : ℕ => -(n : ℤ)
  | s => (natural s).map fun n : ℕ => (n : ℤ)

/-- A name, or the value of a tag. -/
def name (s : Text) : Option Text := if s = [] then none else some (unescape backslash s)

/-- `key=value`, in the tags. -/
def tag (s : Text) : Option (Text × Text) :=
  match pieces backslash equals s with
  | [key, value] => do
    let key ← name key
    let value ← name value
    return (key, value)
  | _ => none

variable {ν : Type} (number : Text → Option ν)

/-- `key=value`, in the fields. -/
def field (s : Text) : Option (Text × ν) :=
  match pieces backslash equals s with
  | [key, value] => do
    let key ← name key
    let value ← number value
    return (key, value)
  | _ => none

/-- The table, the tags and the fields. -/
def series (head fields : Text) (timestamp : Option ℤ) : Option (Row ν) :=
  match pieces backslash comma head with
  | table :: tags => do
    let table ← name table
    let tags ← tags.mapM tag
    let fields ← (pieces backslash comma fields).mapM (field number)
    return { table := table, tags := tags, fields := fields, timestamp := timestamp }
  | [] => none

/-- A line. -/
def row (s : Text) : Option (Row ν) :=
  match pieces backslash space s with
  | [head, fields] => series number head fields none
  | [head, fields, time] => (integer time).bind fun t => series number head fields (some t)
  | _ => none

/-- The rows of a text; empty lines do not count. -/
def parse (s : Text) : Option (List (Row ν)) :=
  ((pieces backslash newline s).filter (· ≠ [])).mapM (row number)

/-! ## Reading numbers -/

theorem digit_of_mem {n c : ℕ} (hc : c ∈ (Nat.toDigits 10 n).map Char.toNat) :
    48 ≤ c ∧ c ≤ 57 := by
  obtain ⟨d, hd, rfl⟩ := List.mem_map.mp hc
  have := Nat.isDigit_of_mem_toDigits (by decide) (by decide) hd
  simpa [Char.isDigit, Char.le_def, UInt32.le_iff_toNat_le] using this

theorem natural_toDigits (n : ℕ) : natural ((Nat.toDigits 10 n).map Char.toNat) = some n := by
  have hne : (Nat.toDigits 10 n).map Char.toNat ≠ [] := by
    simp [Nat.toDigits_ne_nil]
  rw [natural, if_pos ⟨hne, fun c hc => digit_of_mem hc⟩, List.foldl_map]
  have hvalue := Nat.ofDigitChars_ten_toDigits (n := n)
  rw [Nat.ofDigitChars_eq_foldl] at hvalue
  exact congrArg some hvalue

/-- The text of an integer: its digits, after a minus sign if it is negative. -/
theorem toList_toString (n : ℤ) : ((toString n).toList.map Char.toNat) =
    if n < 0 then 45 :: (Nat.toDigits 10 n.natAbs).map Char.toNat
    else (Nat.toDigits 10 n.natAbs).map Char.toNat := by
  rw [Int.toString_eq_repr]
  cases n with
  | ofNat n => simp [Int.repr]
  | negSucc n => simp [Int.repr]

/-- An integer is read as it was written. -/
theorem integer_toString (n : ℤ) : integer ((toString n).toList.map Char.toNat) = some n := by
  rw [toList_toString]
  split
  · rename_i hneg
    rw [integer, natural_toDigits, Option.map_some]
    congr 1
    omega
  · rename_i hpos
    rw [integer.eq_def]
    split
    · rename_i hminus
      have := digit_of_mem (n := n.natAbs) (hminus ▸ List.mem_cons_self)
      omega
    · rw [natural_toDigits, Option.map_some]
      congr 1
      omega

/-- The characters of an integer. -/
theorem plain_toString (n : ℤ) {sep : ℕ} (hsep : sep < 45) :
    Plain backslash sep ((toString n).toList.map Char.toNat) := by
  rw [toList_toString]
  intro c hc
  have hchar : c = 45 ∨ 48 ≤ c ∧ c ≤ 57 := by
    split at hc
    · rcases List.mem_cons.mp hc with rfl | hc
      · exact .inl rfl
      · exact .inr (digit_of_mem hc)
    · exact .inr (digit_of_mem hc)
  change c ≠ 92 ∧ c ≠ sep
  omega

/-! ## Reading lines -/

/-- A line, and the rows after it. -/
theorem parse_line {line rest : Text} (hline : Whole backslash newline line) (hne : line ≠ []) :
    parse number (line ++ newline :: rest) =
      (row number line).bind fun r => (parse number rest).map (r :: ·) := by
  rw [parse, hline.pieces_append_sep (by decide), List.filter_cons_of_pos (by simpa using hne),
    List.mapM_cons]
  rcases row number line with _ | r
  · rfl
  · rw [parse]
    rcases (_ : List Text).mapM (row number) with _ | rs <;> rfl

/-- The parts of a line with a timestamp. -/
theorem row_eq {head fields time : Text} (hhead : Whole backslash space head)
    (hfields : Whole backslash space fields) (htime : Whole backslash space time) :
    row number (head ++ space :: (fields ++ space :: time)) =
      (integer time).bind fun t => series number head fields (some t) := by
  rw [row, hhead.pieces_append_sep (by decide), hfields.pieces_append_sep (by decide),
    htime.pieces_eq]

/-- A line that ends before its fields is no row. -/
theorem row_head {head : Text} (hhead : Whole backslash space head) : row number head = none := by
  rw [row, hhead.pieces_eq]

end Aitsm.Library.LineProtocol
