import SheetMill.Proofs.Work
import SheetMill.Proofs.Value
import SheetMill.Reader.Statements

/-!
# The text of the statements

The reader of workbooks asks the table service for statements, but cannot make a text of them.
-/

namespace SheetMill.Reader

open Act Value Outcome List Message

def noParts : Fault := .wrongKind "string indices must be integers, not 'str'"

theorem statementText_of_levels {response : BuildResponse} (h : response.content ≠ []) :
    statementText response = .error noParts := by
  let entries := response.content.map fun e => (Value.int e.1, e.2.toValue)
  have hsorted : (entries.mergeSort fun a b =>
      decide (a.1.asInt?.getD 0 ≤ b.1.asInt?.getD 0)) ≠ [] := by
    rw [Ne, ← length_eq_zero_iff, length_mergeSort]
    simpa [entries] using h
  obtain ⟨⟨number, level⟩, rest, hrest⟩ := exists_cons_of_ne_nil hsorted
  have hmem : (number, level) ∈ entries := by
    rw [← mem_mergeSort, hrest]
    exact mem_cons_self
  obtain ⟨⟨k, l⟩, -, heq⟩ := mem_map.mp hmem
  cases heq
  have hcont : response.toValue.item "content" = .ok (.map entries) := rfl
  simp only [statementText, hcont, ok_bind, entriesAs, hrest, foldlM_cons]
  rfl

theorem statementText_of_empty {response : BuildResponse} (h : response.content = []) :
    statementText response = .ok "" := by
  have hcont : response.toValue.item "content" = .ok (.map []) := by
    rw [BuildResponse.toValue, h]
    rfl
  simp only [statementText, hcont, ok_bind, entriesAs, mergeSort_nil, foldlM_nil]
  rfl

/-- Whatever statements the table service answers with, they never become a text: there is one only
of an answer without any. -/
theorem statements_never_returned {σ : Type} (services : Surroundings σ)
    (columns : List (String × SqlTree)) (description : Value) (dtypes : List (String × ColumnInfo))
    (hdtypes : columnTypes description = .ok dtypes) (table : String) (s s' : σ)
    (response : BuildResponse)
    (h : services.plan { cols := columns, dtypes, tableName := table } s = .ok response s') :
    tableText services columns description (.text table) s =
      if response.content = [] then .ok "" s' else .error noParts s' := by
  have htext : Wire.Slot.text (.text table) = .ok table := rfl
  rw [tableText, bind_known hdtypes, bind_known htext, bind_of_ok h]
  split
  · rename_i hempty
    exact lift_of_ok (statementText_of_empty hempty) s'
  · rename_i hlevels
    exact lift_of_error (statementText_of_levels hlevels) s'

/-- The one statement that creates a table with a column of whole numbers. -/
theorem statements_never_returned_created :
    let created : Statement :=
      { sql := "CREATE TABLE IF NOT EXISTS t (id SERIAL PRIMARY KEY, a INT);",
        columns := ["id", "a"] }
    let services : Surroundings Unit :=
      { parse := fun _ => throw .badMessage, toSql := fun _ => throw .badMessage,
        plan := fun _ => pure { content := [(0, ⟨[created]⟩)] } }
    tableText services [("a", { kind := 5, sql := "1" })]
      (.record [("a", .record [("type", .text "INT")])]) (.text "t") () = .error noParts () := by
  intro created services
  exact (statements_never_returned services _ _ _ rfl "t" () () _ rfl).trans
    (if_neg (List.cons_ne_nil _ _))

end SheetMill.Reader
