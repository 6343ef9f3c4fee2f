import TwinScreen.Toml.Statement

/-!
# Documents

The statements of a document build one table. An assignment belongs to the table of the latest
header; each name is assigned once.
-/
namespace TwinScreen.Toml

structure Draft where
  root : Value
  /-- The path of the latest header. -/
  current : List Key

namespace Draft

def empty : Draft := ⟨.table .header [], []⟩

/-- The draft after one more statement, if the statement is allowed. -/
def add (d : Draft) : Statement → Option Draft
  | .assign path key span v => do
      let root ← Value.under false (fun t => t.assign path key span v) d.current d.root
      return { d with root }
  | .table path key span => do
      return ⟨← d.root.openTable path key span, path ++ [key]⟩
  | .item path key span => do
      return ⟨← d.root.openItem path key span, path ++ [key]⟩

end Draft

def Value.ofStatements? (statements : List Statement) : Option Value :=
  (statements.foldlM Draft.add Draft.empty).map Draft.root

def parse? (text : List Char) : Option Value := do
  Value.ofStatements? (← statements? text)

end TwinScreen.Toml
